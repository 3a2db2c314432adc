import CauldronCalls.Proofs.Compiler.Faithful

/-!
A batch as the groups of actions that its intent's parts turn into. Each part is bound on its own, and the batch
holds the groups one after the other.
-/

namespace CauldronCalls

open Outcome

namespace Cauldron

-- The actions of one part.
def group (c : Cauldron) (g : Except CompileError (List Step)) : Except CompileError (List Action) := do
  (← g).mapM c.bound

theorem group_eq_ok {c : Cauldron} {g : Except CompileError (List Step)} {as : List Action} :
    c.group g = .ok as ↔ ∃ ss, g = .ok ss ∧ ss.mapM c.bound = .ok as :=
  bind_eq_ok

theorem actions_eq_flatten (c : Cauldron) (gs : List (Except CompileError (List Step))) :
    c.actions gs = List.flatten <$> gs.mapM c.group := by
  induction gs
  case nil => rfl
  case cons g gs hi =>
    have hg : c.actions (g :: gs) = (do
        let as ← c.group g
        let bs ← c.actions gs
        pure (as ++ bs)) := by
      cases g <;> rfl
    rw [hg, hi, List.mapM_cons]
    cases c.group g <;> cases gs.mapM c.group <;> rfl

end Cauldron

namespace Compiler

variable {c : Compiler} {i : Intent} {as : List Action}

def group (c : Compiler) (p : Part) : Except CompileError (List Action) :=
  c.cauldron.group (p.steps c.cauldron.leverageSwapper)

theorem actions_eq_flatten (c : Compiler) (i : Intent) : c.actions i = List.flatten <$> i.parts.mapM c.group := by
  rw [actions, Intent.groups_eq, Cauldron.actions_eq_flatten, List.mapM_map]
  rfl

theorem actions_ne_nil (h : c.actions i = .ok as) (hp : i.parts ≠ []) : as ≠ [] := by
  rintro rfl
  rw [actions, Intent.groups_eq] at h
  have hr := Part.realizes_actions h
  cases hi : i.parts
  case nil => contradiction
  case cons p ps =>
    rw [hi] at hr
    cases p <;> cases hr

theorem compile_empty (h : i.parts = []) : c.compile i = .error .emptyIntent := by
  rw [compile, if_pos (Intent.isEmpty_iff.mpr h)]

theorem compile_eq_batch (hp : i.parts ≠ []) (hd : c.directBorrow = true → ∀ b, ¬i.OnlyBorrows b) :
    c.compile i = c.batch i := by
  rw [compile, if_neg (mt Intent.isEmpty_iff.mp hp)]
  split
  case h_1 b hb hc => exact hd hc b (Intent.borrowOnly?_eq_some_iff.mp hb) |>.elim
  case h_2         => rfl

-- Unless it becomes a direct call, an intent compiles just as its parts do.
theorem compile_eq_map (hp : i.parts ≠ []) (hd : c.directBorrow = true → ∀ b, ¬i.OnlyBorrows b) :
    c.compile i = (.cook ∘ Batch.ofActions) <$> c.actions i := by
  rw [compile_eq_batch hp hd, batch_eq]
  cases h : c.actions i
  case error => rfl
  case ok    => exact Call.ofActions_eq_cook <| actions_ne_nil h hp

-- The three ways in which an intent is compiled.
theorem compile_cases (c : Compiler) (i : Intent) :
    ((i.parts = []) ∧ (c.compile i = .error .emptyIntent)) ∨
    (∃ b, i.OnlyBorrows b ∧ (c.directBorrow = true) ∧
      (c.compile i = .ok (.borrow (b.recipient.getD i.sender) b.amount))) ∨
    ((i.parts ≠ []) ∧ (c.directBorrow = true → ∀ b, ¬i.OnlyBorrows b) ∧
      (c.compile i = (.cook ∘ Batch.ofActions) <$> c.actions i)) := by
  by_cases hp : i.parts = []
  case pos => exact .inl ⟨hp, compile_empty hp⟩
  case neg =>
    by_cases hd : ∃ b, i.OnlyBorrows b ∧ c.directBorrow = true
    case pos =>
      obtain ⟨c, d⟩ := c
      obtain ⟨b, hb, rfl⟩ := hd
      exact .inr <| .inl ⟨b, hb, rfl, compile_direct hb⟩
    case neg =>
      have hd : c.directBorrow = true → ∀ b, ¬i.OnlyBorrows b := fun h b hb => hd ⟨b, hb, h⟩
      exact .inr <| .inr ⟨hp, hd, compile_eq_map hp hd⟩

theorem actions_of_compile {b : Batch} (h : c.compile i = .ok (.cook b)) :
    ∃ as, c.actions i = .ok as ∧ b = Batch.ofActions as := by
  obtain ⟨_, hc⟩ | ⟨_, _, _, hc⟩ | ⟨_, _, hc⟩ := c.compile_cases i <;> rw [hc] at h
  case inr.inr =>
    obtain ⟨as, ha, hb⟩ := map_eq_ok.mp h
    exact ⟨as, ha, Call.cook.inj hb |>.symm⟩
  all_goals cases h

end Compiler

end CauldronCalls
