import CauldronCalls.Compiler
import CauldronCalls.Proofs.Outcome

/-!
The actions of a compiled batch without the builder that collects them: every part of the intent is bound on
its own, in order, and the results are joined.
-/

namespace CauldronCalls

open Outcome

namespace Cauldron

-- The action that a step is bound to on this cauldron.
def bound (c : Cauldron) (s : Step) : Except CompileError Action :=
  (Builder.empty c).bound s

-- The actions of a list of parts, up to the first part or step that is refused.
def actions (c : Cauldron) : List (Except CompileError (List Step)) → Except CompileError (List Action)
  | []      => .ok []
  | g :: gs => do
    let ss ← g
    let as ← ss.mapM c.bound
    let bs ← c.actions gs
    pure (as ++ bs)

theorem bind_of_bound {c : Cauldron} {s : Step} {a : Action} (h : c.bound s = .ok a) :
    s.descriptor.bind s.value s.args = .ok a := by
  rw [bound, Builder.bound] at h
  split at h
  · exact h
  · contradiction

-- Every revision understands an action of the first.
theorem bound_eq_bind {s : Step} (c : Cauldron) (h : s.descriptor.minVersion = .v1) :
    c.bound s = s.descriptor.bind s.value s.args := by
  have hv : s.descriptor.minVersion ≤ c.version := by
    rw [h]
    cases c.version <;> decide
  exact if_pos hv

theorem actions_singleton (c : Cauldron) (s : Step) : c.actions [.ok [s]] = (do pure [← c.bound s]) := by
  have hs : c.actions [.ok [s]] = (do pure ((← [s].mapM c.bound) ++ [])) := rfl
  rw [hs, List.mapM_cons]
  cases c.bound s <;> rfl

end Cauldron

namespace Builder

variable {b : Builder} {ss : List Step} {gs : List (Except CompileError (List Step))} {as : List Action}
variable {e : CompileError}

theorem bound_eq (b : Builder) (s : Step) : b.bound s = b.cauldron.bound s :=
  rfl

theorem pushAll_ok (h : ss.mapM b.cauldron.bound = .ok as) :
    b.pushAll ss = ({ b with actions := b.actions ++ as }, .ok ()) := by
  induction ss generalizing b as
  case nil =>
    cases h
    simp [pushAll]
  case cons hi =>
    obtain ⟨a, as, ha, has, rfl⟩ := mapM_cons_eq_ok.mp h
    simp only [pushAll, bound_eq, ha]
    rw [hi (b := { b with actions := b.actions ++ [a] }) has, List.append_assoc, List.singleton_append]

theorem pushAll_error (h : ss.mapM b.cauldron.bound = .error e) : (b.pushAll ss).2 = .error e := by
  induction ss generalizing b
  case nil => contradiction
  case cons hi =>
    obtain ha | ⟨a, ha, has⟩ := mapM_cons_eq_error.mp h <;> simp only [pushAll, bound_eq, ha]
    exact hi (b := { b with actions := b.actions ++ [a] }) has

theorem pushGroups_ok (h : b.cauldron.actions gs = .ok as) :
    b.pushGroups gs = ({ b with actions := b.actions ++ as }, .ok ()) := by
  induction gs generalizing b as
  case nil =>
    cases h
    simp [pushGroups]
  case cons hi =>
    simp only [Cauldron.actions, bind_eq_ok, pure_eq_ok] at h
    obtain ⟨ss, rfl, as, has, bs, hbs, rfl⟩ := h
    simp only [pushGroups, pushGroup, pushAll_ok has]
    rw [hi (b := { b with actions := b.actions ++ as }) hbs, List.append_assoc]

theorem pushGroups_error (h : b.cauldron.actions gs = .error e) : (b.pushGroups gs).2 = .error e := by
  induction gs generalizing b
  case nil => contradiction
  case cons hi =>
    simp only [Cauldron.actions, bind_eq_error, pure_ne_error, and_false, exists_false, or_false] at h
    obtain rfl | ⟨ss, rfl, has | ⟨as, has, hbs⟩⟩ := h
    · rfl
    · have ha := pushAll_error has
      simp only [pushGroups, pushGroup]
      split <;> simp_all
    · simp only [pushGroups, pushGroup, pushAll_ok has]
      exact hi (b := { b with actions := b.actions ++ as }) hbs

end Builder

namespace Compiler

-- The actions of all parts of an intent.
def actions (c : Compiler) (i : Intent) : Except CompileError (List Action) :=
  c.cauldron.actions (i.groups c.cauldron.leverageSwapper)

theorem batch_eq (c : Compiler) (i : Intent) : c.batch i = c.actions i >>= Call.ofActions := by
  cases h : c.actions i with
  | error e =>
    have he := Builder.pushGroups_error (b := Builder.empty c.cauldron) h
    rw [batch]
    split <;> simp_all [bind, Except.bind]
  | ok as =>
    rw [batch, Builder.pushGroups_ok (b := Builder.empty c.cauldron) h]
    simp [Builder.finish, Builder.empty, bind, Except.bind]

end Compiler

end CauldronCalls
