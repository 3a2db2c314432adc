import CauldronCalls.Proofs.Call.Value
import CauldronCalls.Proofs.Compiler.Layout

/-!
What the steps of a batch forward, and so what a compiled call attaches. The main statement is that a call attaches the
native currency that its intent deposits, at the step of the deposit, and nothing else.
-/

namespace CauldronCalls

open Outcome

-- What the step forwards once it is bound.
def Step.forwarded (s : Step) : Uint256 :=
  if s.descriptor.carriesNative then s.value else 0

theorem Cauldron.value_of_bound {c : Cauldron} {s : Step} {a : Action} (h : c.bound s = .ok a) :
    a.value = s.forwarded := by
  obtain ⟨_, _, _, rfl⟩ := Descriptor.bind_ok <| bind_of_bound h
  rfl

namespace Part

-- What the part's steps forward, one after the other.
def forwarded : Part → List Uint256
  | approval _   => [0]
  | add _ a      => [if a.token.isNative then a.amount else 0, 0]
  | borrow _ _   => [0]
  | repay _ _    => [0, 0, 0]
  | remove _ _   => [0, 0]
  | leverage _ _ => [0, 0, 0]

variable {w : Swapper} {p : Part} {ss : List Step}

theorem forwarded_steps (h : p.steps w = .ok ss) : ss.map Step.forwarded = p.forwarded := by
  cases p
  case leverage =>
    rw [steps_leverage h]
    rfl
  all_goals
    cases h
    rfl

-- Only a deposit of native currency forwards anything.
theorem eq_zero_of_mem_forwarded {v : Uint256} (hp : ∀ s a, p = .add s a → a.token ≠ .native) (hv : v ∈ p.forwarded) :
    v = 0 := by
  cases p
  case add s a =>
    cases ht : a.token
    case native => exact absurd ht <| hp s a rfl
    case token  => simpa [forwarded, ht, Asset.isNative] using hv
  all_goals simpa [forwarded] using hv

end Part

namespace Intent

variable {i : Intent} {a : AddCollateral}

-- What the steps of the intent forward, one after the other.
def forwarded (i : Intent) : List Uint256 :=
  i.parts.flatMap Part.forwarded

theorem eq_zero_of_mem_forwarded {v : Uint256} (h : ∀ a, .add i.sender a ∈ i.parts → a.token ≠ .native)
    (hv : v ∈ i.forwarded) : v = 0 := by
  have ⟨p, hp, hv⟩ := List.mem_flatMap.mp hv
  refine Part.eq_zero_of_mem_forwarded ?_ hv
  rintro s a rfl
  cases sender_of_mem_parts hp rfl
  exact h a hp

theorem exists_parts_of_add (h : .add i.sender a ∈ i.parts) :
    ∃ rest, (i.parts = (i.approval.map .approval).toList ++ .add i.sender a :: rest) ∧ (∀ s b, .add s b ∉ rest) := by
  rcases i with ⟨s, p, ⟨b, y⟩ | ⟨y, z⟩ | ⟨b, y⟩⟩ <;> simp [parts, Operation.parts] at h
  case addCollateralAndBorrow =>
    subst h
    exact ⟨_, rfl, by simp⟩
  case addCollateralAndLeverage =>
    subst h
    exact ⟨_, rfl, by simp⟩

theorem exists_forwarded_of_add (h : .add i.sender a ∈ i.parts) :
    ∃ rest, (i.forwarded = List.replicate i.approval.toList.length 0 ++
      (if a.token.isNative then a.amount else 0) :: rest) ∧ (∀ v ∈ rest, v = 0) := by
  have ⟨rest, hp, hn⟩ := exists_parts_of_add h
  refine ⟨0 :: rest.flatMap Part.forwarded, ?split, ?rest⟩
  case split =>
    rw [forwarded, hp]
    cases i.approval <;> rfl
  case rest =>
    refine List.forall_mem_cons.mpr ⟨rfl, ?_⟩
    intro v hv
    have ⟨p, hp, hv⟩ := List.mem_flatMap.mp hv
    refine Part.eq_zero_of_mem_forwarded ?_ hv
    rintro s b rfl
    exact absurd hp (hn s b)

theorem invocations_of_add (w : Address) (h : .add i.sender a ∈ i.parts) :
    (i.invocations w)[i.approval.toList.length]? =
      some ⟨.bentoDeposit, [.address a.token.slot, .address i.sender, .uint a.amount, .uint 0]⟩ := by
  have ⟨rest, hp, _⟩ := exists_parts_of_add h
  rw [invocations, demands, hp]
  cases i.approval <;> rfl

end Intent

namespace Compiler

variable {c : Compiler} {i : Intent} {x : Call} {b : Batch}

theorem values_group {p : Part} {as : List Action} (h : c.group p = .ok as) : as.map (·.value) = p.forwarded := by
  obtain ⟨ss, hs, ha⟩ := Cauldron.group_eq_ok.mp h
  rw [map_of_mapM (fun _ _ => Cauldron.value_of_bound) ha, Part.forwarded_steps hs]

theorem values_compile (h : c.compile i = .ok (.cook b)) : b.values = i.forwarded := by
  obtain ⟨as, ha, rfl⟩ := actions_of_compile h
  rw [actions_eq_flatten] at ha
  obtain ⟨ass, hm, rfl⟩ := map_eq_ok.mp ha
  have hv := map_of_mapM (f := c.group) (fun _ _ => values_group) hm
  calc (Batch.ofActions ass.flatten).values
    _ = (ass.map (List.map (·.value))).flatten := List.map_flatten
    _ = (i.parts.map Part.forwarded).flatten   := by rw [hv]
    _ = i.forwarded                            := List.flatMap_def.symm

theorem forwards_deposit {a : AddCollateral} (h : c.compile i = .ok (.cook b)) (ha : .add i.sender a ∈ i.parts)
    (ht : a.token = .native) : Uint256.OnlyAt b.values i.approval.toList.length a.amount := by
  obtain ⟨rest, hf, hr⟩ := Intent.exists_forwarded_of_add ha
  rw [ht] at hf
  rw [values_compile h, hf]
  exact Uint256.onlyAt_append _ hr

-- A call attaches just the native currency that its intent deposits as collateral, and a batch forwards it at the step
-- of the deposit. Repayments, withdrawals, borrowings and swaps attach nothing, whatever they are made in.
theorem compile_value (h : c.compile i = .ok x) :
    (∀ a, .add i.sender a ∈ i.parts → a.token = .native →
      (x.value = a.amount) ∧
      (∃ b k, (x = .cook b) ∧
        b.Holds k ⟨.bentoDeposit, [.address .zero, .address i.sender, .uint a.amount, .uint 0]⟩ ∧
        Uint256.OnlyAt b.values k a.amount)) ∧
    ((∀ a, .add i.sender a ∈ i.parts → a.token ≠ .native) →
      (x.value = 0) ∧ (∀ b, x = .cook b → ∀ v ∈ b.values, v = 0)) := by
  cases x
  case borrow r n =>
    refine ⟨fun a ha => ?_, fun _ => ⟨rfl, fun _ hb => nomatch hb⟩⟩
    have ⟨_, b, hb⟩ := isDirect_compile h |>.mp rfl
    simp [hb.parts_eq] at ha
  case cook b =>
    refine ⟨?native, ?other⟩
    case native =>
      intro a ha ht
      have ho := forwards_deposit h ha ht
      have hd := holds_compile h <| i.invocations_of_add _ ha
      rw [ht] at hd
      exact ⟨Call.value_eq ho, b, _, rfl, hd, ho⟩
    case other =>
      intro hn
      have hz : ∀ v ∈ b.values, v = 0 := by
        intro v hv
        rw [values_compile h] at hv
        exact Intent.eq_zero_of_mem_forwarded hn hv
      refine ⟨Call.value_eq_zero hz, ?_⟩
      rintro _ ⟨⟩
      exact hz

theorem compile_value_largest :
    ∃ b k y,
      ((mk ⟨"", 1, 0, ⟨.zero, .v1⟩, ⟨.zero, .simpleSwap⟩⟩ true).compile
        ⟨.zero, none, .addCollateralAndLeverage (some ⟨.native, BitVec.allOnes 256⟩) (some ⟨3, 4, none⟩)⟩ =
          .ok (.cook b)) ∧
      ((Call.cook b).value = BitVec.allOnes 256) ∧
      b.Holds k ⟨.bentoDeposit, [.address .zero, .address .zero, .uint (BitVec.allOnes 256), .uint 0]⟩ ∧
      Uint256.OnlyAt b.values k (BitVec.allOnes 256) ∧
      ((mk ⟨"", 1, 0, ⟨.zero, .v1⟩, ⟨.zero, .simpleSwap⟩⟩ true).compile
        ⟨.zero, none, .repayAndRemoveCollateral (some ⟨.zero, 5, none⟩) (some ⟨.native, 6, none⟩)⟩ = .ok y) ∧
      (y.value = 0) := by
  have ⟨b, hb⟩ : ∃ b, (mk ⟨"", 1, 0, ⟨.zero, .v1⟩, ⟨.zero, .simpleSwap⟩⟩ true).compile
      ⟨.zero, none, .addCollateralAndLeverage (some ⟨.native, BitVec.allOnes 256⟩) (some ⟨3, 4, none⟩)⟩ =
        .ok (.cook b) :=
    ⟨_, rfl⟩
  have ⟨y, hy⟩ : ∃ y, (mk ⟨"", 1, 0, ⟨.zero, .v1⟩, ⟨.zero, .simpleSwap⟩⟩ true).compile
      ⟨.zero, none, .repayAndRemoveCollateral (some ⟨.zero, 5, none⟩) (some ⟨.native, 6, none⟩)⟩ = .ok y :=
    ⟨_, rfl⟩
  obtain ⟨hv, _, k, ⟨⟩, hd, ho⟩ := compile_value hb |>.left _ List.mem_cons_self rfl
  have ⟨hz, _⟩ := compile_value hy |>.right fun a ha => by simp [Intent.parts, Operation.parts] at ha
  exact ⟨b, k, y, hb, hv, hd, ho, hy, hz⟩

end Compiler

end CauldronCalls
