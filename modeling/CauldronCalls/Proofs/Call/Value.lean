import CauldronCalls.Proofs.Call.RoundTrip
import Mathlib.Algebra.BigOperators.Group.List.Basic
import Mathlib.Algebra.GroupWithZero.Nat

/-!
The native amount that a call attaches. Adding up the values of a batch stops at the largest amount; the main statement
is that this is the same as capping the true sum in the end. So the order of the actions does not matter, and no action
takes away from what the others forward.
-/

namespace CauldronCalls

namespace Uint256

theorem toNat_saturatingAdd (a b : Uint256) : (saturatingAdd a b).toNat = min (a.toNat + b.toNat) (2 ^ 256 - 1) := by
  rw [saturatingAdd, ofNat?]
  split
  case isTrue h =>
    rw [Option.getD_some, BitVec.toNat_ofNatLT]
    omega
  case isFalse h =>
    rw [Option.getD_none, BitVec.toNat_allOnes]
    omega

-- A sum that was capped once stays at the cap, so it does not matter when it was capped.
theorem toNat_foldl_saturatingAdd (a : Uint256) (vs : List Uint256) :
    (vs.foldl saturatingAdd a).toNat = min (a.toNat + (vs.map BitVec.toNat).sum) (2 ^ 256 - 1) := by
  induction vs generalizing a
  case nil =>
    have := a.isLt
    rw [List.foldl_nil, List.map_nil, List.sum_nil]
    omega
  case cons v vs hi =>
    rw [List.foldl_cons, hi, toNat_saturatingAdd, List.map_cons, List.sum_cons]
    omega

theorem sum_eq_zero {vs : List Uint256} (h : ∀ v ∈ vs, v = 0) : (vs.map BitVec.toNat).sum = 0 := by
  apply List.sum_eq_zero
  intro n hn
  obtain ⟨v, hv, rfl⟩ := List.mem_map.mp hn
  rw [h v hv]
  rfl

-- All values are zero but the one at the place `k`, which is `v`.
structure OnlyAt (vs : List Uint256) (k : Nat) (v : Uint256) : Prop where
  here      : vs[k]? = some v
  elsewhere : ∀ m u, m ≠ k → vs[m]? = some u → u = 0

theorem onlyAt_append {vs : List Uint256} {v : Uint256} (k : Nat) (h : ∀ u ∈ vs, u = 0) :
    OnlyAt (List.replicate k 0 ++ v :: vs) k v where
  here      := by simp
  elsewhere := by
    intro m u hm hu
    rw [List.getElem?_append, List.length_replicate] at hu
    split at hu
    case isTrue => exact List.eq_of_mem_replicate <| List.mem_of_getElem? hu
    case isFalse hk =>
      obtain ⟨j, hj⟩ : ∃ j, m - k = j + 1 := ⟨m - k - 1, by omega⟩
      rw [hj, List.getElem?_cons_succ] at hu
      exact h u <| List.mem_of_getElem? hu

theorem OnlyAt.sum_eq {vs : List Uint256} {k : Nat} {v : Uint256} (h : OnlyAt vs k v) :
    (vs.map BitVec.toNat).sum = v.toNat := by
  induction vs generalizing k
  case nil => exact nomatch h.here
  case cons u vs hi =>
    rw [List.map_cons, List.sum_cons]
    cases k
    case zero =>
      have hu : u = v := Option.some.inj h.here
      have hz : ∀ w ∈ vs, w = 0 := by
        intro w hw
        have ⟨m, hm⟩ := List.mem_iff_getElem?.mp hw
        exact h.elsewhere (m + 1) w (Nat.succ_ne_zero m) hm
      rw [hu, sum_eq_zero hz, Nat.add_zero]
    case succ k =>
      have hu : u = 0 := h.elsewhere 0 u (Nat.succ_ne_zero k).symm rfl
      have hk : OnlyAt vs k v := ⟨h.here, fun m w hm hw => h.elsewhere (m + 1) w (by omega) hw⟩
      rw [hi hk, hu]
      exact Nat.zero_add _

end Uint256

namespace Action

variable {a : Action} {as bs : List Action}

-- What the actions forward together, without a cap.
def total (as : List Action) : Nat :=
  (as.map fun a => a.value.toNat).sum

theorem total_append : total (as ++ bs) = total as + total bs := by
  rw [total, List.map_append, List.sum_append, ← total, ← total]

theorem total_perm (h : as.Perm bs) : total as = total bs :=
  h.map _ |>.sum_eq

theorem le_total_of_mem (h : a ∈ as) : a.value.toNat ≤ total as := by
  obtain ⟨before, after, rfl⟩ := List.append_of_mem h
  have ha : total (a :: after) = a.value.toNat + total after := List.sum_cons
  rw [total_append, ha]
  omega

theorem sum_values (as : List Action) : ((Batch.ofActions as).values.map BitVec.toNat).sum = total as := by
  rw [Batch.ofActions, List.map_map]
  rfl

end Action

namespace Call

variable {b : Batch}

theorem toNat_value_cook (b : Batch) :
    (cook b).value.toNat = min (b.values.map BitVec.toNat).sum (2 ^ 256 - 1) := by
  have hz : (0 : Uint256).toNat = 0 := rfl
  rw [value, Uint256.toNat_foldl_saturatingAdd, hz, Nat.zero_add]

theorem value_eq_zero (h : ∀ v ∈ b.values, v = 0) : (cook b).value = 0 := by
  apply BitVec.eq_of_toNat_eq
  rw [toNat_value_cook, Uint256.sum_eq_zero h]
  rfl

theorem value_eq {k : Nat} {v : Uint256} (h : Uint256.OnlyAt b.values k v) : (cook b).value = v := by
  apply BitVec.eq_of_toNat_eq
  have hv := v.isLt
  rw [toNat_value_cook, h.sum_eq]
  omega

theorem toNat_value_ofActions (as : List Action) :
    (cook (Batch.ofActions as)).value.toNat = min (Action.total as) (2 ^ 256 - 1) := by
  rw [toNat_value_cook, Action.sum_values]

-- The call made of some actions attaches what they forward together, or the largest amount if that is more.
theorem value_ofActions {as : List Action} (h : as ≠ []) :
    ∃ x, (ofActions as = .ok x) ∧ (x.value.toNat = min (Action.total as) (2 ^ 256 - 1)) ∧
      (∀ bs, as.Perm bs → ∃ y, (ofActions bs = .ok y) ∧ (y.value = x.value)) ∧
      (∀ a ∈ as, a.value ≤ x.value) ∧
      (∀ bs, ∃ y, (ofActions (as ++ bs) = .ok y) ∧ (x.value ≤ y.value) ∧
        (2 ^ 256 - 1 ≤ Action.total as → y.value = x.value)) := by
  have hx := toNat_value_ofActions as
  refine ⟨_, ofActions_eq_cook h, hx, ?perm, ?member, ?more⟩
  case perm =>
    intro bs hp
    have hb : bs ≠ [] := fun hb => h <| List.Perm.eq_nil (hb ▸ hp)
    refine ⟨_, ofActions_eq_cook hb, BitVec.eq_of_toNat_eq ?_⟩
    rw [hx, toNat_value_ofActions, Action.total_perm hp]
  case member =>
    intro a ha
    have hl := Action.le_total_of_mem ha
    have hm := a.value.isLt
    rw [BitVec.le_def, hx]
    omega
  case more =>
    intro bs
    have hy := toNat_value_ofActions (as ++ bs)
    rw [Action.total_append] at hy
    refine ⟨_, ofActions_eq_cook (List.append_ne_nil_of_left_ne_nil h bs), ?grows, ?full⟩
    case grows =>
      rw [BitVec.le_def, hx, hy]
      omega
    case full =>
      intro hf
      apply BitVec.eq_of_toNat_eq
      rw [hx, hy]
      omega

-- Two values exceed the largest amount, and a third one does not matter any more.
theorem value_ofActions_full :
    ∃ x, (ofActions [⟨20, BitVec.allOnes 256, []⟩, ⟨20, 1, []⟩] = .ok x) ∧ (x.value = BitVec.allOnes 256) ∧
      (∃ y, (ofActions [⟨20, 1, []⟩, ⟨20, BitVec.allOnes 256, []⟩] = .ok y) ∧ (y.value = x.value)) ∧
      (1 ≤ x.value) ∧
      (∃ y, (ofActions [⟨20, BitVec.allOnes 256, []⟩, ⟨20, 1, []⟩, ⟨30, 7, []⟩] = .ok y) ∧ (y.value = x.value)) := by
  let as : List Action := [⟨20, BitVec.allOnes 256, []⟩, ⟨20, 1, []⟩]
  have hn : as ≠ [] := by simp [as]
  have ht : Action.total as = 2 ^ 256 := by decide
  obtain ⟨x, hx, hv, hp, hl, hm⟩ := value_ofActions hn
  refine ⟨x, hx, BitVec.eq_of_toNat_eq ?value, hp _ (.swap ..), hl ⟨20, 1, []⟩ (by simp [as]), ?more⟩
  case value =>
    rw [hv, ht]
    decide
  case more =>
    obtain ⟨y, hy, _, hf⟩ := hm [⟨30, 7, []⟩]
    exact ⟨y, hy, hf (by rw [ht]; decide)⟩

end Call

end CauldronCalls
