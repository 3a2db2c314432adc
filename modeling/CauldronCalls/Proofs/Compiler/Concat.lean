import CauldronCalls.Proofs.Compiler.Groups

/-!
The parts of an intent compile independently of each other. Each part can be asked for in an intent of its own;
the main statement is that the batch of the whole intent is the batches of these intents, one after the other,
and that the whole intent fails just as the first of them that fails.
-/

namespace CauldronCalls

open Outcome

namespace Operation

-- The same operation without any part.
def bare : Operation → Operation
  | addCollateralAndBorrow _ _   => addCollateralAndBorrow none none
  | repayAndRemoveCollateral _ _ => repayAndRemoveCollateral none none
  | addCollateralAndLeverage _ _ => addCollateralAndLeverage none none

-- The same operation with one part only, for each of the parts.
def singles : Operation → List Operation
  | addCollateralAndBorrow add borrow     =>
    (add.map fun a => addCollateralAndBorrow (some a) none).toList ++
    (borrow.map fun b => addCollateralAndBorrow none (some b)).toList
  | repayAndRemoveCollateral repay remove =>
    (repay.map fun r => repayAndRemoveCollateral (some r) none).toList ++
    (remove.map fun r => repayAndRemoveCollateral none (some r)).toList
  | addCollateralAndLeverage add leverage =>
    (add.map fun a => addCollateralAndLeverage (some a) none).toList ++
    (leverage.map fun l => addCollateralAndLeverage none (some l)).toList

end Operation

namespace Intent

variable {i j : Intent}

-- The same sender asks for one part at a time, in the order in which the parts run.
def singles (i : Intent) : List Intent :=
  (i.approval.map fun a => ⟨i.sender, some a, i.operation.bare⟩).toList ++
  i.operation.singles.map fun o => ⟨i.sender, none, o⟩

theorem parts_singles (i : Intent) : i.singles.map parts = i.parts.map ([·]) := by
  rcases i with ⟨_, _ | _, _ | _ | _⟩ <;> cases ‹Option _› <;> cases ‹Option _› <;> rfl

theorem parts_ne_nil_of_mem_singles (h : j ∈ i.singles) : j.parts ≠ [] := by
  have hj : j.parts ∈ i.parts.map ([·]) := parts_singles i ▸ List.mem_map_of_mem h
  have ⟨p, _, hp⟩ := List.mem_map.mp hj
  rw [← hp]
  exact List.cons_ne_nil p []

end Intent

namespace Compiler

variable {c : Compiler} {i j : Intent}

theorem actions_eq_singles (c : Compiler) (i : Intent) :
    c.actions i = List.flatten <$> i.singles.mapM c.actions := by
  have ha : c.actions = (fun ps => List.flatten <$> ps.mapM c.group) ∘ Intent.parts :=
    funext c.actions_eq_flatten
  have hg : (fun ps => List.flatten <$> ps.mapM c.group) ∘ ([·]) = c.group := by
    funext p
    rw [Function.comp_apply, List.mapM_cons]
    cases c.group p
    case error => rfl
    case ok as => exact congrArg Except.ok <| List.append_nil as
  have hs : i.singles.mapM c.actions = i.parts.mapM c.group := by
    rw [ha, ← List.mapM_map, Intent.parts_singles, List.mapM_map, hg]
  rw [hs, actions_eq_flatten]

section Batches

variable {c : Cauldron}

theorem compile_batched (hp : i.parts ≠ []) :
    (mk c false).compile i = (.cook ∘ Batch.ofActions) <$> (mk c false).actions i :=
  compile_eq_map hp fun h => nomatch h

theorem compile_eq_singles (hp : i.parts ≠ []) :
    (mk c false).compile i = (.cook ∘ Batch.ofActions ∘ List.flatten) <$> i.singles.mapM (mk c false).actions := by
  rw [compile_batched hp, actions_eq_singles]
  cases i.singles.mapM (mk c false).actions <;> rfl

theorem mapM_compile_singles (c : Cauldron) (i : Intent) :
    i.singles.mapM (mk c false).compile =
      List.map (.cook ∘ Batch.ofActions) <$> i.singles.mapM (mk c false).actions :=
  mapM_eq_map fun _ hj => compile_batched <| Intent.parts_ne_nil_of_mem_singles hj

-- The parts of an intent compile as if each of them was the only one. The steps of the whole are the steps of
-- the parts, and the error is that of the first part that has one.
theorem compile_singles (c : Cauldron) {i : Intent} (h : i.isEmpty = false) :
    ((∃ x, (mk c false).compile i = .ok x) ↔ ∀ j ∈ i.singles, ∃ y, (mk c false).compile j = .ok y) ∧
    (∀ x, (mk c false).compile i = .ok x →
      ∃ bs, i.singles.Forall₂ (fun j b => (mk c false).compile j = .ok (.cook b)) bs ∧
        x = .cook (Batch.ofActions (bs.flatMap Batch.toActions))) ∧
    (∀ e, (mk c false).compile i = .error e ↔ FirstError (mk c false).compile i.singles e) := by
  have hp : i.parts ≠ [] := fun hp => by simp [Intent.isEmpty_iff.mpr hp] at h
  rw [compile_eq_singles hp]
  refine ⟨?ok, ?steps, ?error⟩
  case ok => rw [map_ok_iff, ← mapM_ok_iff, mapM_compile_singles, map_ok_iff]
  case steps =>
    intro x hx
    obtain ⟨ass, ha, rfl⟩ := map_eq_ok.mp hx
    refine ⟨ass.map Batch.ofActions, ?_, ?_⟩
    case refine_1 =>
      have hm := mapM_compile_singles c i
      rw [ha] at hm
      have hf := mapM_eq_ok hm
      rw [List.forall₂_map_right_iff] at hf ⊢
      exact hf
    case refine_2 =>
      rw [List.flatMap_map, List.flatMap_congr fun as _ => Batch.toActions_ofActions as, List.flatMap_id']
      rfl
  case error =>
    intro e
    rw [map_eq_error, ← mapM_eq_error_iff, mapM_compile_singles, map_eq_error]

theorem compile_singles_repay :
    ∃ x y z,
      ((mk ⟨"", 1, 0, ⟨.zero, .v1⟩, ⟨.zero, .swapper⟩⟩ false).compile
        ⟨.zero, none, .repayAndRemoveCollateral (some ⟨.zero, 1, none⟩) (some ⟨.native, 2, none⟩)⟩ = .ok x) ∧
      ((mk ⟨"", 1, 0, ⟨.zero, .v1⟩, ⟨.zero, .swapper⟩⟩ false).compile
        ⟨.zero, none, .repayAndRemoveCollateral (some ⟨.zero, 1, none⟩) none⟩ = .ok (.cook y)) ∧
      ((mk ⟨"", 1, 0, ⟨.zero, .v1⟩, ⟨.zero, .swapper⟩⟩ false).compile
        ⟨.zero, none, .repayAndRemoveCollateral none (some ⟨.native, 2, none⟩)⟩ = .ok (.cook z)) ∧
      (x = .cook (Batch.ofActions (y.toActions ++ z.toActions))) := by
  have ⟨x, hx⟩ : ∃ x, (mk ⟨"", 1, 0, ⟨.zero, .v1⟩, ⟨.zero, .swapper⟩⟩ false).compile
      ⟨.zero, none, .repayAndRemoveCollateral (some ⟨.zero, 1, none⟩) (some ⟨.native, 2, none⟩)⟩ = .ok x :=
    ⟨_, rfl⟩
  have ⟨bs, hs, hb⟩ := compile_singles _ rfl |>.right.left x hx
  obtain _ | ⟨hy, _ | ⟨hz, _ | _⟩⟩ := hs
  simp only [List.flatMap_cons, List.flatMap_nil, List.append_nil] at hb
  exact ⟨x, _, _, hx, hy, hz, hb⟩

end Batches
end Compiler

end CauldronCalls
