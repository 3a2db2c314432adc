import CauldronCalls.Proofs.Compiler.Refusal

/-!
What a compiler looks at in its cauldron. All actions of an intent are as old as the first revision, so that no part
asks for more than the leverage swapper, and only a leverage asks for that. The main statement compares compilers for
two cauldrons.
-/

namespace CauldronCalls

open Outcome

theorem Part.group_congr {p : Part} {w : Swapper} (c c' : Cauldron) : c.group (p.steps w) = c'.group (p.steps w) := by
  cases hs : p.steps w
  case error => rfl
  case ok ss =>
    have hb : ∀ s ∈ ss, c.bound s = id <$> c'.bound s := by
      intro s hm
      have hv := minVersion_steps hs s hm
      rw [c.bound_eq_bind hv, c'.bound_eq_bind hv, id_map]
    have h := mapM_eq_map hb
    rwa [List.map_id_fun, id_map] at h

theorem Part.steps_congr {p : Part} (h : ∀ s l, p ≠ .leverage s l) (w w' : Swapper) : p.steps w = p.steps w' := by
  cases p
  case leverage => exact absurd rfl (h _ _)
  all_goals rfl

theorem Intent.ne_leverage_of_mem_parts {i : Intent} {p : Part}
    (h : ∀ add l, i.operation ≠ .addCollateralAndLeverage add (some l)) (hp : p ∈ i.parts) :
    ∀ s l, p ≠ .leverage s l := by
  rintro s l rfl
  obtain ⟨_, _, _ | _ | ⟨add, _ | l'⟩⟩ := i
  case addCollateralAndLeverage.some => exact h add l' rfl
  all_goals simp [parts, Operation.parts] at hp

namespace Compiler

variable {c c' : Cauldron} {direct : Bool} {i : Intent}

theorem compile_congr (h : ∀ p ∈ i.parts, p.steps c.leverageSwapper = p.steps c'.leverageSwapper) :
    (mk c direct).compile i = (mk c' direct).compile i := by
  have hg : ∀ p ∈ i.parts, (mk c direct).group p = id <$> (mk c' direct).group p := by
    intro p hp
    rw [group, group, h p hp, Part.group_congr c c', id_map]
  have ha : (mk c direct).actions i = (mk c' direct).actions i := by
    rw [actions_eq_flatten, actions_eq_flatten, mapM_eq_map hg, List.map_id_fun, id_map]
  rw [compile, compile, batch_eq, batch_eq, ha]

-- Cauldrons with the same swapper get the same calls and the same errors, and without a leverage all cauldrons do.
theorem compile_same_swapper (c c' : Cauldron) (direct : Bool) (i : Intent) :
    (c.leverageSwapper = c'.leverageSwapper → (mk c direct).compile i = (mk c' direct).compile i) ∧
    ((∀ add l, i.operation ≠ .addCollateralAndLeverage add (some l)) →
      (mk c direct).compile i = (mk c' direct).compile i) := by
  constructor
  case left  => exact fun h => compile_congr fun _ _ => h ▸ rfl
  case right => exact fun h => compile_congr fun _ hp => Part.steps_congr (i.ne_leverage_of_mem_parts h hp) _ _

-- A leverage by way of one swapper on cauldrons that share nothing else, and a forced borrowing on cauldrons that share
-- nothing at all.
theorem compile_same_swapper_revisions :
    ((mk ⟨"A", 1, 0, ⟨.zero, .v1⟩, ⟨.zero, .simpleSwap⟩⟩ true).compile
        ⟨.zero, none, .addCollateralAndLeverage (some ⟨.native, 5⟩) (some ⟨3, 4, none⟩)⟩ =
      (mk ⟨"B", 2, 7, ⟨.ofNat 20 9, .v4⟩, ⟨.zero, .simpleSwap⟩⟩ true).compile
        ⟨.zero, none, .addCollateralAndLeverage (some ⟨.native, 5⟩) (some ⟨3, 4, none⟩)⟩) ∧
    ((mk ⟨"A", 1, 0, ⟨.zero, .v1⟩, ⟨.zero, .swapper⟩⟩ false).compile
        ⟨.zero, none, .addCollateralAndBorrow none (some ⟨3, none⟩)⟩ =
      (mk ⟨"B", 2, 7, ⟨.ofNat 20 9, .v4⟩, ⟨.ofNat 20 8, .simpleSwap⟩⟩ false).compile
        ⟨.zero, none, .addCollateralAndBorrow none (some ⟨3, none⟩)⟩) :=
  ⟨compile_same_swapper _ _ _ _ |>.left rfl, compile_same_swapper _ _ _ _ |>.right nofun⟩

end Compiler

end CauldronCalls
