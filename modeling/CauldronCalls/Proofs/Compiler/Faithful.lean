import CauldronCalls.Proofs.Call.RoundTrip
import CauldronCalls.Proofs.Compiler.DirectBorrow
import CauldronCalls.Proofs.Intent.Part

/-!
What compiled call data says about the intent behind it. Every compiled call carries the demands of its intent:
they can be told from the call alone. The main statement is that intents with equal call data make the same
demands, so the same parts are present in them, with equal fields once nothing depends on defaults.
-/

namespace CauldronCalls

open Outcome

-- The action reads back as the invocation. The bound on the data, which the invocations of all demands keep,
-- is there to keep call data shorter than a word can count.
structure Action.Realizes (a : Action) (i : Invocation) : Prop where
  invocation : a.invocation? = some i
  small      : a.data.length ≤ 512

theorem Action.realizes_rightUnique : Relator.RightUnique Action.Realizes := by
  intro a i j hi hj
  exact Option.some.inj <| hi.invocation.symm.trans hj.invocation

namespace Part

variable {c : Cauldron} {w : Swapper} {p : Part} {ps : List Part} {ss : List Step} {as : List Action}

theorem realizes_bound {s : Step} {a : Action}
    (h : p.steps w = .ok ss) (hs : s ∈ ss) (ha : c.bound s = .ok a) : a.Realizes s.invocation := by
  have hi : s.invocation ∈ p.demand.invocations w.address := by
    rw [← invocation_steps h]
    exact List.mem_map_of_mem hs
  have hl := calc a.data.length
    _ ≤ Argument.rooms s.args := Descriptor.length_data_le <| Cauldron.bind_of_bound ha
    _ ≤ 512                   := Demand.rooms_invocations_le hi
  refine ⟨?_, hl⟩
  exact Step.invocation?_bound (catalogued_steps h s hs) ha <| Nat.lt_of_le_of_lt hl (by decide)

theorem realizes_steps (h : p.steps w = .ok ss) (ha : ss.mapM c.bound = .ok as) :
    as.Forall₂ Action.Realizes (p.demand.invocations w.address) := by
  rw [← invocation_steps h, List.forall₂_map_right_iff]
  have hs := List.forall₂_and_left _ _ |>.mpr ⟨fun _ hs => hs, mapM_eq_ok ha⟩
  exact hs.imp (fun _ _ ⟨hs, ha⟩ => realizes_bound h hs ha) |>.flip

theorem realizes_actions (h : c.actions (ps.map (steps w)) = .ok as) :
    as.Forall₂ Action.Realizes ((ps.map demand).flatMap (Demand.invocations w.address)) := by
  induction ps generalizing as
  case nil =>
    cases h
    exact .nil
  case cons p ps hi =>
    simp only [List.map_cons, Cauldron.actions, bind_eq_ok, pure_eq_ok] at h
    obtain ⟨ss, hs, as, has, bs, hbs, rfl⟩ := h
    exact List.rel_append (realizes_steps hs has) (hi hbs)

end Part

namespace Call

-- The call asks a cauldron with the swapper `w` for what is demanded.
def Carries (w : Address) (ds : List Demand) : Call → Prop
  | borrow recipient amount => ds = [.borrow amount recipient]
  | cook b                  =>
    ∃ as, (b = Batch.ofActions as) ∧ as.Forall₂ Action.Realizes (ds.flatMap (Demand.invocations w))

namespace Carries

variable {w : Address} {x : Call} {ds es : List Demand}

theorem inj (hd : x.Carries w ds) (he : x.Carries w es) : ds = es := by
  cases x
  case borrow => exact hd.trans he.symm
  case cook =>
    obtain ⟨as, rfl, hd⟩ := hd
    have ⟨bs, hb, he⟩ := he
    cases Batch.ofActions_inj hb
    have hi := Action.realizes_rightUnique.forall₂ hd he
    exact Demand.flatMap_invocations_inj hi

theorem length_data_lt (h : x.Carries w ds) (hd : ds.length ≤ 3) : x.data.length < 2 ^ 256 := by
  cases x
  case borrow => simp [data, Selector.borrow, Abi.length_sequence, Abi.tails, Abi.Item.tail]
  case cook =>
    obtain ⟨as, rfl, h⟩ := h
    have hl := Demand.length_flatMap_invocations_le (w := w) ds
    have hs := List.forall₂_and_left _ _ |>.mp <| h.imp fun _ _ h => ⟨h.small, h⟩
    rw [← h.length_eq] at hl
    calc (cook (Batch.ofActions as)).data.length
      _ ≤ 196 + as.length * (159 + 512) := Batch.length_data_le hs.left
      _ < 2 ^ 256                       := by omega

end Carries

end Call

namespace Intent.OnlyBorrows

theorem demands_eq {i : Intent} {b : Borrow} (h : i.OnlyBorrows b) :
    i.demands = [.borrow b.amount (b.recipient.getD i.sender)] := by
  rw [demands, parts, h.approval, h.operation]
  rfl

end Intent.OnlyBorrows

namespace Compiler

variable {c : Compiler} {i j : Intent} {x y : Call}

theorem carries_batch (h : c.batch i = .ok x) : x.Carries c.cauldron.leverageSwapper.address i.demands := by
  rw [batch_eq, bind_eq_ok] at h
  have ⟨as, ha, h⟩ := h
  rw [actions, Intent.groups_eq] at ha
  have hs := Part.realizes_actions ha
  cases as
  case nil => contradiction
  case cons =>
    cases Call.ofActions_eq_cook (List.cons_ne_nil _ _) |>.symm.trans h
    exact ⟨_, rfl, hs⟩

theorem carries_compile (h : c.compile i = .ok x) :
    x.Carries c.cauldron.leverageSwapper.address i.demands := by
  rw [compile] at h
  split at h
  case isTrue => contradiction
  case isFalse =>
    split at h
    case h_1 b hb _ =>
      cases h
      exact Intent.borrowOnly?_eq_some_iff.mp hb |>.demands_eq
    case h_2 => exact carries_batch h

theorem demands_eq_of_data_eq (hi : c.compile i = .ok x) (hj : c.compile j = .ok y) (h : x.data = y.data) :
    i.demands = j.demands := by
  have hx := carries_compile hi
  have hy := carries_compile hj
  have hl : i.demands.length ≤ 3 := by
    rw [Intent.demands, List.length_map]
    exact i.length_parts_le
  cases Call.data_inj (hx.length_data_lt hl) h
  exact hx.inj hy

theorem demands_eq_of_data_eq_leverage :
    ∃ x y,
      ((mk ⟨"", 1, 0, ⟨.zero, .v1⟩, ⟨.zero, .simpleSwap⟩⟩ true).compile
        ⟨.zero, none, .addCollateralAndLeverage (some ⟨.native, 2⟩) (some ⟨3, 4, none⟩)⟩ = .ok x) ∧
      ((mk ⟨"", 1, 0, ⟨.zero, .v1⟩, ⟨.zero, .simpleSwap⟩⟩ true).compile
        ⟨.zero, none, .addCollateralAndLeverage (some ⟨.native, 2⟩) (some ⟨3, 4, some .zero⟩)⟩ = .ok y) ∧
      (x.data = y.data) ∧
      (Intent.demands
          ⟨.zero, none, .addCollateralAndLeverage (some ⟨.native, 2⟩) (some ⟨3, 4, none⟩)⟩ =
        Intent.demands
          ⟨.zero, none, .addCollateralAndLeverage (some ⟨.native, 2⟩) (some ⟨3, 4, some .zero⟩)⟩) := by
  have ⟨x, hx⟩ : ∃ x, (mk ⟨"", 1, 0, ⟨.zero, .v1⟩, ⟨.zero, .simpleSwap⟩⟩ true).compile
      ⟨.zero, none, .addCollateralAndLeverage (some ⟨.native, 2⟩) (some ⟨3, 4, none⟩)⟩ = .ok x :=
    ⟨_, rfl⟩
  have hy : (mk ⟨"", 1, 0, ⟨.zero, .v1⟩, ⟨.zero, .simpleSwap⟩⟩ true).compile
      ⟨.zero, none, .addCollateralAndLeverage (some ⟨.native, 2⟩) (some ⟨3, 4, some .zero⟩)⟩ = .ok x :=
    hx
  exact ⟨x, x, hx, hy, rfl, demands_eq_of_data_eq hx hy rfl⟩

end Compiler

end CauldronCalls
