import CauldronCalls.Proofs.Builder
import CauldronCalls.Proofs.Compiler.Place

/-!
Batches as a whole. The invocations in a batch are those of the intent's parts, one part after the other. The main
statement says which intents become direct calls, which opcodes the batch of any other intent has, and that the
cauldron has an action for each of them.
-/

namespace CauldronCalls

open Outcome

-- The opcodes of the part's steps.
def Part.opcodes : Part → List UInt8
  | approval _   => [24]
  | add _ _      => [20, 10]
  | borrow _ _   => [5]
  | repay _ _    => [20, 7, 2]
  | remove _ _   => [4, 21]
  | leverage _ _ => [5, 30, 10]

theorem Part.opcodes_invocations (w : Address) (p : Part) :
    (p.demand.invocations w).map (·.kind.opcode) = p.opcodes := by
  cases p <;> rfl

theorem Operation.not_mem_opcodes (sender : Address) (o : Operation) :
    24 ∉ (o.parts sender).flatMap Part.opcodes := by
  rcases o with ⟨_ | _, _ | _⟩ | ⟨_ | _, _ | _⟩ | ⟨_ | _, _ | _⟩ <;> simp [parts, Part.opcodes]

namespace Intent

variable {i : Intent}

-- The opcodes of the parts that are present, in the order in which they run.
def opcodes (i : Intent) : List UInt8 :=
  i.parts.flatMap Part.opcodes

def invocations (w : Address) (i : Intent) : List Invocation :=
  i.demands.flatMap (Demand.invocations w)

theorem opcodes_invocations (w : Address) (i : Intent) : (i.invocations w).map (·.kind.opcode) = i.opcodes := by
  simp only [invocations, demands, opcodes, List.map_flatMap, List.flatMap_map, Part.opcodes_invocations]

-- Nothing but an approval has its opcode, and an approval comes first.
theorem eq_zero_of_approval {k : Nat} (h : i.opcodes[k]? = some 24) : k = 0 := by
  rw [opcodes, parts, List.flatMap_append] at h
  have hn := i.operation.not_mem_opcodes i.sender
  cases ha : i.approval <;> rw [ha] at h
  case none => exact absurd (List.mem_of_getElem? h) hn
  case some a =>
    cases k
    case zero   => rfl
    case succ k => exact absurd (List.mem_of_getElem? (i := k) h) hn

end Intent

namespace Batch

-- The batch of the intent `i` for a cauldron of the revision `v`: its opcodes are those of the intent's parts, in
-- order, and its other two lists are as long.
structure Shaped (b : Batch) (i : Intent) (v : Version) : Prop where
  actions    : b.actions = i.opcodes
  values     : b.values.length = i.opcodes.length
  datas      : b.datas.length = i.opcodes.length
  approval   : ∀ k : Nat, b.actions[k]? = some 24 → k = 0
  understood : ∀ o ∈ b.actions, v.Understands o

variable {as : List Action} {is : List Invocation} {k : Nat} {i : Invocation}

theorem holds_ofActions (h : as.Forall₂ Action.Realizes is) (hk : is[k]? = some i) : (ofActions as).Holds k i := by
  have ⟨a, ha, hr⟩ := getElem?_of_forall₂ h.flip hk
  have ⟨ho, hd⟩ := Action.invocation?_eq_some hr.invocation
  exact ⟨by simp [ofActions, ha, ho], a.data, by simp [ofActions, ha], hd⟩

theorem actions_ofActions (h : as.Forall₂ Action.Realizes is) : (ofActions as).actions = is.map (·.kind.opcode) := by
  rw [← List.forall₂_eq_eq_eq, ofActions, List.forall₂_map_left_iff, List.forall₂_map_right_iff]
  exact h.imp fun _ _ hr => Action.invocation?_eq_some hr.invocation |>.left

end Batch

namespace Compiler

variable {c : Compiler} {i : Intent} {x : Call} {b : Batch} {k : Nat}

theorem realizes_compile (h : c.compile i = .ok (.cook b)) :
    ∃ as, (b = Batch.ofActions as) ∧ as.Forall₂ Action.Realizes (i.invocations c.cauldron.leverageSwapper.address) :=
  carries_compile h

-- The invocations of an intent stand in its batch one after the other.
theorem holds_compile {inv : Invocation} (h : c.compile i = .ok (.cook b))
    (hk : (i.invocations c.cauldron.leverageSwapper.address)[k]? = some inv) : b.Holds k inv := by
  obtain ⟨as, rfl, hr⟩ := realizes_compile h
  exact Batch.holds_ofActions hr hk

-- A batch that was compiled can be told from the call data.
theorem ofData?_compile (h : c.compile i = .ok (.cook b)) : Batch.ofData? (Call.cook b).data = some b := by
  have hl : i.demands.length ≤ 3 := by
    rw [Intent.demands, List.length_map]
    exact i.length_parts_le
  exact Batch.ofData?_data <| carries_compile h |>.length_data_lt hl

theorem actions_compile (h : c.compile i = .ok (.cook b)) : b.actions = i.opcodes := by
  obtain ⟨as, rfl, hr⟩ := realizes_compile h
  rw [Batch.actions_ofActions hr, Intent.opcodes_invocations]

theorem understands_compile (h : c.compile i = .ok (.cook b)) : ∀ o ∈ b.actions, c.cauldron.version.Understands o := by
  intro o ho
  have ⟨k, hk, hb⟩ := List.getElem_of_mem ho
  obtain ⟨p, hp, ss, o, j, hh, hj, rfl⟩ := exists_hosts h hk
  have ⟨a, ha, hr, _⟩ := hh.runs j _ <| List.getElem?_eq_getElem hj
  have hs := Part.catalogued_steps hh.steps _ <| List.getElem_mem hj
  rw [List.getElem?_eq_getElem hk, hb] at hr
  cases hr
  exact Cauldron.understands_of_bound hs ha

theorem shaped_compile (h : c.compile i = .ok (.cook b)) : b.Shaped i c.cauldron.version where
  actions    := actions_compile h
  values     := by
    obtain ⟨as, _, rfl⟩ := actions_of_compile h
    simp [← actions_compile h, Batch.ofActions]
  datas      := by
    obtain ⟨as, _, rfl⟩ := actions_of_compile h
    simp [← actions_compile h, Batch.ofActions]
  approval _ := by
    rw [actions_compile h]
    exact Intent.eq_zero_of_approval
  understood := understands_compile h

-- An intent becomes a direct call just if borrowing is all it asks for and direct borrowing is allowed.
theorem isDirect_compile (h : c.compile i = .ok x) :
    (x.isDirect = true) ↔ (c.directBorrow = true) ∧ (∃ b, i.OnlyBorrows b) := by
  obtain ⟨_, hc⟩ | ⟨b, hb, hd, hc⟩ | ⟨_, hd, hc⟩ := c.compile_cases i <;> rw [hc] at h
  case inl => contradiction
  case inr.inl =>
    cases h
    exact iff_of_true rfl ⟨hd, b, hb⟩
  case inr.inr =>
    obtain ⟨as, _, rfl⟩ := map_eq_ok.mp h
    exact iff_of_false (fun h => nomatch h) fun ⟨ht, b, hb⟩ => hd ht b hb

-- Every other intent that compiles becomes a batch, and its parts alone decide which opcodes the batch has.
theorem compile_shape (h : c.compile i = .ok x) :
    ((x.isDirect = true) ↔ (c.directBorrow = true) ∧ (∃ b, i.OnlyBorrows b)) ∧
    (x.isDirect = false →
      ∃ b, (x = .cook b) ∧ b.Shaped i c.cauldron.version ∧ (x.actionCount = i.opcodes.length)) := by
  refine ⟨isDirect_compile h, ?batch⟩
  case batch =>
    intro hx
    cases x
    case borrow => contradiction
    case cook b => exact ⟨b, rfl, shaped_compile h, congrArg List.length <| actions_compile h⟩

theorem compile_shape_leverage :
    ∃ b,
      ((mk ⟨"", 1, 0, ⟨.zero, .v1⟩, ⟨.zero, .simpleSwap⟩⟩ true).compile
        ⟨.zero, some ⟨.zero, .zero, true, 27, .zero 32, .zero 32⟩,
          .addCollateralAndLeverage (some ⟨.native, 2⟩) (some ⟨3, 4, none⟩)⟩ = .ok (.cook b)) ∧
      (b.actions = [24, 20, 10, 5, 30, 10]) ∧ (b.values.length = 6) ∧ (b.datas.length = 6) ∧
      ((Call.cook b).actionCount = 6) ∧ (∀ o ∈ b.actions, Version.v1.Understands o) := by
  have ⟨b, hc⟩ : ∃ b, (mk ⟨"", 1, 0, ⟨.zero, .v1⟩, ⟨.zero, .simpleSwap⟩⟩ true).compile
      ⟨.zero, some ⟨.zero, .zero, true, 27, .zero 32, .zero 32⟩,
        .addCollateralAndLeverage (some ⟨.native, 2⟩) (some ⟨3, 4, none⟩)⟩ = .ok (.cook b) :=
    ⟨_, rfl⟩
  obtain ⟨_, hb, hs, hn⟩ := compile_shape hc |>.right rfl
  cases hb
  exact ⟨b, hc, hs.actions, hs.values, hs.datas, hn, hs.understood⟩

end Compiler

end CauldronCalls
