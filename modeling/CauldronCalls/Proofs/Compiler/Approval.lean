import CauldronCalls.Proofs.Compiler.Value
import CauldronCalls.Proofs.Wire.Approval

/-!
Approvals from the text of an intent to the call data. Whatever else is asked for, a batch with an approval starts
with it; the main statement is that its six fields are there as they were written in the text.
-/

namespace CauldronCalls

open Outcome

-- The batch starts with the step that sets the approval. The data hold the six fields, and nothing is forwarded.
structure Batch.Opens (b : Batch) (a : MasterContractApproval) : Prop where
  opcode : b.actions[0]? = some 24
  value  : b.values[0]? = some 0
  args   : ∃ d, b.datas[0]? = some d ∧ ActionKind.bentoSetApproval.descriptor.argsOfData? d = some [
    .address a.user, .address a.masterContract, .bool a.approved,
    .uint (BitVec.ofNat 256 a.v.toNat), .word a.r, .word a.s]

-- The call is a batch, told from the call data, that starts with the approval.
structure Call.Opens (x : Call) (a : MasterContractApproval) : Prop where
  isDirect : x.isDirect = false
  batch    : ∃ b, Batch.ofData? x.data = some b ∧ b.Opens a

variable {c : Compiler} {i : Intent} {x : Call} {b : Batch} {a : MasterContractApproval} {p : Intent.Place} {s : String}

theorem Intent.invocations_of_approval (w : Address) (h : i.approval = some a) :
    (i.invocations w)[0]? = some ⟨.bentoSetApproval, [
      .address a.user, .address a.masterContract, .bool a.approved,
      .uint (BitVec.ofNat 256 a.v.toNat), .word a.r, .word a.s]⟩ := by
  rw [invocations, demands, parts, h]
  rfl

theorem Compiler.opens_batch (h : c.compile i = .ok (.cook b)) (ha : i.approval = some a) : b.Opens a where
  opcode := by
    rw [actions_compile h, Intent.opcodes, Intent.parts, ha]
    rfl
  value  := by
    rw [values_compile h, Intent.forwarded, Intent.parts, ha]
    rfl
  args   := holds_compile h (Intent.invocations_of_approval _ ha) |>.data

theorem Compiler.opens_compile (h : c.compile i = .ok x) (ha : i.approval = some a) : x.Opens a := by
  cases x
  case borrow =>
    have ⟨_, _, hb⟩ := isDirect_compile h |>.mp rfl
    cases ha.symm.trans hb.approval
  case cook b => exact ⟨rfl, b, ofData?_compile h, opens_batch h ha⟩

-- However the text of an intent is laid out, the approval in it is read and compiled for exactly what it is.
theorem Intent.approval_survives (hs : Json.parse s = .ok (p.put <| MasterContractApproval.record.wire.encode a))
    (hi : wire.decode (p.put .null) = .ok i) :
    wire.parse s = .ok { i with approval := some a } ∧
    ∀ c x, Compiler.compile c { i with approval := some a } = .ok x → x.Opens a := by
  have hf : MasterContractApproval.record.wire.optional.Faithful 127 := MasterContractApproval.faithful.optional nofun
  have hd := decode_put (hf.decode_encode <| some a) hi
  exact ⟨parse_eq hs |>.trans <| mapError_eq_ok.mpr hd, fun _ _ h => Compiler.opens_compile h rfl⟩

theorem Intent.approval_survives_borrow :
    ∃ s p x,
      (Json.parse s = .ok (Place.put p <|
        MasterContractApproval.record.wire.encode ⟨.zero, .zero, true, 28, .zero 32, .zero 32⟩)) ∧
      (wire.decode (p.put .null) = .ok ⟨.zero, none, .addCollateralAndBorrow none (some ⟨3, none⟩)⟩) ∧
      (wire.parse s = .ok
        ⟨.zero, some ⟨.zero, .zero, true, 28, .zero 32, .zero 32⟩, .addCollateralAndBorrow none (some ⟨3, none⟩)⟩) ∧
      (Compiler.compile ⟨⟨"", 1, 0, ⟨.zero, .v1⟩, ⟨.zero, .simpleSwap⟩⟩, true⟩
        ⟨.zero, some ⟨.zero, .zero, true, 28, .zero 32, .zero 32⟩, .addCollateralAndBorrow none (some ⟨3, none⟩)⟩ =
          .ok x) ∧
      x.Opens ⟨.zero, .zero, true, 28, .zero 32, .zero 32⟩ := by
  let p : Place := .entry
    [(tagField, .string "add_collateral_and_borrow"), ("from", Wire.address.encode .zero)]
    [("add", .null), ("borrow", Borrow.record.wire.encode ⟨3, none⟩)]
  have hs : Json.parse (p.put _).toText = _ := Json.parse_toText <| faithful.fits
    ⟨.zero, some ⟨.zero, .zero, true, 28, .zero 32, .zero 32⟩, .addCollateralAndBorrow none (some ⟨3, none⟩)⟩
  have hi : wire.decode (p.put .null) = _ :=
    decode_encode ⟨.zero, none, .addCollateralAndBorrow none (some ⟨3, none⟩)⟩
  have ⟨x, hx⟩ : ∃ x, Compiler.compile ⟨⟨"", 1, 0, ⟨.zero, .v1⟩, ⟨.zero, .simpleSwap⟩⟩, true⟩
      ⟨.zero, some ⟨.zero, .zero, true, 28, .zero 32, .zero 32⟩, .addCollateralAndBorrow none (some ⟨3, none⟩)⟩ =
        .ok x :=
    ⟨_, rfl⟩
  have ⟨hp, hc⟩ := approval_survives hs hi
  exact ⟨_, p, x, hs, hi, hp, hx, hc _ x hx⟩

end CauldronCalls
