import CauldronCalls.Proofs.Compiler.Refusal
import CauldronCalls.Proofs.Compiler.Value
import CauldronCalls.Proofs.Uint256.Literal
import CauldronCalls.Proofs.Wire.Deposit

/-!
Deposited amounts from the text of an intent to the call data. Whatever text stands for the amount, the main statement
is that it is deposited in full, or that the intent is refused because the text denotes nothing or too much.
-/

namespace CauldronCalls

open Outcome

-- The batch has one step that deposits, and it deposits this number of the asset. Native currency is forwarded there.
structure Batch.Deposits (b : Batch) (token : Asset) (sender : Address) (v : Nat) : Prop where
  step : ∃ (k : Nat) (n : Uint256), (n.toNat = v) ∧ (∀ m : Nat, b.actions[m]? = some 20 ↔ m = k) ∧
    b.Holds k ⟨.bentoDeposit, [.address token.slot, .address sender, .uint n, .uint 0]⟩ ∧
    (token = .native → b.values[k]? = some n)

-- The call is a batch, told from the call data, that makes the deposit.
structure Call.Deposits (x : Call) (token : Asset) (sender : Address) (v : Nat) : Prop where
  isDirect : x.isDirect = false
  value    : token = .native → x.value.toNat = v
  batch    : ∃ b, Batch.ofData? x.data = some b ∧ b.Deposits token sender v

section Deposit

variable {c : Compiler} {b : Batch} {x : Call} {sender : Address} {approval : Option MasterContractApproval}
  {d : AddCollateral}

theorem Intent.parts_deposit : (Intent.mk sender approval (.addCollateralAndBorrow (some d) none)).parts =
    (approval.map .approval).toList ++ [.add sender d] :=
  rfl

theorem Intent.add_mem_parts_deposit (sender : Address) (approval : Option MasterContractApproval) (d : AddCollateral) :
    .add sender d ∈ (Intent.mk sender approval (.addCollateralAndBorrow (some d) none)).parts :=
  List.mem_append_right _ <| List.mem_singleton_self _

namespace Compiler

theorem exists_compile_deposit (c : Compiler) :
    ∃ x, c.compile ⟨sender, approval, .addCollateralAndBorrow (some d) none⟩ = .ok x := by
  refine ok_iff_ne_error.mpr fun e he => ?_
  cases compile_error_iff.mp he <;> cases approval <;> simp_all [Intent.parts_deposit]

theorem deposits_batch (h : c.compile ⟨sender, approval, .addCollateralAndBorrow (some d) none⟩ = .ok (.cook b)) :
    b.Deposits d.token sender d.amount.toNat := by
  have hm := Intent.add_mem_parts_deposit sender approval d
  refine ⟨_, d.amount, rfl, ?place, holds_compile h <| Intent.invocations_of_add _ hm, ?value⟩
  case value => exact fun ht => forwards_deposit h hm ht |>.here
  case place =>
    intro m
    rw [actions_compile h, Intent.opcodes, Intent.parts_deposit]
    cases approval <;> rcases m with _ | _ | _ | _ <;> simp [Part.opcodes]

theorem deposits_compile (h : c.compile ⟨sender, approval, .addCollateralAndBorrow (some d) none⟩ = .ok x) :
    x.Deposits d.token sender d.amount.toNat := by
  cases x
  case borrow =>
    obtain ⟨_, _, hb⟩ := isDirect_compile h |>.mp rfl
    cases hb.operation
  case cook b =>
    refine ⟨rfl, fun ht => ?_, b, ofData?_compile h, deposits_batch h⟩
    rw [Call.value_eq <| forwards_deposit h (Intent.add_mem_parts_deposit ..) ht]

end Compiler

end Deposit

namespace Intent

variable {p : AmountPlace} {x : Json} {sender : Address} {approval : Option MasterContractApproval} {token : Asset}
  {a : Uint256} {s t : String}

theorem parse_amount_iff {i : Intent}
    (hi : wire.decode (p.put x) = .ok ⟨sender, approval, .addCollateralAndBorrow (some ⟨token, a⟩) none⟩)
    (ht : Json.Spells 127 (p.put (.string s)) t.toList) :
    wire.parse t = .ok i ↔ ∃ n : Uint256, Uint256.Denotes n.toNat s.toList ∧
      i = ⟨sender, approval, .addCollateralAndBorrow (some ⟨token, n⟩) none⟩ := by
  simp only [← Uint256.parse?_eq_some_iff]
  rw [parse_eq (Json.parse_of_spells ht), mapError_eq_ok]
  exact decode_amount_iff hi

-- The amount of an intent that only deposits may be any text. If that denotes a number of 256 bits, then the number
-- is deposited, and attached where it is native currency; every other text is refused.
theorem amount_survives
    (hi : wire.decode (p.put x) = .ok ⟨sender, approval, .addCollateralAndBorrow (some ⟨token, a⟩) none⟩)
    (ht : Json.Spells 127 (p.put (.string s)) t.toList) :
    ((∃ i, wire.parse t = .ok i) ↔ (∃ v, Uint256.Denotes v s.toList ∧ v < 2 ^ 256)) ∧
    (∀ v, Uint256.Denotes v s.toList → 2 ^ 256 ≤ v → ∀ i, wire.parse t ≠ .ok i) ∧
    (∀ v, Uint256.Denotes v s.toList → v < 2 ^ 256 → ∃ i, wire.parse t = .ok i ∧
      ∀ c : Compiler, ∃ y, c.compile i = .ok y ∧ y.Deposits token sender v) := by
  have fits : ∀ v, Uint256.Denotes v s.toList → v < 2 ^ 256 → ∃ n : Uint256,
      (n.toNat = v) ∧ wire.parse t = .ok ⟨sender, approval, .addCollateralAndBorrow (some ⟨token, n⟩) none⟩ := by
    intro v hv hl
    have hn : (BitVec.ofNatLT v hl).toNat = v := BitVec.toNat_ofNatLT ..
    exact ⟨_, hn, parse_amount_iff hi ht |>.mpr ⟨_, by rwa [hn], rfl⟩⟩
  refine ⟨⟨?small, ?parsed⟩, ?large, ?compiled⟩
  case small =>
    rintro ⟨i, h⟩
    obtain ⟨n, hn, _⟩ := parse_amount_iff hi ht |>.mp h
    exact ⟨_, hn, n.isLt⟩
  case parsed =>
    rintro ⟨v, hv, hl⟩
    obtain ⟨_, _, h⟩ := fits v hv hl
    exact ⟨_, h⟩
  case large =>
    intro v hv hl i h
    obtain ⟨n, hn, _⟩ := parse_amount_iff hi ht |>.mp h
    exact absurd (hn.unique hv ▸ n.isLt) (Nat.not_lt.mpr hl)
  case compiled =>
    intro v hv hl
    obtain ⟨n, rfl, h⟩ := fits v hv hl
    refine ⟨_, h, fun c => ?_⟩
    obtain ⟨y, hy⟩ := c.exists_compile_deposit
    exact ⟨y, hy, Compiler.deposits_compile hy⟩

-- Leading zeros, an underscore and an upper-case digit say thirty-one.
theorem amount_survives_native :
    let p : AmountPlace := {
      deposit := .entry [("from", .string "0x0000000000000000000000000000000000000000")]
        [("operation", .string "add_collateral_and_borrow"), ("note", .null)]
      amount := .item (.string "ETH") [] }
    let t := (p.put (.string "0x00_1F")).toText
    ∃ i, wire.parse t = .ok i ∧ ∀ c : Compiler, ∃ y, c.compile i = .ok y ∧ y.Deposits .native .zero 31 := by
  intro p t
  have hi : wire.decode (p.put (.string "5")) =
      .ok ⟨.zero, none, .addCollateralAndBorrow (some ⟨.native, 5⟩) none⟩ :=
    rfl
  have ht : Json.Spells 127 (p.put (.string "0x00_1F")) t.toList :=
    Json.spells_toText <| by
      simp [p, AmountPlace.put, DepositPlace.put, AddCollateral.Place.put, Json.Fits, Json.EntriesFit, Json.ItemsFit]
  have hv : Uint256.Denotes 31 "0x00_1F".toList :=
    .mk (.hexadecimal (by decide)) (.digit (v := 0) (by decide) (.digit (v := 0) (by decide) (.underscore
      (.digit (v := 1) (by decide) (.digit (v := 15) (by decide) .done))))) rfl
  exact amount_survives hi ht |>.right.right 31 hv (by decide)

end Intent

end CauldronCalls
