import CauldronCalls.Proofs.Call.Length
import CauldronCalls.Proofs.Compiler.Actions

/-!
What the direct-borrow setting of a compiler decides. An intent that asks for more than borrowing compiles in
the same way under both settings. One that only borrows becomes a direct call or a batch of one action with the
same effect, but the batch is refused where the amount does not fit a signed slot.
-/

namespace CauldronCalls

open Outcome

-- The action that borrows a literal amount.
def Action.borrow (n : Uint256) (recipient : Address) : Action :=
  ⟨5, 0, Abi.sequence [.word n.toWord, .word recipient.toWord]⟩

namespace Descriptor

variable {n : Uint256} {recipient : Address}

theorem bind_borrow (h : n.toNat < 2 ^ 255) :
    ActionKind.borrow.descriptor.bind 0 [.amount (.literal n), .address recipient] =
      .ok (.borrow n recipient) := by
  simp only [ActionKind.descriptor, ActionKind.params, bind, Param.fitAll, Param.fit,
    Amount.toSigned?_literal_of_lt h]
  rfl

theorem bind_borrow_oversized (h : 2 ^ 255 ≤ n.toNat) :
    ActionKind.borrow.descriptor.bind 0 [.amount (.literal n), .address recipient] =
      .error (.argumentMismatch .borrow (.oversizedLiteral "amount")) := by
  simp only [ActionKind.descriptor, ActionKind.params, bind, Param.fitAll, Param.fit,
    Amount.toSigned?_literal_of_ge h]
  rfl

theorem argsOfData?_borrow (h : n.toNat < 2 ^ 255) :
    ActionKind.borrow.descriptor.argsOfData? (Action.borrow n recipient).data =
      some [.amount (.literal n), .address recipient] := by
  have hb : _ = Except.ok (Action.borrow n recipient) := bind_borrow h
  have hl := length_data_le hb
  simp only [Argument.rooms, Argument.room] at hl
  exact argsOfData?_bind hb (by omega)

end Descriptor

namespace Intent

-- Borrowing is all that the intent asks for.
structure OnlyBorrows (i : Intent) (b : Borrow) : Prop where
  approval  : i.approval = none
  operation : i.operation = .addCollateralAndBorrow none (some b)

-- Borrowing is all that the intent asks for, and it asks for more than a signed slot holds.
def Overdraws (i : Intent) : Prop :=
  ∃ b, i.OnlyBorrows b ∧ 2 ^ 255 ≤ b.amount.toNat

variable {i : Intent} {b : Borrow}

theorem borrowOnly?_eq_some_iff : i.borrowOnly? = some b ↔ i.OnlyBorrows b := by
  constructor
  case mp =>
    intro h
    rw [borrowOnly?] at h
    split at h <;> cases h
    exact ⟨‹_›, ‹_›⟩
  case mpr =>
    intro ⟨ha, ho⟩
    rw [borrowOnly?, ha, ho]

theorem borrowOnly?_eq_none_iff : i.borrowOnly? = none ↔ ∀ b, ¬i.OnlyBorrows b := by
  simp only [← borrowOnly?_eq_some_iff, Option.eq_none_iff_forall_ne_some]

namespace OnlyBorrows

theorem isEmpty_eq_false (h : i.OnlyBorrows b) : i.isEmpty = false := by
  rw [isEmpty, h.operation]
  exact Bool.and_false _

theorem groups_eq (h : i.OnlyBorrows b) (w : Swapper) : i.groups w = [.ok (b.steps i.sender)] := by
  rw [Intent.groups, h.approval, h.operation]
  rfl

end OnlyBorrows

end Intent

namespace Compiler

variable {c : Cauldron} {i : Intent} {b : Borrow}

theorem compile_of_not_onlyBorrows (h : ∀ b, ¬i.OnlyBorrows b) :
    (mk c true).compile i = (mk c false).compile i := by
  have hn := Intent.borrowOnly?_eq_none_iff.mpr h
  simp only [compile, hn]
  rfl

theorem compile_direct (h : i.OnlyBorrows b) :
    (mk c true).compile i = .ok (.borrow (b.recipient.getD i.sender) b.amount) := by
  simp only [compile, h.isEmpty_eq_false, Intent.borrowOnly?_eq_some_iff.mpr h]
  rfl

theorem compile_forced (h : i.OnlyBorrows b) :
    (mk c false).compile i = (do
      let a ← ActionKind.borrow.descriptor.bind 0
        [.amount (.literal b.amount), .address (b.recipient.getD i.sender)]
      pure (.cook (Batch.ofActions [a]))) := by
  have hb : (mk c false).compile i = (mk c false).batch i := by
    simp only [compile, h.isEmpty_eq_false, Intent.borrowOnly?_eq_some_iff.mpr h]
    rfl
  rw [hb, batch_eq, actions, h.groups_eq, Borrow.steps, Cauldron.actions_singleton, Cauldron.bound_eq_bind]
  case h => rfl
  simp only [ActionKind.step]
  cases ActionKind.borrow.descriptor.bind _ _ <;> rfl

theorem compile_forced_ok (h : i.OnlyBorrows b) (hb : b.amount.toNat < 2 ^ 255) :
    (mk c false).compile i =
      .ok (.cook (Batch.ofActions [.borrow b.amount (b.recipient.getD i.sender)])) := by
  rw [compile_forced h, Descriptor.bind_borrow hb]
  rfl

theorem compile_forced_oversized (h : i.OnlyBorrows b) (hb : 2 ^ 255 ≤ b.amount.toNat) :
    (mk c false).compile i = .error (.argumentMismatch .borrow (.oversizedLiteral "amount")) := by
  rw [compile_forced h, Descriptor.bind_borrow_oversized hb]
  rfl

theorem same_of_not_overdraws (h : ¬i.Overdraws) : Same ((mk c true).compile i) ((mk c false).compile i) := by
  by_cases hb : ∃ b, i.OnlyBorrows b
  case pos =>
    have ⟨b, hb⟩ := hb
    have hn : b.amount.toNat < 2 ^ 255 := Nat.lt_of_not_le fun hn => h ⟨b, hb, hn⟩
    rw [compile_direct hb, compile_forced_ok hb hn]
    exact same_ok _ _
  case neg =>
    rw [compile_of_not_onlyBorrows (not_exists.mp hb)]
    exact same_refl _

-- The setting decides whether an intent compiles in one case only. A direct call takes every amount, but an
-- action takes a literal amount only if its signed slot does.
theorem same_iff_not_overdraws (c : Cauldron) (i : Intent) :
    (Same ((mk c true).compile i) ((mk c false).compile i) ↔ ¬i.Overdraws) ∧
    (i.Overdraws →
      (∃ recipient amount, (mk c true).compile i = .ok (.borrow recipient amount)) ∧
      ((mk c false).compile i = .error (.argumentMismatch .borrow (.oversizedLiteral "amount")))) := by
  refine ⟨⟨?mp, same_of_not_overdraws⟩, ?overdraws⟩
  case mp =>
    intro hs ⟨b, hb, hn⟩
    rw [compile_direct hb, compile_forced_oversized hb hn] at hs
    exact not_same_ok_error _ _ hs
  case overdraws =>
    intro ⟨b, hb, hn⟩
    exact ⟨⟨_, _, compile_direct hb⟩, compile_forced_oversized hb hn⟩

theorem same_iff_not_overdraws_half_range :
    (Intent.mk .zero none (.addCollateralAndBorrow none (some ⟨BitVec.ofNat 256 (2 ^ 255), none⟩))).Overdraws ∧
    ((mk ⟨"", 1, 0, ⟨.zero, .v1⟩, ⟨.zero, .simpleSwap⟩⟩ false).compile
      ⟨.zero, none, .addCollateralAndBorrow none (some ⟨BitVec.ofNat 256 (2 ^ 255), none⟩)⟩ =
        .error (.argumentMismatch .borrow (.oversizedLiteral "amount"))) := by
  have ho : (Intent.mk .zero none
      (.addCollateralAndBorrow none (some ⟨BitVec.ofNat 256 (2 ^ 255), none⟩))).Overdraws :=
    ⟨_, ⟨rfl, rfl⟩, by decide⟩
  exact ⟨ho, (same_iff_not_overdraws _ _).right ho |>.right⟩

theorem not_same_half_range :
    ¬Same
      ((mk ⟨"", 1, 0, ⟨.zero, .v1⟩, ⟨.zero, .simpleSwap⟩⟩ true).compile
        ⟨.zero, none, .addCollateralAndBorrow none (some ⟨BitVec.ofNat 256 (2 ^ 255), none⟩)⟩)
      ((mk ⟨"", 1, 0, ⟨.zero, .v1⟩, ⟨.zero, .simpleSwap⟩⟩ false).compile
        ⟨.zero, none, .addCollateralAndBorrow none (some ⟨BitVec.ofNat 256 (2 ^ 255), none⟩)⟩) := by
  rw [compile_direct ⟨rfl, rfl⟩, compile_forced_oversized ⟨rfl, rfl⟩ (by decide)]
  exact not_same_ok_error _ _

-- Where both settings compile an intent, they ask for the same: the call is the same, or the batch borrows
-- what the direct call borrows and for the same recipient, and neither attaches anything.
theorem compile_same_effect (c : Cauldron) (i : Intent) :
    ((∀ b, ¬i.OnlyBorrows b) → (mk c true).compile i = (mk c false).compile i) ∧
    (∀ b call, i.OnlyBorrows b → (mk c false).compile i = .ok call →
      ∃ recipient amount data,
        ((mk c true).compile i = .ok (.borrow recipient amount)) ∧
        (call = .cook ⟨[5], [0], [data]⟩) ∧
        (ActionKind.borrow.descriptor.argsOfData? data =
          some [.amount (.literal amount), .address recipient]) ∧
        (recipient = b.recipient.getD i.sender) ∧ (amount = b.amount) ∧
        (call.value = 0) ∧ ((Call.borrow recipient amount).value = 0)) := by
  refine ⟨compile_of_not_onlyBorrows, ?_⟩
  intro b call hb hc
  have hn : b.amount.toNat < 2 ^ 255 := by
    apply Nat.lt_of_not_le
    intro hn
    rw [compile_forced_oversized hb hn] at hc
    contradiction
  rw [compile_forced_ok hb hn] at hc
  cases hc
  exact ⟨_, _, _, compile_direct hb, rfl, Descriptor.argsOfData?_borrow hn, rfl, rfl, rfl, rfl⟩

theorem compile_same_effect_one :
    ((mk ⟨"", 1, 0, ⟨.zero, .v1⟩, ⟨.zero, .simpleSwap⟩⟩ true).compile
        ⟨.zero, none, .repayAndRemoveCollateral (some ⟨.zero, 1, none⟩) none⟩ =
      (mk ⟨"", 1, 0, ⟨.zero, .v1⟩, ⟨.zero, .simpleSwap⟩⟩ false).compile
        ⟨.zero, none, .repayAndRemoveCollateral (some ⟨.zero, 1, none⟩) none⟩) ∧
    (∃ call recipient amount data,
      ((mk ⟨"", 1, 0, ⟨.zero, .v1⟩, ⟨.zero, .simpleSwap⟩⟩ true).compile
        ⟨.zero, none, .addCollateralAndBorrow none (some ⟨1, none⟩)⟩ = .ok (.borrow recipient amount)) ∧
      ((mk ⟨"", 1, 0, ⟨.zero, .v1⟩, ⟨.zero, .simpleSwap⟩⟩ false).compile
        ⟨.zero, none, .addCollateralAndBorrow none (some ⟨1, none⟩)⟩ = .ok call) ∧
      (call = .cook ⟨[5], [0], [data]⟩) ∧
      (ActionKind.borrow.descriptor.argsOfData? data = some [.amount (.literal amount), .address recipient]) ∧
      (recipient = .zero) ∧ (amount = 1)) := by
  constructor
  case left => exact compile_same_effect _ _ |>.left fun _ h => nomatch h.operation
  case right =>
    have hb : Intent.OnlyBorrows ⟨.zero, none, .addCollateralAndBorrow none (some ⟨1, none⟩)⟩ ⟨1, none⟩ :=
      ⟨rfl, rfl⟩
    have hf := compile_forced_ok (c := ⟨"", 1, 0, ⟨.zero, .v1⟩, ⟨.zero, .simpleSwap⟩⟩) hb (by decide)
    have ⟨recipient, amount, data, ht, hc, hd, hr, ha, _⟩ := compile_same_effect _ _ |>.right _ _ hb hf
    exact ⟨_, recipient, amount, data, ht, hf, hc, hd, hr, ha⟩

end Compiler

end CauldronCalls
