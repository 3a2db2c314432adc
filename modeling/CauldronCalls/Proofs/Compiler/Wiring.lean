import CauldronCalls.Proofs.Compiler.Place

/-!
How the steps of a batch get their inputs from each other. A signed slot holds a literal amount, or a sentinel that
stands for an output of the step before. The main statement says which steps hold a sentinel, and that the step
before each of them is the one that puts out what is meant.
-/

namespace CauldronCalls

def Argument.signedWord? : Argument → Option (BitVec 256)
  | amount a => some a.word
  | _        => none

-- The words in the signed slots of an invocation's data.
def Invocation.signedWords (i : Invocation) : List (BitVec 256) :=
  i.args.filterMap Argument.signedWord?

-- The word stands for an output of an earlier step.
def IsSentinel (v : BitVec 256) : Prop :=
  v.toNat = 2 ^ 256 - 1 ∨ v.toNat = 2 ^ 256 - 2

theorem isSentinel_sentinel (s : OutputSlot) : IsSentinel s.sentinel := by
  cases s
  case one => exact .inl <| OutputSlot.toNat_sentinel _
  case two => exact .inr <| OutputSlot.toNat_sentinel _

theorem not_isSentinel {v : BitVec 256} (h : v.toNat < 2 ^ 255) : ¬IsSentinel v := by
  intro hs
  rw [IsSentinel] at hs
  omega

theorem Argument.lt_of_fits {n : Uint256} {t : ParamType} (h : (amount (.literal n)).Fits t) : n.toNat < 2 ^ 255 := by
  cases t
  case int256 => exact h
  all_goals contradiction

-- How the step at the place `k` is wired in a batch for the intent `i`, where `w` is the address of the swapper.
structure Wired (i : Intent) (w : Address) (b : Batch) (k : Nat) (this : Invocation) : Prop where
  -- Only the two kinds that take in an output hold a sentinel.
  sentinel : (∃ v ∈ this.signedWords, IsSentinel v) ↔ (this.kind = .addCollateral ∨ this.kind = .repay)
  -- The share is what the deposit before, or the swap before, left in slot two.
  addCollateral (h : this.kind = .addCollateral) :
    (this.signedWords = [OutputSlot.two.sentinel]) ∧
    ((∃ a, .add i.sender a ∈ i.parts ∧
        (this.args = [.amount (.prior .two), .address i.sender, .bool false]) ∧
        b.Follows k ⟨.bentoDeposit, [.address a.token.slot, .address i.sender, .uint a.amount, .uint 0]⟩) ∨
      (∃ l, .leverage i.sender l ∈ i.parts ∧
        (this.args = [.amount (.prior .two), .address (l.recipient.getD i.sender), .bool false]) ∧
        b.Follows k ⟨.call, [
          .address w, .bytes (Demand.swapCall i.sender l.minShareOut), .bool false, .bool true, .uint 2]⟩))
  -- The part is what the conversion before left in slot one.
  repay (h : this.kind = .repay) :
    (this.signedWords = [OutputSlot.one.sentinel]) ∧
    (∃ r, .repay i.sender r ∈ i.parts ∧ b.Follows k ⟨.getRepayPart, [.uint r.amount]⟩)
  -- The callee holds what the step before has borrowed.
  call (h : this.kind = .call) :
    ∃ l callee data, .leverage i.sender l ∈ i.parts ∧
      (this.args = [.address callee, .bytes data, .bool false, .bool true, .uint 2]) ∧
      b.Follows k ⟨.borrow, [.amount (.literal l.amount), .address callee]⟩
  borrow (h : this.kind = .borrow) :
    ∃ n : Uint256, (this.signedWords = [n]) ∧ (n.toNat < 2 ^ 255) ∧
      ((∃ x, .borrow i.sender x ∈ i.parts ∧ n = x.amount) ∨ (∃ l, .leverage i.sender l ∈ i.parts ∧ n = l.amount))
  removeCollateral (h : this.kind = .removeCollateral) :
    ∃ r, .remove i.sender r ∈ i.parts ∧ (this.signedWords = [r.amount]) ∧ (r.amount.toNat < 2 ^ 255)

namespace Wired

variable {i : Intent} {w : Address} {b : Batch} {k : Nat} {args : List Argument} {n : Uint256} {r : Address}

-- A step without signed slots takes in nothing.
theorem of_unsigned (kind : ActionKind) (hk : kind ∉ [.addCollateral, .repay, .call, .borrow, .removeCollateral])
    (hw : (Invocation.mk kind args).signedWords = []) : Wired i w b k ⟨kind, args⟩ := by
  simp only [List.mem_cons, List.not_mem_nil, or_false, not_or] at hk
  have ⟨ha, hr, hc, hb, hm⟩ := hk
  refine ⟨?_, (absurd · ha), (absurd · hr), (absurd · hc), (absurd · hb), (absurd · hm)⟩
  simp [hw, ha, hr]

theorem of_addCollateral
    (h : (∃ a, .add i.sender a ∈ i.parts ∧ r = i.sender ∧
        b.Follows k ⟨.bentoDeposit, [.address a.token.slot, .address i.sender, .uint a.amount, .uint 0]⟩) ∨
      (∃ l, .leverage i.sender l ∈ i.parts ∧ r = l.recipient.getD i.sender ∧
        b.Follows k ⟨.call, [
          .address w, .bytes (Demand.swapCall i.sender l.minShareOut), .bool false, .bool true, .uint 2]⟩)) :
    Wired i w b k ⟨.addCollateral, [.amount (.prior .two), .address r, .bool false]⟩ where
  sentinel           := iff_of_true ⟨_, List.mem_cons_self, isSentinel_sentinel .two⟩ (.inl rfl)
  addCollateral _    := by
    refine ⟨rfl, ?_⟩
    obtain ⟨a, ha, rfl, hf⟩ | ⟨l, hl, rfl, hf⟩ := h
    case inl => exact .inl ⟨a, ha, rfl, hf⟩
    case inr => exact .inr ⟨l, hl, rfl, hf⟩
  repay h            := nomatch h
  call h             := nomatch h
  borrow h           := nomatch h
  removeCollateral h := nomatch h

theorem of_repay {x : Repay} (h : .repay i.sender x ∈ i.parts) (hf : b.Follows k ⟨.getRepayPart, [.uint x.amount]⟩) :
    Wired i w b k ⟨.repay, [.amount (.prior .one), .address r, .bool false]⟩ where
  sentinel           := iff_of_true ⟨_, List.mem_cons_self, isSentinel_sentinel .one⟩ (.inr rfl)
  addCollateral h    := nomatch h
  repay _            := ⟨rfl, x, h, hf⟩
  call h             := nomatch h
  borrow h           := nomatch h
  removeCollateral h := nomatch h

theorem of_call {l : Leverage} {data : Bytes} (h : .leverage i.sender l ∈ i.parts)
    (hf : b.Follows k ⟨.borrow, [.amount (.literal l.amount), .address r]⟩) :
    Wired i w b k ⟨.call, [.address r, .bytes data, .bool false, .bool true, .uint 2]⟩ where
  sentinel           := iff_of_false (fun ⟨_, hv, _⟩ => nomatch hv) (by simp)
  addCollateral h    := nomatch h
  repay h            := nomatch h
  call _             := ⟨l, r, data, h, rfl, hf⟩
  borrow h           := nomatch h
  removeCollateral h := nomatch h

theorem not_exists_isSentinel (hn : n.toNat < 2 ^ 255) : ¬∃ v ∈ [n], IsSentinel v :=
  fun ⟨_, hv, hs⟩ => not_isSentinel hn <| List.mem_singleton.mp hv ▸ hs

theorem of_borrow (hn : n.toNat < 2 ^ 255)
    (h : (∃ x, .borrow i.sender x ∈ i.parts ∧ n = x.amount) ∨
      (∃ l, .leverage i.sender l ∈ i.parts ∧ n = l.amount)) :
    Wired i w b k ⟨.borrow, [.amount (.literal n), .address r]⟩ where
  sentinel           := iff_of_false (not_exists_isSentinel hn) (by simp)
  addCollateral h    := nomatch h
  repay h            := nomatch h
  call h             := nomatch h
  borrow _           := ⟨n, rfl, hn, h⟩
  removeCollateral h := nomatch h

theorem of_removeCollateral {x : RemoveCollateral} (hn : x.amount.toNat < 2 ^ 255)
    (h : .remove i.sender x ∈ i.parts) :
    Wired i w b k ⟨.removeCollateral, [.amount (.literal x.amount), .address r]⟩ where
  sentinel           := iff_of_false (not_exists_isSentinel hn) (by simp)
  addCollateral h    := nomatch h
  repay h            := nomatch h
  call h             := nomatch h
  borrow h           := nomatch h
  removeCollateral _ := ⟨x, h, rfl, hn⟩

end Wired

namespace Batch.Hosts

variable {i : Intent} {b : Batch} {c : Cauldron} {o m : Nat} {p : Part} {ss : List Step} {s : Step} {n : Uint256}

theorem literal_lt (h : b.Hosts c o p ss) (hm : ss[m]? = some s) (hs : .amount (.literal n) ∈ s.args) :
    n.toNat < 2 ^ 255 := by
  have ⟨j, hj, hn⟩ := List.getElem_of_mem hs
  have ⟨q, _, hf⟩ := Outcome.getElem?_of_forall₂ (h.fits hm) (List.getElem?_eq_some_iff.mpr ⟨hj, hn⟩)
  exact Argument.lt_of_fits hf

theorem follows (h : b.Hosts c o p ss) (hm : ss[m]? = some s) : b.Follows (o + (m + 1)) s.invocation :=
  ⟨o + m, rfl, h.holds hm⟩

theorem wired (h : b.Hosts c o p ss) (hp : p ∈ i.parts) (hm : ss[m]? = some s) :
    Wired i c.leverageSwapper.address b (o + m) s.invocation := by
  cases p
  case approval a =>
    cases h.steps
    obtain _ | _ := m <;> cases hm
    exact .of_unsigned .bentoSetApproval (by decide) rfl
  all_goals cases Intent.sender_of_mem_parts hp rfl
  case add a =>
    cases h.steps
    have hd := h.follows (m := 0) rfl
    obtain _ | _ | _ := m <;> cases hm
    · exact .of_unsigned .bentoDeposit (by decide) rfl
    · exact .of_addCollateral <| .inl ⟨a, hp, rfl, hd⟩
  case borrow x =>
    cases h.steps
    have hn := h.literal_lt (m := 0) rfl List.mem_cons_self
    obtain _ | _ := m <;> cases hm
    exact .of_borrow hn <| .inl ⟨x, hp, rfl⟩
  case repay x =>
    cases h.steps
    have hg := h.follows (m := 1) rfl
    obtain _ | _ | _ | _ := m <;> cases hm
    · exact .of_unsigned .bentoDeposit (by decide) rfl
    · exact .of_unsigned .getRepayPart (by decide) rfl
    · exact .of_repay hp hg
  case remove x =>
    cases h.steps
    have hn := h.literal_lt (m := 0) rfl List.mem_cons_self
    obtain _ | _ | _ := m <;> cases hm
    · exact .of_removeCollateral hn hp
    · exact .of_unsigned .bentoWithdraw (by decide) rfl
  case leverage l =>
    cases Part.steps_leverage h.steps
    have hn := h.literal_lt (m := 0) rfl List.mem_cons_self
    have hb := h.follows (m := 0) rfl
    have hc := h.follows (m := 1) rfl
    obtain _ | _ | _ | _ := m <;> cases hm
    · exact .of_borrow hn <| .inr ⟨l, hp, rfl⟩
    · exact .of_call hp hb
    · exact .of_addCollateral <| .inr ⟨l, hp, rfl, hc⟩

end Batch.Hosts

namespace Compiler

variable {c : Compiler} {i : Intent} {b : Batch} {k : Nat}

-- Whatever the amounts are and whatever else is asked for, every step of a batch is wired to its producer.
theorem compile_wired (h : c.compile i = .ok (.cook b)) (hk : k < b.actions.length) :
    ∃ this, b.Holds k this ∧ Wired i c.cauldron.leverageSwapper.address b k this := by
  obtain ⟨p, hp, ss, o, j, hh, hj, rfl⟩ := exists_hosts h hk
  have hm := List.getElem?_eq_getElem hj
  exact ⟨_, hh.holds hm, hh.wired hp hm⟩

theorem compile_wired_leverage :
    ∃ b this,
      ((mk ⟨"", 1, 0, ⟨.zero, .v1⟩, ⟨.zero, .simpleSwap⟩⟩ true).compile
        ⟨.zero, none, .addCollateralAndLeverage (some ⟨.native, 2⟩) (some ⟨3, 4, none⟩)⟩ = .ok (.cook b)) ∧
      (4 < b.actions.length) ∧ b.Holds 4 this ∧ (this.kind = .addCollateral) ∧
      (this.signedWords = [OutputSlot.two.sentinel]) := by
  have ⟨b, hc⟩ : ∃ b, (mk ⟨"", 1, 0, ⟨.zero, .v1⟩, ⟨.zero, .simpleSwap⟩⟩ true).compile
      ⟨.zero, none, .addCollateralAndLeverage (some ⟨.native, 2⟩) (some ⟨3, 4, none⟩)⟩ = .ok (.cook b) :=
    ⟨_, rfl⟩
  have hk : b.actions[4]? = some ActionKind.addCollateral.opcode := by
    cases hc
    rfl
  have ⟨hl, _⟩ := List.getElem?_eq_some_iff.mp hk
  have ⟨this, hb, hw⟩ := compile_wired hc hl
  have ht : this.kind = .addCollateral := ActionKind.opcode_inj <| Option.some.inj <| hb.opcode.symm.trans hk
  exact ⟨b, this, hc, hl, hb, ht, hw.addCollateral ht |>.left⟩

end Compiler

end CauldronCalls
