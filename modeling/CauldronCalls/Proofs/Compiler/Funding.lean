import CauldronCalls.Proofs.Compiler.Place

/-!
The native amounts that the deposits of a batch forward. A deposit of the native currency forwards what it
deposits, and a deposit of a token nothing; a repayment is always one of a token.

An address that is given as a token is taken for one, the zero address included, although in a token slot that
address stands for the native currency. So it is the asset, and not what its slot holds, that decides what is
forwarded.
-/

namespace CauldronCalls

namespace Part

variable {w : Swapper} {p : Part} {ss : List Step} {s : Step}

theorem deposit_of_mem_steps (h : p.steps w = .ok ss) (hs : s ∈ ss) (hk : s.descriptor.kind = .bentoDeposit) :
    (∃ sender a, p = .add sender a ∧ s = ⟨ActionKind.bentoDeposit.descriptor,
      if a.token.isNative then a.amount else 0,
      [.address a.token.slot, .address sender, .uint a.amount, .uint 0]⟩) ∨
    (∃ sender r, p = .repay sender r ∧ s = ActionKind.bentoDeposit.step
      [.address r.token, .address sender, .uint r.amount, .uint 0]) := by
  cases p
  case leverage =>
    rw [steps_leverage h] at hs
    simp only [List.mem_cons, List.not_mem_nil, or_false] at hs
    obtain rfl | rfl | rfl := hs <;> contradiction
  all_goals
    cases h
    simp only [MasterContractApproval.steps, AddCollateral.steps, Borrow.steps, Repay.steps, RemoveCollateral.steps,
      List.mem_cons, List.not_mem_nil, or_false] at hs
  case add sender a =>
    obtain rfl | rfl := hs
    case inl => exact .inl ⟨sender, a, rfl, rfl⟩
    case inr => contradiction
  case repay sender r =>
    obtain rfl | rfl | rfl := hs
    case inl => exact .inr ⟨sender, r, rfl, rfl⟩
    all_goals contradiction
  case remove => obtain rfl | rfl := hs <;> contradiction
  case approval | borrow =>
    subst hs
    contradiction

end Part

namespace Compiler

variable {c : Compiler} {i : Intent} {b : Batch} {k : Nat}

-- Every deposit of a batch is that of the collateral to add or that of the debt to repay. Of the two only the
-- first can forward anything, which it does just for the native currency.
theorem compile_deposit (h : c.compile i = .ok (.cook b)) (hk : b.actions[k]? = some 20) :
    ∃ token amount value,
      b.Holds k ⟨.bentoDeposit, [.address token, .address i.sender, .uint amount, .uint 0]⟩ ∧
      (b.values[k]? = some value) ∧ (token ≠ .zero → value = 0) ∧
      ((∃ a, .add i.sender a ∈ i.parts ∧ (token = a.token.slot) ∧ (amount = a.amount) ∧
          (a.token = .native → (token = .zero) ∧ (value = amount)) ∧ (a.token ≠ .native → value = 0)) ∨
        (∃ r, .repay i.sender r ∈ i.parts ∧ (token = r.token) ∧ (amount = r.amount) ∧ (value = 0))) := by
  have ⟨hl, _⟩ := List.getElem?_eq_some_iff.mp hk
  obtain ⟨p, hp, ss, o, j, hh, hj, rfl⟩ := exists_hosts h hl
  have hm := List.getElem?_eq_getElem hj
  have hb := hh.holds hm
  have hv := hh.value hm
  have hd : ss[j].descriptor.kind = .bentoDeposit :=
    ActionKind.opcode_inj <| Option.some.inj <| hb.opcode.symm.trans hk
  obtain ⟨s, a, rfl, hs⟩ | ⟨s, r, rfl, hs⟩ := Part.deposit_of_mem_steps hh.steps (List.getElem_mem hj) hd <;>
    cases Intent.sender_of_mem_parts hp rfl <;> rw [hs] at hb hv
  case inl =>
    refine ⟨_, _, _, hb, hv, ?slot, .inl ⟨a, hp, rfl, rfl, ?native, ?token⟩⟩
    case native =>
      intro ht
      rw [ht]
      exact ⟨rfl, rfl⟩
    all_goals
      intro ht
      cases ha : a.token <;> rw [ha] at ht
      case native => contradiction
      case token  => rfl
  case inr => exact ⟨_, _, _, hb, hv, fun _ => rfl, .inr ⟨r, hp, rfl, rfl, rfl⟩⟩

theorem compile_deposit_native :
    ∃ b token amount value,
      ((mk ⟨"", 1, 0, ⟨.zero, .v1⟩, ⟨.zero, .simpleSwap⟩⟩ true).compile
        ⟨.zero, none, .addCollateralAndBorrow (some ⟨.native, 2⟩) (some ⟨3, none⟩)⟩ = .ok (.cook b)) ∧
      (b.actions[0]? = some 20) ∧
      b.Holds 0 ⟨.bentoDeposit, [.address token, .address .zero, .uint amount, .uint 0]⟩ ∧
      (b.values[0]? = some value) ∧ (token = .zero) ∧ (value = amount) := by
  have ⟨b, hc⟩ : ∃ b, (mk ⟨"", 1, 0, ⟨.zero, .v1⟩, ⟨.zero, .simpleSwap⟩⟩ true).compile
      ⟨.zero, none, .addCollateralAndBorrow (some ⟨.native, 2⟩) (some ⟨3, none⟩)⟩ = .ok (.cook b) :=
    ⟨_, rfl⟩
  have hk : b.actions[0]? = some 20 := by
    cases hc
    rfl
  obtain ⟨token, amount, value, hb, hv, _, ⟨a, ha, _, _, hn, _⟩ | ⟨r, hr, _⟩⟩ := compile_deposit hc hk
  case inl =>
    have ha : a = ⟨.native, 2⟩ := by simpa [Intent.parts, Operation.parts] using ha
    obtain ⟨ht, hv'⟩ := hn <| congrArg AddCollateral.token ha
    exact ⟨b, token, amount, value, hc, hk, hb, hv, ht, hv'⟩
  case inr => simp [Intent.parts, Operation.parts] at hr

-- A repayment in the token with the zero address is a deposit of native currency that forwards nothing.
theorem not_compile_deposit_funded :
    ¬(∀ (c : Compiler) (i : Intent) (b : Batch) (k : Nat),
      (c.compile i = .ok (.cook b)) → (b.actions[k]? = some 20) →
        ∃ token recipient amount share value,
          b.Holds k ⟨.bentoDeposit, [.address token, .address recipient, .uint amount, .uint share]⟩ ∧
          (b.values[k]? = some value) ∧ (token = .zero → value = amount) ∧ (token ≠ .zero → value = 0)) := by
  intro h
  have ⟨token, recipient, amount, share, value, hb, hv, hz, _⟩ :=
    h (mk ⟨"", 1, 0, ⟨.zero, .v1⟩, ⟨.zero, .simpleSwap⟩⟩ true)
      ⟨.zero, none, .repayAndRemoveCollateral (some ⟨.zero, 1, none⟩) none⟩ _ 0 rfl rfl
  have ⟨d, hd, ha⟩ := hb.data
  change ActionKind.bentoDeposit.descriptor.argsOfData? d = _ at ha
  cases hd
  cases hv
  cases ha.symm.trans (by decide +kernel : _ = some [.address .zero, .address .zero, .uint 1, .uint 0])
  exact absurd (hz rfl) (by decide)

end Compiler

end CauldronCalls
