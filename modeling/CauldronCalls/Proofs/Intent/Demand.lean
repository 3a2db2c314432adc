import CauldronCalls.Proofs.Action.Invocation
import CauldronCalls.Proofs.Call.Length

/-!
What the parts of an intent ask for once nothing depends on defaults, and the invocations that each of them
turns into.

The main statement is that the joined invocations of several demands determine the demands: no two lists of
demands look alike in a batch.
-/

namespace CauldronCalls

-- Recipients that were not given are filled in, an asset is the address that stands for it in a token slot,
-- and the sender is kept where it is used.
inductive Demand where
  | approval (a : MasterContractApproval)
  | add      (sender slot : Address) (amount : Uint256)
  | borrow   (amount : Uint256) (recipient : Address)
  | repay    (sender token : Address) (amount : Uint256) (recipient : Address)
  | remove   (sender slot : Address) (amount : Uint256) (recipient : Address)
  | leverage (sender : Address) (amount minShareOut : Uint256) (recipient : Address)
deriving DecidableEq

namespace Demand

-- The call of a simple swapper up to the share to swap.
def swapCall (sender : Address) (minShareOut : Uint256) : Bytes :=
  Selector.swap ++ Abi.sequence [.word sender.toWord, .word minShareOut.toWord]

def invocations (swapper : Address) : Demand → List Invocation
  | approval a       => [
    ⟨.bentoSetApproval, [
      .address a.user, .address a.masterContract, .bool a.approved,
      .uint (BitVec.ofNat 256 a.v.toNat), .word a.r, .word a.s]⟩]
  | add s slot n     => [
    ⟨.bentoDeposit, [.address slot, .address s, .uint n, .uint 0]⟩,
    ⟨.addCollateral, [.amount (.prior .two), .address s, .bool false]⟩]
  | borrow n r       => [
    ⟨.borrow, [.amount (.literal n), .address r]⟩]
  | repay s t n r    => [
    ⟨.bentoDeposit, [.address t, .address s, .uint n, .uint 0]⟩,
    ⟨.getRepayPart, [.uint n]⟩,
    ⟨.repay, [.amount (.prior .one), .address r, .bool false]⟩]
  | remove s slot n r => [
    ⟨.removeCollateral, [.amount (.literal n), .address s]⟩,
    ⟨.bentoWithdraw, [.address slot, .address r, .uint n, .uint 0]⟩]
  | leverage s n m r => [
    ⟨.borrow, [.amount (.literal n), .address swapper]⟩,
    ⟨.call, [.address swapper, .bytes (swapCall s m), .bool false, .bool true, .uint 2]⟩,
    ⟨.addCollateral, [.amount (.prior .two), .address r, .bool false]⟩]

theorem swapCall_inj {s t : Address} {m n : Uint256} (h : swapCall s m = swapCall t n) :
    s = t ∧ m = n := by
  have h := List.append_cancel_left h
  simp only [Abi.sequence, Abi.heads, Abi.tails, Abi.Item.head, Abi.Item.tail, List.flatMap_cons,
    List.flatMap_nil, List.append_nil] at h
  obtain ⟨hs, hm⟩ := List.append_inj h <| s.toWord.length_toList.trans t.toWord.length_toList.symm
  exact ⟨Address.toWord_inj <| FixedBytes.toList_inj hs, Uint256.toWord_inj <| FixedBytes.toList_inj hm⟩

-- What follows a demand does not begin with a call, by which alone a leverage goes on where a borrow ends.
def Separate (is : List Invocation) : Prop :=
  ∀ i ∈ is.head?, i.kind ≠ .call

theorem not_separate_call (as : List Argument) (is : List Invocation) : ¬Separate (⟨.call, as⟩ :: is) :=
  (· _ rfl rfl)

variable {w : Address} {d e : Demand} {ds es : List Demand} {is js : List Invocation}

theorem separate_invocations (d : Demand) (is : List Invocation) : Separate (d.invocations w ++ is) := by
  cases d <;> simp [Separate, invocations]

theorem separate_flatMap (ds : List Demand) : Separate (ds.flatMap (invocations w)) := by
  cases ds
  case nil  => exact fun _ hi => nomatch hi
  case cons => exact separate_invocations _ _

theorem invocations_append_inj (hi : Separate is) (hj : Separate js)
    (h : d.invocations w ++ is = e.invocations w ++ js) : (d = e) ∧ (is = js) := by
  cases d <;> cases e <;> simp [invocations] at h
  case approval.approval a b =>
    have ⟨⟨hu, hm, ha, hv, hr, hs⟩, h⟩ := h
    have hv := Uint256.ofByte_inj hv
    cases a
    cases b
    simp_all
  case add.add => simp [h]
  case borrow.borrow => simp [h]
  case repay.repay => simp [h]
  case remove.remove => simp [h]
  case leverage.leverage =>
    obtain ⟨rfl, hc, rfl, h⟩ := h
    obtain ⟨rfl, rfl⟩ := swapCall_inj hc
    exact ⟨rfl, h⟩
  -- A borrow goes on like a leverage only if a call follows it.
  case borrow.leverage => exact absurd hi <| h.right ▸ not_separate_call _ _
  case leverage.borrow => exact absurd hj <| h.right ▸ not_separate_call _ _

theorem flatMap_invocations_inj (h : ds.flatMap (invocations w) = es.flatMap (invocations w)) : ds = es := by
  induction ds generalizing es
  case nil =>
    cases es
    case nil => rfl
    case cons e es => cases e <;> contradiction
  case cons d ds hi =>
    cases es
    case nil => cases d <;> contradiction
    case cons e es =>
      have ⟨hd, hs⟩ := invocations_append_inj (separate_flatMap ds) (separate_flatMap es) h
      rw [hd, hi hs]

theorem length_invocations_le (d : Demand) : (d.invocations w).length ≤ 3 := by
  cases d <;> simp [invocations]

theorem length_flatMap_invocations_le (ds : List Demand) :
    (ds.flatMap (invocations w)).length ≤ ds.length * 3 := by
  induction ds
  case nil => exact Nat.le_refl _
  case cons d ds hi =>
    have hd := d.length_invocations_le (w := w)
    rw [List.flatMap_cons, List.length_append, List.length_cons]
    omega

theorem rooms_invocations_le {i : Invocation} (h : i ∈ d.invocations w) :
    Argument.rooms i.args ≤ 512 := by
  have hs (s : Address) (n : Uint256) : (swapCall s n).length = 68 := by
    simp [swapCall, Abi.length_sequence, Abi.tails_cons, Abi.tails_nil, Abi.Item.tail, Selector.swap]
  cases d <;> simp only [invocations, List.mem_cons, List.not_mem_nil, or_false] at h <;>
    rcases h with rfl | rfl | rfl <;> simp [Argument.rooms, Argument.room, hs]

end Demand

end CauldronCalls
