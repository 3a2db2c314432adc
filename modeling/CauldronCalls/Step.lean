import CauldronCalls.Call
import CauldronCalls.Intent

/-!
The steps that each part of an intent stands for. A step names an action, the native amount it forwards and
its arguments; binding comes later.

Values flow from one step to a later one through output slots: a deposit leaves the deposited share in slot
two, the repaid part is left in slot one, and a swap leaves the returned share in slot two.
-/

namespace CauldronCalls

structure Step where
  descriptor : Descriptor
  value : Uint256
  args : List Argument
deriving DecidableEq

-- A step that forwards no native currency.
def ActionKind.step (k : ActionKind) (args : List Argument) : Step :=
  ⟨k.descriptor, 0, args⟩

def MasterContractApproval.steps (a : MasterContractApproval) : List Step := [
  ActionKind.bentoSetApproval.step [
    .address a.user, .address a.masterContract, .bool a.approved,
    .uint (BitVec.ofNat 256 a.v.toNat), .word a.r, .word a.s]]

-- A deposit of native currency forwards the amount that it deposits.
def AddCollateral.steps (sender : Address) (a : AddCollateral) : List Step := [
  ⟨ActionKind.bentoDeposit.descriptor, if a.token.isNative then a.amount else 0,
    [.address a.token.slot, .address sender, .uint a.amount, .uint 0]⟩,
  ActionKind.addCollateral.step [.amount (.prior .two), .address sender, .bool false]]

def Borrow.steps (sender : Address) (b : Borrow) : List Step := [
  ActionKind.borrow.step [.amount (.literal b.amount), .address (b.recipient.getD sender)]]

def Repay.steps (sender : Address) (r : Repay) : List Step := [
  ActionKind.bentoDeposit.step [.address r.token, .address sender, .uint r.amount, .uint 0],
  ActionKind.getRepayPart.step [.uint r.amount],
  ActionKind.repay.step [.amount (.prior .one), .address (r.recipient.getD sender), .bool false]]

def RemoveCollateral.steps (sender : Address) (r : RemoveCollateral) : List Step := [
  ActionKind.removeCollateral.step [.amount (.literal r.amount), .address sender],
  ActionKind.bentoWithdraw.step [.address r.token.slot, .address (r.recipient.getD sender), .uint r.amount, .uint 0]]

-- The call of a swapper without its last word, the share to swap, which is appended on chain.
def SwapperKind.swapData (k : SwapperKind) (recipient : Address) (minShareOut : Uint256) :
    Except CompileError Bytes :=
  match k with
  | simpleSwap => .ok (Selector.swap ++ Abi.sequence [.word recipient.toWord, .word minShareOut.toWord])
  | k          => .error (.unsupportedSwapper k)

-- The borrowing's second output completes the swap's call; both values that the swap returns are kept.
def Leverage.steps (sender : Address) (swapper : Swapper) (l : Leverage) : Except CompileError (List Step) := do
  let swap ← swapper.kind.swapData sender l.minShareOut
  pure [
    ActionKind.borrow.step [.amount (.literal l.amount), .address swapper.address],
    ActionKind.call.step [.address swapper.address, .bytes swap, .bool false, .bool true, .uint 2],
    ActionKind.addCollateral.step [.amount (.prior .two), .address (l.recipient.getD sender), .bool false]]

namespace Operation

-- The funding part, then the part that it pays for.
def groups (swapper : Swapper) (sender : Address) : Operation → List (Except CompileError (List Step))
  | addCollateralAndBorrow add borrow     =>
    (add.map fun a => .ok (a.steps sender)).toList ++ (borrow.map fun b => .ok (b.steps sender)).toList
  | repayAndRemoveCollateral repay remove =>
    (repay.map fun r => .ok (r.steps sender)).toList ++ (remove.map fun r => .ok (r.steps sender)).toList
  | addCollateralAndLeverage add leverage =>
    (add.map fun a => .ok (a.steps sender)).toList ++ (leverage.map fun l => l.steps sender swapper).toList

end Operation

-- The parts of an intent in the order in which they run. The approval comes first, since the later parts
-- move funds that it gives access to.
def Intent.groups (swapper : Swapper) (i : Intent) : List (Except CompileError (List Step)) :=
  (i.approval.map fun a => .ok a.steps).toList ++ i.operation.groups swapper i.sender

end CauldronCalls
