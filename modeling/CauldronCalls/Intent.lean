import CauldronCalls.Asset
import CauldronCalls.Uint256

/-!
What a user can ask of a cauldron. Every part is optional; an intent without any part asks for nothing.
-/

namespace CauldronCalls

-- A signed permission for the cauldron's master contract to move a user's balance.
structure MasterContractApproval where
  user : Address
  masterContract : Address
  approved : Bool
  v : UInt8
  r : Bytes32
  s : Bytes32
deriving DecidableEq

-- Deposit `amount` of `token` and post it as collateral.
structure AddCollateral where
  token : Asset
  amount : Uint256
deriving DecidableEq

-- Each recipient that is not given is the sender.
structure Borrow where
  amount : Uint256
  recipient : Option Address
deriving DecidableEq

-- Repay `amount` of the debt token for the recipient.
structure Repay where
  token : Address
  amount : Uint256
  recipient : Option Address
deriving DecidableEq

structure RemoveCollateral where
  token : Asset
  amount : Uint256
  recipient : Option Address
deriving DecidableEq

-- Borrow `amount`, swap it, and post at least `minShareOut` of the swap's output as collateral.
structure Leverage where
  amount : Uint256
  minShareOut : Uint256
  recipient : Option Address
deriving DecidableEq

inductive Operation where
  | addCollateralAndBorrow (add : Option AddCollateral) (borrow : Option Borrow)
  | repayAndRemoveCollateral (repay : Option Repay) (remove : Option RemoveCollateral)
  | addCollateralAndLeverage (add : Option AddCollateral) (leverage : Option Leverage)
deriving DecidableEq

namespace Operation

def isEmpty : Operation → Bool
  | addCollateralAndBorrow add borrow      => add.isNone && borrow.isNone
  | repayAndRemoveCollateral repay remove  => repay.isNone && remove.isNone
  | addCollateralAndLeverage add leverage  => add.isNone && leverage.isNone

end Operation

structure Intent where
  sender : Address
  approval : Option MasterContractApproval
  operation : Operation
deriving DecidableEq

namespace Intent

def isEmpty (i : Intent) : Bool :=
  i.approval.isNone && i.operation.isEmpty

-- The borrowing, when it is the only thing asked for.
def borrowOnly? (i : Intent) : Option Borrow :=
  match i.approval, i.operation with
  | none, .addCollateralAndBorrow none (some b) => some b
  | _, _                                        => none

end Intent

end CauldronCalls
