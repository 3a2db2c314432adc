import CauldronCalls.Version

/-!
The primitive actions that a batch can be made of. Each has an opcode, a schema for its data, a mark whether
it may forward native currency, and the first revision that understands it.
-/

namespace CauldronCalls

inductive ActionKind where
  | repay
  | removeCollateral
  | borrow
  | getRepayShare
  | getRepayPart
  | addCollateral
  | updateExchangeRate
  | bentoDeposit
  | bentoWithdraw
  | bentoTransfer
  | bentoTransferMultiple
  | bentoSetApproval
  | call
  | liquidate
  | releaseCollateralFromStrategy
deriving DecidableEq, Repr

inductive ParamType where
  | address
  | bool
  | uint8
  | uint256
  -- The only type of slot that can refer to an earlier output.
  | int256
  | bytes32
  | bytes
  | addressArray
  | uint256Array
deriving DecidableEq, Repr

def ParamType.name : ParamType → String
  | address      => "address"
  | bool         => "bool"
  | uint8        => "uint8"
  | uint256      => "uint256"
  | int256       => "int256"
  | bytes32      => "bytes32"
  | bytes        => "bytes"
  | addressArray => "address[]"
  | uint256Array => "uint256[]"

structure Param where
  name : String
  type : ParamType
deriving DecidableEq, Repr

-- What a batch has to know of one kind of action.
structure Descriptor where
  kind : ActionKind
  params : List Param
  carriesNative : Bool
  minVersion : Version
deriving DecidableEq, Repr

namespace ActionKind

-- In the order of their opcodes.
def all : List ActionKind := [
  repay, removeCollateral, borrow, getRepayShare, getRepayPart, addCollateral, updateExchangeRate,
  bentoDeposit, bentoWithdraw, bentoTransfer, bentoTransferMultiple, bentoSetApproval,
  call, liquidate, releaseCollateralFromStrategy]

def opcode : ActionKind → UInt8
  | repay                         => 2
  | removeCollateral              => 4
  | borrow                        => 5
  | getRepayShare                 => 6
  | getRepayPart                  => 7
  | addCollateral                 => 10
  | updateExchangeRate            => 11
  | bentoDeposit                  => 20
  | bentoWithdraw                 => 21
  | bentoTransfer                 => 22
  | bentoTransferMultiple         => 23
  | bentoSetApproval              => 24
  | call                          => 30
  | liquidate                     => 31
  | releaseCollateralFromStrategy => 32

def ofOpcode? (o : UInt8) : Option ActionKind :=
  all.find? (·.opcode == o)

theorem mem_all (k : ActionKind) : k ∈ all := by
  cases k <;> decide

theorem ofOpcode?_opcode (k : ActionKind) : ofOpcode? k.opcode = some k := by
  cases k <;> decide

-- The name in signatures and in error texts.
def name : ActionKind → String
  | repay                         => "Repay"
  | removeCollateral              => "RemoveCollateral"
  | borrow                        => "Borrow"
  | getRepayShare                 => "GetRepayShare"
  | getRepayPart                  => "GetRepayPart"
  | addCollateral                 => "AddCollateral"
  | updateExchangeRate            => "UpdateExchangeRate"
  | bentoDeposit                  => "BentoDeposit"
  | bentoWithdraw                 => "BentoWithdraw"
  | bentoTransfer                 => "BentoTransfer"
  | bentoTransferMultiple         => "BentoTransferMultiple"
  | bentoSetApproval              => "BentoSetApproval"
  | call                          => "Call"
  | liquidate                     => "Liquidate"
  | releaseCollateralFromStrategy => "ReleaseCollateralFromStrategy"

-- The name in the printed catalog.
def label : ActionKind → String
  | repay                         => "repay"
  | removeCollateral              => "remove_collateral"
  | borrow                        => "borrow"
  | getRepayShare                 => "get_repay_share"
  | getRepayPart                  => "get_repay_part"
  | addCollateral                 => "add_collateral"
  | updateExchangeRate            => "update_exchange_rate"
  | bentoDeposit                  => "bento_deposit"
  | bentoWithdraw                 => "bento_withdraw"
  | bentoTransfer                 => "bento_transfer"
  | bentoTransferMultiple         => "bento_transfer_multiple"
  | bentoSetApproval              => "bento_set_approval"
  | call                          => "call"
  | liquidate                     => "liquidate"
  | releaseCollateralFromStrategy => "release_collateral_from_strategy"

def params : ActionKind → List Param
  | repay                         => [⟨"part", .int256⟩, ⟨"to", .address⟩, ⟨"skim", .bool⟩]
  | removeCollateral              => [⟨"share", .int256⟩, ⟨"to", .address⟩]
  | borrow                        => [⟨"amount", .int256⟩, ⟨"to", .address⟩]
  | getRepayShare                 => [⟨"part", .uint256⟩]
  | getRepayPart                  => [⟨"amount", .uint256⟩]
  | addCollateral                 => [⟨"share", .int256⟩, ⟨"to", .address⟩, ⟨"skim", .bool⟩]
  | updateExchangeRate            => [⟨"mustUpdate", .bool⟩, ⟨"minRate", .uint256⟩, ⟨"maxRate", .uint256⟩]
  | bentoDeposit | bentoWithdraw  =>
    [⟨"token", .address⟩, ⟨"to", .address⟩, ⟨"amount", .uint256⟩, ⟨"share", .uint256⟩]
  | bentoTransfer                 => [⟨"token", .address⟩, ⟨"to", .address⟩, ⟨"share", .int256⟩]
  | bentoTransferMultiple         => [⟨"token", .address⟩, ⟨"tos", .addressArray⟩, ⟨"share", .uint256Array⟩]
  | bentoSetApproval              => [
    ⟨"user", .address⟩, ⟨"masterContract", .address⟩, ⟨"approved", .bool⟩,
    ⟨"v", .uint8⟩, ⟨"r", .bytes32⟩, ⟨"s", .bytes32⟩]
  | call                          => [
    ⟨"callee", .address⟩, ⟨"callData", .bytes⟩, ⟨"useValue1", .bool⟩, ⟨"useValue2", .bool⟩,
    ⟨"returnValues", .uint8⟩]
  | liquidate                     => [
    ⟨"users", .addressArray⟩, ⟨"maxBorrowParts", .uint256Array⟩, ⟨"to", .address⟩,
    ⟨"swapper", .address⟩, ⟨"swapperData", .bytes⟩]
  | releaseCollateralFromStrategy => []

def carriesNative : ActionKind → Bool
  | bentoDeposit | bentoWithdraw | bentoTransfer | bentoTransferMultiple => true
  | call | liquidate | releaseCollateralFromStrategy                     => true
  | _                                                                    => false

def minVersion : ActionKind → Version
  | liquidate | releaseCollateralFromStrategy => .v4
  | _                                         => .v1

def descriptor (k : ActionKind) : Descriptor :=
  ⟨k, k.params, k.carriesNative, k.minVersion⟩

end ActionKind

namespace Descriptor

def opcode (d : Descriptor) : UInt8 :=
  d.kind.opcode

def signature (d : Descriptor) : String :=
  d.kind.name ++ "(" ++ ",".intercalate (d.params.map (·.type.name)) ++ ")"

def ofOpcode? (o : UInt8) : Option Descriptor :=
  (ActionKind.ofOpcode? o).map ActionKind.descriptor

end Descriptor

def catalog : List Descriptor :=
  ActionKind.all.map ActionKind.descriptor

end CauldronCalls
