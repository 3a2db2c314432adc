import CauldronCalls.Address
import CauldronCalls.Amount

/-!
Values for the slots of an action's schema.
-/

namespace CauldronCalls

inductive Argument where
  | address (a : Address)
  | bool (b : Bool)
  | uint (n : Uint256)
  | amount (a : Amount)
  | word (w : Bytes32)
  | bytes (bs : Bytes)
  | addresses (as : List Address)
  | uints (ns : List Uint256)
deriving DecidableEq

inductive Argument.Shape where
  | address
  | bool
  | uint
  | amount
  | word
  | bytes
  | addresses
  | uints
deriving DecidableEq, Repr

def Argument.Shape.name : Shape → String
  | address   => "address"
  | bool      => "bool"
  | uint      => "uint"
  | amount    => "amount"
  | word      => "word"
  | bytes     => "bytes"
  | addresses => "address list"
  | uints     => "uint list"

def Argument.shape : Argument → Shape
  | address _   => .address
  | bool _      => .bool
  | uint _      => .uint
  | amount _    => .amount
  | word _      => .word
  | bytes _     => .bytes
  | addresses _ => .addresses
  | uints _     => .uints

end CauldronCalls
