import CauldronCalls.Abi
import CauldronCalls.CompileError

/-!
Bound actions. Arguments are fitted into an action's schema one by one, from left to right; the first that does
not fit is the one reported.
-/

namespace CauldronCalls

-- One step of a batch. The forwarded native amount is not part of the data.
structure Action where
  opcode : UInt8
  value : Uint256
  data : Bytes
deriving DecidableEq

-- The encoded member for one slot.
def Param.fit (p : Param) : Argument → Except Misfit Abi.Item
  | .address a => if p.type = .address then .ok (.word a.toWord) else .error (.shape p.name p.type .address)
  | .bool b    => if p.type = .bool then .ok (.bool b) else .error (.shape p.name p.type .bool)
  | .uint n    =>
    if p.type = .uint256 ∨ p.type = .uint8 ∧ n.toNat ≤ 255 then .ok (.word n.toWord)
    else .error (.shape p.name p.type .uint)
  | .amount a  =>
    if p.type = .int256 then
      match a.toSigned? with
      | some w => .ok (.word (FixedBytes.ofNat 32 w.toNat))
      | none   => .error (.oversizedLiteral p.name)
    else .error (.shape p.name p.type .amount)
  | .word w    => if p.type = .bytes32 then .ok (.word w) else .error (.shape p.name p.type .word)
  | .bytes bs  => if p.type = .bytes then .ok (.bytes bs) else .error (.shape p.name p.type .bytes)
  | .addresses as =>
    if p.type = .addressArray then .ok (.array (as.map fun a => .word a.toWord))
    else .error (.shape p.name p.type .addresses)
  | .uints ns  =>
    if p.type = .uint256Array then .ok (.array (ns.map fun n => .word n.toWord))
    else .error (.shape p.name p.type .uints)

def Param.fitAll : List Param → List Argument → Except Misfit (List Abi.Item)
  | p :: ps, a :: as => do
    let i ← p.fit a
    let is ← fitAll ps as
    pure (i :: is)
  | _, _             => .ok []

namespace Descriptor

-- Binds arguments in the order of the schema. Actions that cannot forward native currency get the value
-- zero.
def bind (d : Descriptor) (value : Uint256) (args : List Argument) : Except CompileError Action :=
  if args.length ≠ d.params.length then
    .error (.argumentMismatch d.kind (.count d.params.length args.length))
  else
    match Param.fitAll d.params args with
    | .error m  => .error (.argumentMismatch d.kind m)
    | .ok items => .ok ⟨d.opcode, if d.carriesNative then value else 0, Abi.sequence items⟩

end Descriptor

end CauldronCalls
