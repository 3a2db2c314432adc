import CauldronCalls.Address
import CauldronCalls.Curve.Signature
import CauldronCalls.Text.Blank

/-!
Private keys as text, and the address that a key controls.
-/

namespace CauldronCalls

namespace PrivateKey

inductive Fault where
  | missing
  | notHex (fault : Hex.Fault)
  | invalid
deriving DecidableEq, Repr

namespace Fault

def message : Fault → String
  | missing  =>
    "missing signing key: provide --key-path or --private-key (or set COOK_PRIVATE_KEY_PATH/COOK_PRIVATE_KEY)"
  | notHex _ => "private key is not hex"
  | invalid  => "invalid private key: signature error"

-- What is wrong with the digits, when that is the reason.
def cause? : Fault → Option String
  | notHex .oddLength               => some "Odd number of digits"
  | notHex .wrongLength             => some "Invalid string length"
  | notHex (.badDigit byte position) => some s!"Invalid character {Text.quoteByte byte} at position {position}"
  | _                               => none

end Fault

-- From 24 bytes on, missing leading bytes are zeros.
def ofBytes (bs : Bytes) : Except Fault PrivateKey :=
  if 24 ≤ bs.length ∧ bs.length ≤ 32 then
    match ofNat? (Bytes.toNat bs) with
    | some k => .ok k
    | none   => .error .invalid
  else .error .invalid

-- Only the lower-case mark is known here.
def stripMark : List Char → List Char
  | '0' :: 'x' :: ds => ds
  | ds               => ds

-- Blanks around the digits do not count, and one `0x` may go before them.
def ofText (s : String) : Except Fault PrivateKey :=
  match Hex.decode (Bytes.ofText (stripMark (Text.trim s.toList))) with
  | .error f => .error (.notHex f)
  | .ok bs   => ofBytes bs

def ofText? : Option String → Except Fault PrivateKey
  | none   => .error .missing
  | some s => ofText s

end PrivateKey

-- The last twenty bytes of the hash of both coordinates.
def Point.address : Point → Address
  | infinity   => Address.zero
  | affine x y =>
    let hash := Keccak.hash (Bytes.bigEndian 32 x ++ Bytes.bigEndian 32 y)
    ⟨hash.toList.drop 12, by simp [hash.length_toList]⟩

def PrivateKey.address (k : PrivateKey) : Address :=
  k.publicPoint.address

end CauldronCalls
