import CauldronCalls.Bytes
import CauldronCalls.Text.Quoted

/-!
Hexadecimal text. Writing is in lower case behind `0x`. Reading takes either case and works on the UTF-8
bytes of the text, so that positions count bytes.
-/

namespace CauldronCalls.Hex

def digit (n : Nat) : Char :=
  Char.ofNat (if n < 10 then 48 + n else 87 + n)

-- The two digits of each byte, in lower case.
def digits (bs : Bytes) : List Char :=
  bs.flatMap fun b => [digit (b.toNat / 16), digit (b.toNat % 16)]

def encode (bs : Bytes) : String :=
  String.ofList ('0' :: 'x' :: digits bs)

-- The value of an ASCII hexadecimal digit of either case.
def value? (b : UInt8) : Option Nat :=
  let n := b.toNat
  if 48 ≤ n ∧ n ≤ 57 then some (n - 48)
  else if 65 ≤ n ∧ n ≤ 70 then some (n - 55)
  else if 97 ≤ n ∧ n ≤ 102 then some (n - 87)
  else none

inductive Fault where
  | oddLength
  | wrongLength
  | badDigit (byte : UInt8) (position : Nat)
deriving DecidableEq, Repr

def Fault.message : Fault → String
  | oddLength           => "odd number of digits"
  | wrongLength         => "invalid string length"
  | badDigit byte place => s!"invalid character {Text.quoteByte byte} at position {place}"

-- The byte of each pair of digits; `position` is the place of the first of them.
def pairs (position : Nat) : Bytes → Except Fault Bytes
  | []          => .ok []
  | [_]         => .error .oddLength
  | a :: b :: r =>
    match value? a, value? b with
    | none, _          => .error (.badDigit a position)
    | some _, none     => .error (.badDigit b (position + 1))
    | some hi, some lo => do
      let bs ← pairs (position + 2) r
      pure (UInt8.ofNat (16 * hi + lo) :: bs)

-- An odd number of digits is reported before a bad one.
def decode (ds : Bytes) : Except Fault Bytes :=
  if ds.length % 2 = 1 then .error .oddLength else pairs 0 ds

-- At most one `0x` or `0X` goes before the digits.
def stripMark : Bytes → Bytes
  | 48 :: 120 :: ds | 48 :: 88 :: ds => ds
  | ds                               => ds

-- Reads exactly `n` bytes: an odd number of digits is reported first, then a wrong one, then a bad digit.
def decodeFixed (n : Nat) (text : Bytes) : Except Fault (FixedBytes n) :=
  let ds := stripMark text
  if ds.length % 2 = 1 then .error .oddLength
  else if ds.length ≠ 2 * n then .error .wrongLength
  else do
    let bs ← pairs 0 ds
    match FixedBytes.ofList? n bs with
    | some b => .ok b
    | none   => .error .wrongLength

def ofString (n : Nat) (s : String) : Except Fault (FixedBytes n) :=
  decodeFixed n (Bytes.ofString s)

end CauldronCalls.Hex
