import CauldronCalls.Uint256

/-!
Amounts as text: digits in base two, eight, ten or sixteen, with underscores anywhere among them. A text
without digits means zero.
-/

namespace CauldronCalls.Uint256

inductive Radix where
  | binary
  | octal
  | decimal
  | hexadecimal
deriving DecidableEq, Repr

namespace Radix

def base : Radix → Nat
  | binary      => 2
  | octal       => 8
  | decimal     => 10
  | hexadecimal => 16

-- The radix that the text's mark names, and the text behind the mark.
def split : List Char → Radix × List Char
  | '0' :: 'x' :: r | '0' :: 'X' :: r => (hexadecimal, r)
  | '0' :: 'o' :: r | '0' :: 'O' :: r => (octal, r)
  | '0' :: 'b' :: r | '0' :: 'B' :: r => (binary, r)
  | r                                 => (decimal, r)

-- The value of an ASCII digit or letter, whatever the base.
def value? (c : Char) : Option Nat :=
  let n := c.toNat
  if 48 ≤ n ∧ n ≤ 57 then some (n - 48)
  else if 65 ≤ n ∧ n ≤ 90 then some (n - 55)
  else if 97 ≤ n ∧ n ≤ 122 then some (n - 87)
  else none

def digit? (r : Radix) (c : Char) : Option Nat :=
  (value? c).filter (· < r.base)

-- The number that the digits in `cs` denote after those that denote `n`.
def accumulate (r : Radix) : Nat → List Char → Option Nat
  | n, []        => some n
  | n, '_' :: cs => r.accumulate n cs
  | n, c :: cs   => do r.accumulate (r.base * n + (← r.digit? c)) cs

end Radix

def parse? (s : String) : Option Uint256 := do
  let (radix, ds) := Radix.split s.toList
  ofNat? (← radix.accumulate 0 ds)

end CauldronCalls.Uint256
