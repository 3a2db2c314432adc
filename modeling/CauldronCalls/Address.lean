import CauldronCalls.Bytes.Hex
import CauldronCalls.Hash.Keccak

/-!
Account addresses and their three written forms: any hexadecimal digits when read, lower case or with the
checksum in the case of the letters when written.
-/

namespace CauldronCalls

abbrev Address := FixedBytes 20

namespace Address

def zero : Address :=
  FixedBytes.zero 20

def ofString (s : String) : Except Hex.Fault Address :=
  Hex.ofString 20 s

def lower (a : Address) : String :=
  Hex.encode a.toList

-- A letter is upper case where the digit at its place in the other number is eight or more.
def raise (c guide : Char) : Char :=
  if c.isAlpha && '8' ≤ guide then c.toUpper else c

-- The checksummed form: the hash of the lower-case digits, as text, decides the case of each letter.
def checksummed (a : Address) : String :=
  let ds := Hex.digits a.toList
  let guide := Hex.digits (Keccak.hash (Bytes.ofText ds)).toList
  String.ofList ('0' :: 'x' :: List.zipWith raise ds guide)

-- Twelve zero bytes go before an address that fills a word.
def toWord (a : Address) : Bytes32 :=
  ⟨List.replicate 12 0 ++ a.toList, by simp [a.length_toList]⟩

theorem toWord_inj {a b : Address} (h : a.toWord = b.toWord) : a = b := by
  cases a
  cases b
  simpa [toWord] using h

end Address

end CauldronCalls
