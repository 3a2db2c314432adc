import CauldronCalls.Json
import CauldronCalls.Json.Malformed

/-!
Numbers in JSON texts: first their form, then the value that the form denotes.
-/

namespace CauldronCalls.Json

def isDigit (c : Char) : Bool :=
  '0' ≤ c && c ≤ '9'

def digitValue (c : Char) : Nat :=
  c.toNat - 48

-- The digits of an unsigned number. A fraction that is absent has none.
structure Numeral where
  whole : List Char
  fraction : List Char
  exponent : Option (Bool × List Char)
deriving DecidableEq, Repr

namespace Numeral

-- A single zero, or digits that begin with another one.
def readWhole : List Char → Scan Malformed (List Char × List Char)
  | []        => .error ⟨.endInValue, []⟩
  | '0' :: cs => if (cs.head?.map isDigit).getD false then .error ⟨.invalidNumber, cs⟩ else .ok (['0'], cs)
  | c :: cs   => if isDigit c then .ok ((c :: cs).span isDigit) else .error ⟨.invalidNumber, dropByte (c :: cs)⟩

def readFraction : List Char → Scan Malformed (List Char × List Char)
  | '.' :: cs =>
    if (cs.head?.map isDigit).getD false then .ok (cs.span isDigit)
    else .error ⟨if cs.isEmpty then .endInValue else .invalidNumber, cs⟩
  | cs        => .ok ([], cs)

-- The sign of an exponent; true is positive.
def readSign : List Char → Bool × List Char
  | '+' :: cs => (true, cs)
  | '-' :: cs => (false, cs)
  | cs        => (true, cs)

def readExponent : List Char → Scan Malformed (Option (Bool × List Char) × List Char)
  | 'e' :: cs | 'E' :: cs =>
    let (positive, cs) := readSign cs
    if (cs.head?.map isDigit).getD false then
      let (ds, cs) := cs.span isDigit
      .ok (some (positive, ds), cs)
    else if cs.isEmpty then .error ⟨.endInValue, []⟩
    else .error ⟨.invalidNumber, dropByte cs⟩
  | cs                    => .ok (none, cs)

def read (cs : List Char) : Scan Malformed (Numeral × List Char) := do
  let (whole, cs) ← readWhole cs
  let (fraction, cs) ← readFraction cs
  let (exponent, cs) ← readExponent cs
  .ok (⟨whole, fraction, exponent⟩, cs)

-- Takes digits into the significand while it stays below `2 ^ 64`, and counts the digits that are left out.
def absorb : Nat → List Char → Nat × Nat
  | n, []      => (n, 0)
  | n, d :: ds =>
    let m := 10 * n + digitValue d
    if m < UInt64.size then absorb m ds else (n, ds.length + 1)

def exponentValue : Option (Bool × List Char) → Int
  | none                => 0
  | some (positive, ds) =>
    let n := ds.foldl (fun n d => 10 * n + digitValue d) 0
    if positive then n else -n

-- A number without point and exponent is an integer as long as it fits; there is no negative zero among them.
def integer? (n : Numeral) (isNegative : Bool) : Option Number :=
  let (m, left) := absorb 0 n.whole
  if n.fraction ≠ [] ∨ n.exponent.isSome ∨ left ≠ 0 then none
  else if !isNegative then some (.natural m)
  else if 0 < m ∧ m ≤ UInt64.size / 2 then some (.negative m)
  else none

-- The double that a numeral is read as, unless it is out of range.
def double? (n : Numeral) (isNegative : Bool) : Option Number :=
  let (m, left) := absorb 0 n.whole
  let (m, leftOfFraction) := absorb m n.fraction
  let exponent := exponentValue n.exponent + left - (n.fraction.length - leftOfFraction : Nat)
  (Double.ofDecimal? m exponent).map fun units => .double ⟨isNegative, units⟩

def value? (n : Numeral) (isNegative : Bool) : Option Number :=
  n.integer? isNegative <|> n.double? isNegative

-- A reader that finds a number out of range stops as soon as the exponent exceeds 31 bits.
def unread : Nat → List Char → List Char
  | _, []      => []
  | n, d :: ds =>
    let m := 10 * n + digitValue d
    if 1 <<< 31 ≤ m then ds else unread m ds

def unreadDigits (n : Numeral) : List Char :=
  match n.exponent with
  | none         => []
  | some (_, ds) => unread 0 ds

end Numeral

-- A number, from its first digit on.
def readNumber (isNegative : Bool) (cs : List Char) : Scan Malformed (Number × List Char) := do
  let (n, cs) ← Numeral.read cs
  match n.value? isNegative with
  | some v => .ok (v, cs)
  | none   => .error ⟨.numberOutOfRange, n.unreadDigits ++ cs⟩

-- A number that nobody reads only needs the form of one.
def skipNumber (cs : List Char) : Scan Malformed (List Char) :=
  match Numeral.read cs with
  | .ok (_, cs) => .ok cs
  | .error e    => .error ⟨.invalidNumber, e.rest⟩

def printNumber : Number → List Char
  | .natural n  => Nat.toDigits 10 n
  | .negative n => '-' :: Nat.toDigits 10 n
  | .double _   => []

end CauldronCalls.Json
