import CauldronCalls.Double

/-!
The shortest decimal text that reads back as a given double.
-/

namespace CauldronCalls.Double

-- The value `digits * 10 ^ exponent`.
structure Decimal where
  digits : Nat
  exponent : Int
deriving DecidableEq, Repr

namespace Shortest

-- Four times the ends of the interval of reals that round to `units`.
def lower (units : Nat) : Nat :=
  let step := spacing units
  4 * units - if units = step <<< 52 ∧ 1 < step then step else 2 * step

def upper (units : Nat) : Nat :=
  4 * units + 2 * spacing units

-- The ends round to `units` too when its significand is even.
def endsIncluded (units : Nat) : Bool :=
  units / spacing units % 2 = 0

-- The factor and the divisor that turn magnitudes into multiples of `10 ^ exponent`.
def factor : Int → Nat
  | .ofNat _   => 1
  | .negSucc k => Nat.pow 10 (k + 1)

def divisor : Int → Nat
  | .ofNat k   => one * Nat.pow 10 k
  | .negSucc _ => one

def readsBack (units : Nat) (d : Decimal) : Bool :=
  let value := 4 * d.digits * divisor d.exponent
  let low := lower units * factor d.exponent
  let high := upper units * factor d.exponent
  if endsIncluded units then low ≤ value && value ≤ high else low < value && value < high

-- The multiple of `10 ^ exponent` next to the value that reads back; of two the nearer, of two equally near the even.
def onGrid? (units : Nat) (exponent : Int) : Option Decimal :=
  let q := units * factor exponent / divisor exponent
  let near := nearest (units * factor exponent) (divisor exponent)
  [near, q, q + 1].findSome? fun n => if readsBack units ⟨n, exponent⟩ then some ⟨n, exponent⟩ else none

-- The exponent of the first digit of a positive magnitude.
def leading (units : Nat) : Int :=
  (Nat.toDigits 10 (units * Nat.pow 10 400 / one)).length - 401

end Shortest

-- Seventeen digits always read back, so that the search ends with a hit.
def shortest (units : Nat) : Decimal :=
  let top := Shortest.leading units
  ((List.range 17).findSome? fun (n : Nat) => Shortest.onGrid? units (top - (n : Nat))).getD ⟨units, 0⟩

def Decimal.normalize (d : Decimal) : List Char × Int :=
  let ds := Nat.toDigits 10 d.digits
  let kept := (ds.reverse.dropWhile (· == '0')).reverse
  (kept, d.exponent + (ds.length - kept.length : Nat))

-- Positional from `1e-5` up to below `1e16`, always with a digit behind the point; else with a signed exponent.
def Decimal.text (d : Decimal) : List Char :=
  let (ds, exponent) := d.normalize
  let point := ds.length + exponent
  if 0 ≤ exponent ∧ point ≤ 16 then ds ++ List.replicate exponent.toNat '0' ++ ['.', '0']
  else if 0 < point ∧ point ≤ 16 then ds.take point.toNat ++ '.' :: ds.drop point.toNat
  else if -5 < point ∧ point ≤ 0 then '0' :: '.' :: List.replicate (-point).toNat '0' ++ ds
  else
    let fraction := if ds.length ≤ 1 then [] else '.' :: ds.drop 1
    let sign := if point ≤ 0 then '-' else '+'
    ds.take 1 ++ fraction ++ 'e' :: sign :: Nat.toDigits 10 (point - 1).natAbs

def text (x : Double) : String :=
  let magnitude := if x.units = 0 then ['0', '.', '0'] else (shortest x.units).text
  String.ofList (if x.negative then '-' :: magnitude else magnitude)

end CauldronCalls.Double
