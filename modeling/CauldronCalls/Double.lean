/-!
Finite numbers in double precision, and arithmetic on them that is exact up to the one rounding at its end.
-/

namespace CauldronCalls

-- A magnitude is counted in the least positive double, `2 ^ -1074`, of which every finite one is a multiple.
structure Double where
  negative : Bool
  units : Nat
deriving DecidableEq, Repr

namespace Double

-- The magnitude of the number one.
def one : Nat := 1 <<< 1074

-- The least magnitude that is not finite.
def bound : Nat := 1 <<< 2098

-- The whole number nearest to `num / den`; of two the even one.
def nearest (num den : Nat) : Nat :=
  let q := num / den
  let r := num % den
  if 2 * r < den then q
  else if den < 2 * r then q + 1
  else q + q % 2

-- The distance between neighbouring magnitudes from `units` upwards: fifty-three binary digits are kept.
def spacing (units : Nat) : Nat :=
  1 <<< (units.log2 - 52)

-- The magnitude nearest to `num / den`.
def round (num den : Nat) : Nat :=
  let step := spacing (num / den)
  nearest num (den * step) * step

def ofNat (n : Nat) : Nat :=
  round (n * one) 1

def powerOfTen (k : Nat) : Nat :=
  ofNat (Nat.pow 10 k)

def multiply (x y : Nat) : Nat :=
  round (x * y) one

def divide (x y : Nat) : Nat :=
  round (x * one) y

-- The greatest power of ten that is finite.
def maxPower : Nat := 308

-- One multiplication by a power of ten; nothing where the result is not finite.
def scaleUp? (x k : Nat) : Option Nat :=
  if k ≤ maxPower then
    let y := multiply x (powerOfTen k)
    if y < bound then some y else none
  else if x = 0 then some 0 else none

-- A division by a power of ten, in several steps where the power is not finite.
def scaleDown (x k : Nat) : Nat :=
  if k ≤ maxPower then divide x (powerOfTen k)
  else if x = 0 then 0
  else scaleDown (divide x (powerOfTen maxPower)) (k - maxPower)
termination_by k
decreasing_by simp_all only [maxPower, Nat.not_le]; omega

-- The magnitude of `significand * 10 ^ exponent`. The significand is rounded first, and the scaling again.
def ofDecimal? (significand : Nat) : Int → Option Nat
  | .ofNat k   => scaleUp? (ofNat significand) k
  | .negSucc k => some (scaleDown (ofNat significand) (k + 1))

end Double

end CauldronCalls
