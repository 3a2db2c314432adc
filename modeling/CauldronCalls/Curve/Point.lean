import CauldronCalls.Curve.Modular

/-!
The curve `y² = x³ + 7` over the prime field of secp256k1, and its group.
-/

namespace CauldronCalls

inductive Point where
  | infinity
  | affine (x y : Nat)
deriving DecidableEq, Repr

namespace Point

def prime : Nat :=
  0xfffffffffffffffffffffffffffffffffffffffffffffffffffffffefffffc2f

-- The number of points, a prime too.
def order : Nat :=
  0xfffffffffffffffffffffffffffffffebaaedce6af48a03bbfd25e8cd0364141

def generator : Point :=
  affine
    0x79be667ef9dcbbac55a06295ce870b07029bfcdb2dce28d959f2815b16f81798
    0x483ada7726a3c4655da4fbfc0e1108a8fd17b448a68554199c47d08ffb10d4b8

-- Where the line of the given slope through `(x₁, y₁)` and a point above `x₂` meets the curve again, mirrored.
def chord (slope x₁ y₁ x₂ : Nat) : Point :=
  let x := Modular.subtract prime (slope * slope) (x₁ + x₂)
  affine x (Modular.subtract prime (slope * Modular.subtract prime x₁ x) y₁)

def double : Point → Point
  | infinity   => infinity
  | affine x y =>
    if y = 0 then infinity
    else chord (3 * x * x % prime * Modular.inverse prime (2 * y % prime) % prime) x y x

def add : Point → Point → Point
  | infinity, q                  => q
  | p, infinity                  => p
  | affine x₁ y₁, affine x₂ y₂ =>
    if x₁ = x₂ then
      if y₁ = y₂ then double (affine x₁ y₁) else infinity
    else
      let rise := Modular.subtract prime y₂ y₁
      let run := Modular.subtract prime x₂ x₁
      chord (rise * Modular.inverse prime run % prime) x₁ y₁ x₂

-- The multiple `k • p`, where `k` has at most the given number of binary digits.
def multiply (p : Point) : Nat → Nat → Point
  | 0, _        => infinity
  | bits + 1, k =>
    let h := (p.multiply bits (k / 2)).double
    if k % 2 = 1 then h.add p else h

def ofScalar (k : Nat) : Point :=
  generator.multiply 256 k

end Point

end CauldronCalls
