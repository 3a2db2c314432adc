import CauldronCalls.Curve.Point
import CauldronCalls.Hash.Sha256

/-!
Signatures over secp256k1. The secret multiple comes from the key and the digest alone, as RFC 6979 lays down,
so that signing is a function.
-/

namespace CauldronCalls

-- A key's scalar: neither zero nor as large as the order of the group.
structure PrivateKey where
  scalar : Nat
  scalar_pos : 0 < scalar
  scalar_lt_order : scalar < Point.order
deriving DecidableEq

namespace PrivateKey

def ofNat? (n : Nat) : Option PrivateKey :=
  if h : 0 < n ∧ n < Point.order then some ⟨n, h.1, h.2⟩ else none

def publicPoint (k : PrivateKey) : Point :=
  Point.ofScalar k.scalar

end PrivateKey

-- The recovery number has the parity of the point's `y` in its lowest bit, and above it whether `x` was reduced.
structure Signature where
  r : Nat
  s : Nat
  recovery : Nat
deriving DecidableEq, Repr

namespace Signature

-- The generator of secret multiples: a key and a value for the keyed hash.
structure Nonce where
  key : Bytes
  value : Bytes

namespace Nonce

def refresh (seed : Bytes) (n : Nonce) : Nonce :=
  let key := (Sha256.hmac n.key (n.value ++ seed)).toList
  ⟨key, (Sha256.hmac key n.value).toList⟩

def start (key : PrivateKey) (digest : Bytes32) : Nonce :=
  let seed := Bytes.bigEndian 32 key.scalar ++ digest.toList
  let n : Nonce := ⟨List.replicate 32 0, List.replicate 32 1⟩
  (n.refresh (0 :: seed)).refresh (1 :: seed)

def draw (n : Nonce) : Nat × Nonce :=
  let value := (Sha256.hmac n.key n.value).toList
  (Bytes.toNat value, { n with value := value }.refresh [0])

-- The first drawn number that is a scalar, within a number of attempts.
def scalar? : Nat → Nonce → Option Nat
  | 0, _            => none
  | attempts + 1, n =>
    let (k, n) := n.draw
    if 0 < k ∧ k < Point.order then some k else scalar? attempts n

end Nonce

-- A draw misses with a probability of about `2 ^ -128`.
def attempts : Nat := 64

-- The smaller of the two values that make a signature valid; the other one belongs to the mirrored point.
def lowered (r s recovery : Nat) : Signature :=
  if Point.order / 2 < s then ⟨r, Point.order - s, recovery ^^^ 1⟩ else ⟨r, s, recovery⟩

def ofNonce? (key : PrivateKey) (digest : Bytes32) (k : Nat) : Option Signature :=
  match Point.ofScalar k with
  | .infinity   => none
  | .affine x y =>
    let r := x % Point.order
    let z := digest.toNat % Point.order
    let s := Modular.inverse Point.order k * (z + r * key.scalar) % Point.order
    if r = 0 ∨ s = 0 then none
    else some (lowered r s (y % 2 + if r = x then 0 else 2))

def sign? (key : PrivateKey) (digest : Bytes32) : Option Signature := do
  ofNonce? key digest (← (Nonce.start key digest).scalar? attempts)

end Signature

end CauldronCalls
