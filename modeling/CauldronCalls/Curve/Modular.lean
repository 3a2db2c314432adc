/-!
Arithmetic of residues: powers by repeated squaring, and inverses modulo a prime.
-/

namespace CauldronCalls.Modular

-- The power `a ^ e` modulo `m`, where `e` has at most the given number of binary digits.
def power (m a : Nat) : Nat → Nat → Nat
  | 0, _        => 1 % m
  | bits + 1, e =>
    let h := power m a bits (e / 2)
    let square := h * h % m
    if e % 2 = 1 then square * a % m else square

-- By Fermat's theorem, where `m` is a prime below `2 ^ 256` that does not divide `a`.
def inverse (m a : Nat) : Nat :=
  power m a 256 (m - 2)

def subtract (m a b : Nat) : Nat :=
  (a + (m - b % m)) % m

end CauldronCalls.Modular
