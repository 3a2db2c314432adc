import CauldronCalls.Bytes

/-!
Unsigned 256-bit amounts, their big-endian words and their decimal and hexadecimal text.
-/

namespace CauldronCalls

abbrev Uint256 := BitVec 256

namespace Uint256

-- Refuses a number that does not fit instead of reducing it.
def ofNat? (n : Nat) : Option Uint256 :=
  if h : n < 2 ^ 256 then some (BitVec.ofNatLT n h) else none

theorem toNat_of_ofNat? {n : Nat} {a : Uint256} (h : ofNat? n = some a) : a.toNat = n := by
  unfold ofNat? at h
  split at h
  · simp only [Option.some.injEq] at h
    simp [← h]
  · simp at h

theorem ofNat?_toNat (a : Uint256) : ofNat? a.toNat = some a := by
  unfold ofNat?
  rw [dif_pos a.isLt]
  simp

-- The largest amount stands for every sum that exceeds it.
def saturatingAdd (a b : Uint256) : Uint256 :=
  (ofNat? (a.toNat + b.toNat)).getD (BitVec.allOnes 256)

def toWord (a : Uint256) : Bytes32 :=
  FixedBytes.ofNat 32 a.toNat

def ofWord (w : Bytes32) : Uint256 :=
  BitVec.ofNat 256 w.toNat

def decimal (a : Uint256) : String :=
  toString a.toNat

-- Lower-case digits without leading zeros.
def hex (a : Uint256) : String :=
  String.ofList ('0' :: 'x' :: Nat.toDigits 16 a.toNat)

end Uint256

end CauldronCalls
