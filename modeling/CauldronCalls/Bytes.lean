/-!
Byte strings, big-endian numbers and byte strings of a fixed length.
-/

namespace CauldronCalls

abbrev Bytes := List UInt8

namespace Bytes

-- The `k` lowest base-256 digits of `n`, the most significant one first.
def bigEndian : Nat → Nat → Bytes
  | 0, _     => []
  | k + 1, n => bigEndian k (n / 256) ++ [UInt8.ofNat n]

@[simp]
theorem length_bigEndian (k n : Nat) : (bigEndian k n).length = k := by
  induction k generalizing n with
  | zero => rfl
  | succ k ih => simp [bigEndian, ih]

def toNat (bs : Bytes) : Nat :=
  bs.foldl (fun n b => 256 * n + b.toNat) 0

-- The zeros that bring a string of `n` bytes to a multiple of 32.
def padding (n : Nat) : Bytes :=
  List.replicate ((32 - n % 32) % 32) 0

theorem length_append_padding (bs : Bytes) : (bs ++ padding bs.length).length % 32 = 0 := by
  simp only [padding, List.length_append, List.length_replicate]
  omega

-- The bytes of a text in UTF-8.
def ofText (cs : List Char) : Bytes :=
  cs.flatMap String.utf8EncodeChar

def ofString (s : String) : Bytes :=
  ofText s.toList

end Bytes

-- A byte string whose length is part of its type.
structure FixedBytes (n : Nat) where
  toList : Bytes
  length_toList : toList.length = n
deriving DecidableEq

namespace FixedBytes

def ofList? (n : Nat) (bs : Bytes) : Option (FixedBytes n) :=
  if h : bs.length = n then some ⟨bs, h⟩ else none

theorem ofList?_toList {n : Nat} (b : FixedBytes n) : ofList? n b.toList = some b := by
  simp [ofList?, b.length_toList]

-- The last `n` bytes of the big-endian form of `v`.
def ofNat (n v : Nat) : FixedBytes n :=
  ⟨Bytes.bigEndian n v, Bytes.length_bigEndian n v⟩

def toNat {n : Nat} (b : FixedBytes n) : Nat :=
  Bytes.toNat b.toList

def zero (n : Nat) : FixedBytes n :=
  ⟨List.replicate n 0, List.length_replicate⟩

end FixedBytes

abbrev Bytes32 := FixedBytes 32

end CauldronCalls
