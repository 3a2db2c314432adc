import CauldronCalls.Address
import CauldronCalls.Uint256
import Mathlib.Algebra.Group.Nat.Defs
import Mathlib.Data.List.Induction

/-!
Words read back: the number of a big-endian word, the address and the amount that a word holds.
-/

namespace CauldronCalls

namespace Bytes

theorem toNat_concat (bs : Bytes) (b : UInt8) : toNat (bs ++ [b]) = 256 * toNat bs + b.toNat := by
  simp [toNat]

theorem toNat_bigEndian (k n : Nat) : toNat (bigEndian k n) = n % 256 ^ k := by
  induction k generalizing n with
  | zero => simp [bigEndian, toNat, Nat.mod_one]
  | succ k hi =>
    rw [bigEndian, toNat_concat, hi, Nat.pow_succ', Nat.mod_mul, UInt8.toNat_ofNat']
    omega

theorem bigEndian_toNat (bs : Bytes) : bigEndian bs.length (toNat bs) = bs := by
  induction bs using List.reverseRecOn
  case nil => rfl
  case append_singleton bs b hi =>
    have hb := b.toNat_lt
    have hd : (256 * toNat bs + b.toNat) / 256 = toNat bs := by omega
    have hm : UInt8.ofNat (256 * toNat bs + b.toNat) = b := by
      apply UInt8.toNat_inj.mp
      rw [UInt8.toNat_ofNat']
      omega
    rw [toNat_concat, List.length_append, List.length_singleton, bigEndian, hd, hm, hi]

end Bytes

namespace FixedBytes

variable {n : Nat}

theorem toList_of_ofList? {bs : Bytes} {b : FixedBytes n} (h : ofList? n bs = some b) : b.toList = bs := by
  rw [ofList?] at h
  split at h <;> cases h
  rfl

theorem ofList?_append (b : FixedBytes n) (bs : Bytes) :
    ofList? n ((b.toList ++ bs).take n) = some b := by
  rw [List.take_left' b.length_toList, ofList?_toList]

theorem drop_append (b : FixedBytes n) (bs : Bytes) : (b.toList ++ bs).drop n = bs :=
  List.drop_left' b.length_toList

theorem toList_inj {a b : FixedBytes n} (h : a.toList = b.toList) : a = b := by
  cases a
  cases b
  cases h
  rfl

theorem toNat_ofNat {v : Nat} (h : v < 256 ^ n) : (ofNat n v).toNat = v := by
  rw [toNat, ofNat, Bytes.toNat_bigEndian, Nat.mod_eq_of_lt h]

theorem bigEndian_toNat (b : FixedBytes n) : Bytes.bigEndian n b.toNat = b.toList := by
  have hb := Bytes.bigEndian_toNat b.toList
  rw [b.length_toList] at hb
  exact hb

theorem ofNat_toNat (b : FixedBytes n) : ofNat n b.toNat = b :=
  toList_inj b.bigEndian_toNat

theorem toNat_lt (b : FixedBytes n) : b.toNat < 256 ^ n := by
  have hb := Bytes.toNat_bigEndian n b.toNat
  have hn : Bytes.toNat (Bytes.bigEndian n b.toNat) = b.toNat := congrArg toNat b.ofNat_toNat
  rw [hn] at hb
  rw [hb]
  exact Nat.mod_lt _ <| Nat.pow_pos (by decide)

end FixedBytes

namespace Uint256

theorem toNat_toWord (a : Uint256) : a.toWord.toNat = a.toNat :=
  FixedBytes.toNat_ofNat a.isLt

theorem ofWord_toWord (a : Uint256) : ofWord a.toWord = a := by
  simp [ofWord, toNat_toWord]

theorem toWord_ofWord (w : Bytes32) : (ofWord w).toWord = w := by
  have hw : w.toNat < 2 ^ 256 := w.toNat_lt
  rw [toWord, ofWord, BitVec.toNat_ofNat, Nat.mod_eq_of_lt hw, w.ofNat_toNat]

theorem toWord_inj {a b : Uint256} (h : a.toWord = b.toWord) : a = b := by
  rw [← ofWord_toWord a, h, ofWord_toWord]

-- A byte keeps its value as an amount.
theorem ofByte_inj {a b : UInt8} (h : BitVec.ofNat 256 a.toNat = BitVec.ofNat 256 b.toNat) : a = b := by
  have h := congrArg BitVec.toNat h
  have ha := a.toNat_lt
  have hb := b.toNat_lt
  simp only [BitVec.toNat_ofNat] at h
  rw [Nat.mod_eq_of_lt (by omega), Nat.mod_eq_of_lt (by omega)] at h
  exact UInt8.toNat_inj.mp h

end Uint256

namespace Address

-- A word holds an address if its first twelve bytes are zero.
def ofWord? (w : Bytes32) : Option Address :=
  if w.toList.take 12 = List.replicate 12 0 then FixedBytes.ofList? 20 (w.toList.drop 12) else none

theorem ofWord?_toWord (a : Address) : ofWord? a.toWord = some a := by
  have ht : a.toWord.toList.take 12 = List.replicate 12 0 := List.take_left' List.length_replicate
  have hd : a.toWord.toList.drop 12 = a.toList := List.drop_left' List.length_replicate
  rw [ofWord?, if_pos ht, hd, FixedBytes.ofList?_toList]

theorem toWord_of_ofWord? {w : Bytes32} {a : Address} (h : ofWord? w = some a) : a.toWord = w := by
  rw [ofWord?] at h
  split at h
  case isFalse => contradiction
  case isTrue hw =>
    apply FixedBytes.toList_inj
    have ha := FixedBytes.toList_of_ofList? h
    calc a.toWord.toList
      _ = List.replicate 12 0 ++ a.toList            := rfl
      _ = w.toList.take 12 ++ w.toList.drop 12       := by rw [ha, hw]
      _ = w.toList                                   := List.take_append_drop ..

end Address

end CauldronCalls
