import CauldronCalls.Asset
import CauldronCalls.Uint256.Literal
import Mathlib.Data.List.Forall2
import Mathlib.Tactic.IntervalCases

/-!
Bytes, addresses, assets and amounts read back from their hexadecimal text. A digit may be written in either case,
so that the checksum in the case of an address's letters does not matter.
-/

namespace CauldronCalls

namespace Hex

variable {c : Char} {cs : List Char} {bs : Bytes} {n v : Nat}

-- The character is a hexadecimal digit of the value, in either case.
def IsDigit (c : Char) (v : Nat) : Prop :=
  ∃ b, String.utf8EncodeChar c = [b] ∧ value? b = some v

-- The values of the two digits of each byte.
def halves (bs : Bytes) : List Nat :=
  bs.flatMap fun b => [b.toNat / 16, b.toNat % 16]

theorem isDigit_digit (h : v < 16) : IsDigit (digit v) v := by
  interval_cases v <;> exact ⟨_, rfl, rfl⟩

theorem isDigit_toUpper (h : v < 16) : IsDigit (digit v).toUpper v := by
  interval_cases v <;> exact ⟨_, rfl, rfl⟩

theorem digits_eq : digits bs = (halves bs).map digit := by
  simp [digits, halves, List.map_flatMap]

theorem lt_of_mem_halves (h : v ∈ halves bs) : v < 16 := by
  have ⟨b, _, h⟩ := List.mem_flatMap.mp h
  have hb := b.toNat_lt
  simp only [List.mem_cons, List.not_mem_nil, or_false] at h
  omega

theorem length_halves : (halves bs).length = 2 * bs.length := by
  induction bs
  case nil            => rfl
  case cons b bs hi =>
    rw [halves, List.flatMap_cons, List.length_append, ← halves, hi]
    simp only [List.length_cons, List.length_nil]
    omega

theorem length_ofText {vs : List Nat} (h : cs.Forall₂ IsDigit vs) : (Bytes.ofText cs).length = vs.length := by
  induction h
  case nil          => rfl
  case cons hd _ hi =>
    have ⟨_, hb, _⟩ := hd
    rw [Bytes.ofText, List.flatMap_cons, hb, List.singleton_append, ← Bytes.ofText, List.length_cons, hi,
      List.length_cons]

-- The bytes are digits of these values.
def Values (ds : Bytes) (vs : List Nat) : Prop :=
  ds.Forall₂ (fun b v => value? b = some v) vs

theorem values_ofText {vs : List Nat} (h : cs.Forall₂ IsDigit vs) : Values (Bytes.ofText cs) vs := by
  induction h
  case nil          => exact .nil
  case cons hd _ hi =>
    obtain ⟨b, hb, hv⟩ := hd
    rw [Bytes.ofText, List.flatMap_cons, hb]
    exact .cons hv hi

theorem pairs_of_values {ds : Bytes} {position : Nat} (h : Values ds (halves bs)) : pairs position ds = .ok bs := by
  induction bs generalizing ds position
  case nil =>
    cases h
    rfl
  case cons b bs hi =>
    obtain _ | ⟨hv₁, _ | ⟨hv₂, h⟩⟩ := h
    have hb : UInt8.ofNat (16 * (b.toNat / 16) + b.toNat % 16) = b := by
      rw [Nat.div_add_mod, UInt8.ofNat_toNat]
    simp only [pairs, hv₁, hv₂]
    rw [hi h]
    simp [Bind.bind, Except.bind, Pure.pure, Except.pure, hb]

theorem ofString_of_stripMark {b : FixedBytes n} {s : String} (h : cs.Forall₂ IsDigit (halves b.toList))
    (hs : stripMark (Bytes.ofString s) = Bytes.ofText cs) : ofString n s = .ok b := by
  have hl : (Bytes.ofText cs).length = 2 * n := by
    rw [length_ofText h, length_halves, b.length_toList]
  rw [ofString, decodeFixed, hs, hl, if_neg (by omega), if_neg (not_not_intro rfl), pairs_of_values (values_ofText h)]
  simp [FixedBytes.ofList?_toList, Bind.bind, Except.bind]

theorem ofString_marked {b : FixedBytes n} (h : cs.Forall₂ IsDigit (halves b.toList)) :
    ofString n (String.ofList ('0' :: 'x' :: cs)) = .ok b := by
  refine ofString_of_stripMark h ?_
  rw [Bytes.ofString, String.toList_ofList]
  rfl

theorem ofString_encode (b : FixedBytes n) : ofString n (encode b.toList) = .ok b := by
  refine ofString_marked ?_
  rw [digits_eq, List.forall₂_map_left_iff, List.forall₂_same]
  exact fun _ h => isDigit_digit <| lt_of_mem_halves h

end Hex

namespace Address

theorem isDigit_raise {v : Nat} {guide : Char} (h : v < 16) : Hex.IsDigit (raise (Hex.digit v) guide) v := by
  rw [raise]
  split
  case isTrue  => exact Hex.isDigit_toUpper h
  case isFalse => exact Hex.isDigit_digit h

theorem isDigit_zipWith_raise {vs : List Nat} {guide : List Char} (hv : ∀ v ∈ vs, v < 16)
    (hl : vs.length ≤ guide.length) : (List.zipWith raise (vs.map Hex.digit) guide).Forall₂ Hex.IsDigit vs := by
  induction vs generalizing guide
  case nil          => exact .nil
  case cons v vs hi =>
    cases guide
    case nil          => contradiction
    case cons c guide =>
      have ⟨hv, hvs⟩ := List.forall_mem_cons.mp hv
      exact .cons (isDigit_raise hv) (hi hvs <| Nat.le_of_succ_le_succ hl)

theorem ofString_checksummed (a : Address) : ofString a.checksummed = .ok a := by
  refine Hex.ofString_marked ?_
  rw [Hex.digits_eq]
  refine isDigit_zipWith_raise (fun _ => Hex.lt_of_mem_halves) ?_
  rw [Hex.digits_eq, List.length_map, Hex.length_halves, Hex.length_halves, FixedBytes.length_toList,
    FixedBytes.length_toList]
  decide

end Address

theorem Asset.ofString_text (a : Asset) : Asset.ofString a.text = .ok a := by
  cases a
  case native  => decide
  case token t =>
    have hn : t.checksummed.toList.map Char.toLower ≠ ['e', 't', 'h'] := by
      rw [Address.checksummed, String.toList_ofList]
      exact fun h => absurd (List.head_eq_of_cons_eq h) (by decide)
    rw [text, ofString, if_neg hn, Address.ofString_checksummed]

namespace Uint256

variable {r : Radix} {cs ds : List Char} {m n d : Nat}

namespace Radix

theorem base_le : r.base ≤ 16 := by
  cases r <;> decide

theorem digit?_digitChar (h : d < r.base) : r.digit? (Nat.digitChar d) = some d := by
  have hl : d < 16 := Nat.lt_of_lt_of_le h base_le
  have hv : value? (Nat.digitChar d) = some d := by
    interval_cases d <;> rfl
  simp [digit?, hv, Option.filter, h]

theorem accumulate_cons {c : Char} (hc : c ≠ '_') :
    r.accumulate m (c :: cs) = (r.digit? c).bind fun v => r.accumulate (r.base * m + v) cs := by
  rw [accumulate]
  · rfl
  · exact hc

theorem accumulate_append : r.accumulate m (cs ++ ds) = (r.accumulate m cs).bind (r.accumulate · ds) := by
  induction cs generalizing m
  case nil          => rfl
  case cons c cs hi =>
    by_cases hc : c = '_'
    case pos => rw [hc, List.cons_append, accumulate, accumulate, hi]
    case neg =>
      rw [List.cons_append, accumulate_cons hc, accumulate_cons hc]
      cases r.digit? c <;> simp [hi]

-- The last digit is accumulated last.
theorem accumulate_toDigits : r.accumulate 0 (Nat.toDigits r.base n) = some n := by
  have hb : 1 < r.base := by cases r <;> decide
  have hs : ∀ m d, d < r.base → r.accumulate m [Nat.digitChar d] = some (r.base * m + d) := by
    intro m d hd
    rw [accumulate_cons (by simp), digit?_digitChar hd]
    rfl
  induction n using Nat.strongRecOn
  case ind n hi =>
    rw [Nat.toDigits_eq_if hb]
    split
    case isTrue hn  => rw [hs _ _ hn, Nat.mul_zero, Nat.zero_add]
    case isFalse hn =>
      have hd : n / r.base < n := Nat.div_lt_self (by omega) hb
      rw [accumulate_append, hi _ hd, Option.bind_some, hs _ _ (Nat.mod_lt _ (by omega)), Nat.div_add_mod]

end Radix

theorem parse?_hex (a : Uint256) : parse? a.hex = some a := by
  have hs : Radix.split a.hex.toList = (.hexadecimal, Nat.toDigits 16 a.toNat) := by
    rw [hex, String.toList_ofList]
    rfl
  have ha : Radix.accumulate .hexadecimal 0 (Nat.toDigits 16 a.toNat) = some a.toNat := Radix.accumulate_toDigits
  simp [parse?, hs, ha, ofNat?_toNat]

end Uint256

end CauldronCalls
