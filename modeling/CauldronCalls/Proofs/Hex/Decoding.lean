import CauldronCalls.Proofs.Bytes
import CauldronCalls.Proofs.Digit
import CauldronCalls.Proofs.Outcome
import Mathlib.Data.Nat.Digits.Defs

/-!
When the hexadecimal digits of a text are read, and what is said of those that are not: an odd number of bytes comes
before a byte that is no digit, and of those the first one is reported.
-/

namespace CauldronCalls

namespace Hex

variable {b : UInt8} {bs ds : Bytes} {c : Char} {cs : List Char} {v : Nat} {vs : List Nat} {f : Fault}

-- The byte is a hexadecimal digit of either case.
def IsDigitByte (b : UInt8) : Prop :=
  ∃ c v, IsDigitIn 16 c v ∧ String.utf8EncodeChar c = [b]

-- The byte at the position is the first one that is no digit.
structure FirstBad (ds : Bytes) (b : UInt8) (position : Nat) : Prop where
  place  : ds[position]? = some b
  bad    : ¬IsDigitByte b
  before : ∀ k < position, ∀ d, ds[k]? = some d → IsDigitByte d

-- What is wrong with bytes that are not read as digits.
inductive Garbled (ds : Bytes) : Fault → Prop
  | oddLength (hl : ds.length % 2 = 1) : Garbled ds .oddLength
  | badDigit {b : UInt8} {position : Nat} (hl : ds.length % 2 = 0) (hb : FirstBad ds b position) :
    Garbled ds (.badDigit b position)

theorem FirstBad.position_eq {b₁ b₂ : UInt8} {k₁ k₂ : Nat} (h₁ : FirstBad ds b₁ k₁) (h₂ : FirstBad ds b₂ k₂) :
    k₁ = k₂ := by
  obtain hk | hk | hk := Nat.lt_trichotomy k₁ k₂
  · exact absurd (h₂.before _ hk _ h₁.place) h₁.bad
  · exact hk
  · exact absurd (h₁.before _ hk _ h₂.place) h₂.bad

theorem isDigitIn_of_value? (h : value? b = some v) :
    IsDigitIn 16 (Char.ofNat b.toNat) v ∧ String.utf8EncodeChar (Char.ofNat b.toNat) = [b] := by
  have hb : UInt8.ofNat b.toNat = b := UInt8.ofNat_toNat
  rw [value?] at h
  generalize b.toNat = n at h hb
  subst hb
  split_ifs at h with hn hn hn
  all_goals
    obtain ⟨_, _⟩ := hn
    obtain rfl := Option.some.inj h
    interval_cases n <;> exact ⟨by decide, rfl⟩

theorem isDigitByte_iff : IsDigitByte b ↔ ∃ v, value? b = some v := by
  constructor
  case mp =>
    rintro ⟨c, v, hd, hc⟩
    obtain ⟨b', hc', hv⟩ := hd.hex
    obtain rfl : b = b' := by simpa [hc] using hc'
    exact ⟨v, hv⟩
  case mpr =>
    rintro ⟨v, hv⟩
    obtain ⟨hd, hc⟩ := isDigitIn_of_value? hv
    exact ⟨_, v, hd, hc⟩

theorem not_isDigitByte (h : value? b = none) : ¬IsDigitByte b := by
  rw [isDigitByte_iff, h]
  simp

-- A byte below 128 encodes a character alone. What goes before the other bytes of a character is at least 192.
theorem ascii_of_encode (hc : String.utf8EncodeChar c = b :: bs) (hb : b.toNat < 128) :
    bs = [] ∧ c = Char.ofNat b.toNat := by
  rw [String.utf8EncodeChar] at hc
  split_ifs at hc <;> obtain ⟨rfl, rfl⟩ := List.cons.inj hc
  case pos hn =>
    have hn : (UInt8.ofNat c.toNat).toNat = c.toNat := by
      rw [UInt8.toNat_ofNat']
      exact Nat.mod_eq_of_lt (Nat.lt_of_le_of_lt hn (by decide))
    refine ⟨rfl, ?_⟩
    change c = Char.ofNat (UInt8.ofNat c.toNat).toNat
    rw [hn, Char.ofNat_toNat]
  all_goals
    rw [UInt8.toNat_ofNat'] at hb
    omega

theorem isDigitIn_of_encode (hc : String.utf8EncodeChar c = b :: bs) (hv : value? b = some v) :
    bs = [] ∧ IsDigitIn 16 c v := by
  have hb : b.toNat < 128 := by
    simp only [value?] at hv
    split_ifs at hv <;> omega
  obtain ⟨rfl, rfl⟩ := ascii_of_encode hc hb
  exact ⟨rfl, isDigitIn_of_value? hv |>.left⟩

theorem IsDigit.isDigitIn (h : IsDigit c v) : IsDigitIn 16 c v := by
  obtain ⟨_, hc, hv⟩ := h
  exact isDigitIn_of_encode hc hv |>.right

theorem forall₂_of_values (h : Values (Bytes.ofText cs) vs) : cs.Forall₂ (IsDigitIn 16) vs := by
  induction cs generalizing vs
  case nil =>
    cases h
    exact .nil
  case cons c cs hi =>
    rw [Bytes.ofText, List.flatMap_cons, ← Bytes.ofText] at h
    generalize hb : String.utf8EncodeChar c = bs at h
    cases bs
    case nil       => exact absurd hb String.utf8EncodeChar_ne_nil
    case cons b bs =>
      obtain _ | ⟨hv, h⟩ := h
      obtain ⟨rfl, hd⟩ := isDigitIn_of_encode hb hv
      exact .cons hd (hi h)

theorem values_iff : Values (Bytes.ofText cs) vs ↔ cs.Forall₂ (IsDigitIn 16) vs :=
  ⟨forall₂_of_values, fun h => values_ofText <| h.imp fun _ _ => IsDigitIn.hex⟩

-- The number of the bytes, digit by digit.
theorem ofDigits_halves : Nat.ofDigits 16 (halves bs).reverse = Bytes.toNat bs := by
  induction bs using List.reverseRecOn
  case nil => rfl
  case append_singleton bs b hi =>
    have hb : (halves (bs ++ [b])).reverse = b.toNat % 16 :: b.toNat / 16 :: (halves bs).reverse := by
      simp [halves]
    rw [hb, Nat.ofDigits_cons, Nat.ofDigits_cons, hi, Bytes.toNat_concat]
    omega

theorem firstBad_zero (h : value? b = none) : FirstBad (b :: ds) b 0 where
  place  := rfl
  bad    := not_isDigitByte h
  before := by simp

theorem FirstBad.cons {d : UInt8} {k : Nat} (hd : value? d = some v) (h : FirstBad ds b k) :
    FirstBad (d :: ds) b (k + 1) where
  place  := h.place
  bad    := h.bad
  before := by
    intro j hj d' hd'
    cases j
    case zero   =>
      cases hd'
      exact isDigitByte_iff.mpr ⟨v, hd⟩
    case succ j => exact h.before j (Nat.lt_of_succ_lt_succ hj) d' hd'

-- Digits in pairs are read to the end, or as far as the first byte that is no digit.
theorem pairs_outcome (position : Nat) (hl : ds.length % 2 = 0) :
    (∃ bs, (pairs position ds = .ok bs) ∧ Values ds (halves bs)) ∨
    (∃ b k, (pairs position ds = .error (.badDigit b (position + k))) ∧ FirstBad ds b k) := by
  induction position, ds using pairs.induct
  case case1 => exact .inl ⟨[], rfl, .nil⟩
  case case2 => contradiction
  case case3 position a b r ha =>
    refine .inr ⟨a, 0, ?_, firstBad_zero ha⟩
    simp only [pairs, ha, Nat.add_zero]
  case case4 position a b r hi hb ha =>
    refine .inr ⟨b, 1, ?_, firstBad_zero hb |>.cons ha⟩
    simp only [pairs, ha, hb]
  case case5 position a b r hi lo hb ha hr =>
    have hl : r.length % 2 = 0 := by
      rw [List.length_cons, List.length_cons] at hl
      omega
    rw [pairs, ha, hb]
    obtain ⟨bs, hp, hv⟩ | ⟨d, k, hp, hd⟩ := hr hl
    case inl =>
      refine .inl ⟨UInt8.ofNat (16 * hi + lo) :: bs, by simp only [hp]; rfl, ?_⟩
      have hhi := isDigitIn_of_value? ha |>.left.lt
      have hlo := isDigitIn_of_value? hb |>.left.lt
      have hn : (UInt8.ofNat (16 * hi + lo)).toNat = 16 * hi + lo := by
        rw [UInt8.toNat_ofNat']
        omega
      have hh : halves (UInt8.ofNat (16 * hi + lo) :: bs) = hi :: lo :: halves bs := by
        rw [halves, List.flatMap_cons, hn, ← halves, Nat.mul_add_div (by decide), Nat.mul_add_mod, Nat.mod_eq_of_lt hlo,
          Nat.div_eq_of_lt hlo]
        rfl
      rw [hh]
      exact .cons ha (.cons hb hv)
    case inr =>
      refine .inr ⟨d, k + 2, ?_, hd.cons hb |>.cons ha⟩
      simp only [hp, Nat.add_assoc, Nat.add_comm 2 k]
      rfl

theorem Values.unique {ws : List Nat} (h₁ : Values ds vs) (h₂ : Values ds ws) : vs = ws :=
  List.right_unique_forall₂' (fun _ _ _ h₁ h₂ => Option.some.inj (h₁.symm.trans h₂)) h₁ h₂

theorem Values.not_garbled (h : Values ds vs) (hl : vs.length % 2 = 0) : ¬Garbled ds f := by
  rw [← h.length_eq] at hl
  intro hf
  cases hf
  case oddLength     => omega
  case badDigit hb =>
    obtain ⟨v, _, hv⟩ := Outcome.getElem?_of_forall₂ h hb.place
    exact hb.bad <| isDigitByte_iff.mpr ⟨v, hv⟩

theorem Garbled.fault_eq {f₁ f₂ : Fault} (h₁ : Garbled ds f₁) (h₂ : Garbled ds f₂) : f₁ = f₂ := by
  cases h₁ <;> cases h₂
  case oddLength.oddLength => rfl
  case badDigit.badDigit b₁ k₁ _ hb₁ b₂ k₂ _ hb₂ =>
    obtain rfl := hb₁.position_eq hb₂
    obtain rfl := Option.some.inj <| hb₁.place.symm.trans hb₂.place
    rfl
  all_goals omega

theorem decode_outcome (ds : Bytes) :
    (∃ bs, (decode ds = .ok bs) ∧ Values ds (halves bs)) ∨ (∃ f, (decode ds = .error f) ∧ Garbled ds f) := by
  rw [decode]
  split
  case isTrue hl  => exact .inr ⟨_, rfl, .oddLength hl⟩
  case isFalse hl =>
    have hl : ds.length % 2 = 0 := by omega
    obtain h | ⟨b, k, hp, hb⟩ := pairs_outcome 0 hl
    case inl => exact .inl h
    case inr =>
      rw [Nat.zero_add] at hp
      exact .inr ⟨_, hp, .badDigit hl hb⟩

theorem decode_eq_ok_iff : decode ds = .ok bs ↔ Values ds (halves bs) := by
  constructor
  case mp =>
    intro h
    obtain ⟨bs', hb, hv⟩ | ⟨f, hf, _⟩ := decode_outcome ds <;> simp_all
  case mpr =>
    intro h
    have hl := h.length_eq
    rw [length_halves] at hl
    rw [decode, if_neg (by omega), pairs_of_values h]

theorem decode_eq_error_iff : decode ds = .error f ↔ Garbled ds f := by
  constructor
  case mp =>
    intro h
    obtain ⟨bs, hb, _⟩ | ⟨f', hf, hg⟩ := decode_outcome ds <;> simp_all
  case mpr =>
    intro h
    obtain ⟨bs, _, hv⟩ | ⟨f', hf, hg⟩ := decode_outcome ds
    case inl => exact absurd h <| hv.not_garbled <| by simp [length_halves]
    case inr => rw [hf, hg.fault_eq h]

end Hex

end CauldronCalls
