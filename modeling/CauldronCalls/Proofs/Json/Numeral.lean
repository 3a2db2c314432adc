import CauldronCalls.Json.Numeral
import CauldronCalls.Proofs.Outcome
import Mathlib.Data.List.TakeDrop

/-!
Where the digits of a number end, and what their value is while it is small. A reader of numbers takes at least one
digit.
-/

namespace CauldronCalls.Json

variable {c : Char} {cs ds rest : List Char} {m n : Nat}

section Digits

-- The text behind a number begins with nothing that would belong to the number.
def EndsNumber (rest : List Char) : Prop :=
  ∀ c ∈ rest.head?, isDigit c = false ∧ c ∉ ['.', 'e', 'E']

theorem endsNumber_nil : EndsNumber [] :=
  fun _ h => nomatch h

theorem endsNumber_cons (hd : isDigit c = false) (hc : c ∉ ['.', 'e', 'E']) : EndsNumber (c :: cs) :=
  fun _ h => Option.some.inj h ▸ ⟨hd, hc⟩

-- The text does not begin with a digit.
def EndsDigits (rest : List Char) : Prop :=
  ∀ c ∈ rest.head?, isDigit c = false

namespace EndsDigits

theorem head_not_digit (h : EndsDigits rest) : (rest.head?.map isDigit).getD false = false := by
  cases hh : rest.head?
  case none   => rfl
  case some c => exact h c hh

theorem span_append (h : EndsDigits rest) (hd : ∀ c ∈ ds, isDigit c) : (ds ++ rest).span isDigit = (ds, rest) := by
  rw [List.span_eq_takeWhile_dropWhile, List.takeWhile_append_of_pos hd, List.dropWhile_append_of_pos hd]
  cases rest
  case nil      => simp
  case cons c _ => simp [h c rfl]

end EndsDigits

namespace EndsNumber

theorem endsDigits (h : EndsNumber rest) : EndsDigits rest :=
  fun c hc => h c hc |>.left

theorem readExponent (h : EndsNumber rest) : Numeral.readExponent rest = .ok (none, rest) := by
  rw [Numeral.readExponent.eq_def]
  split
  case h_1 => simpa using h _ rfl
  case h_2 => simpa using h _ rfl
  case h_3 => rfl

end EndsNumber

theorem isDigit_of_mem_toDigits (h : c ∈ Nat.toDigits 10 n) : isDigit c := by
  have hd := Nat.isDigit_of_mem_toDigits (by decide) (by decide) h
  simpa [isDigit, Char.isDigit, Char.le_def] using hd

theorem head_toDigits (h : 0 < n) : ∃ c cs, Nat.toDigits 10 n = c :: cs ∧ c ≠ '0' := by
  induction n using Nat.strongRecOn
  case ind n hi =>
    rw [Nat.toDigits_eq_if (by decide)]
    split
    case isTrue  => exact ⟨_, _, rfl, fun hz => by simp at hz; omega⟩
    case isFalse =>
      have ⟨c, cs, hc, hz⟩ := hi (n / 10) (by omega) (by omega)
      exact ⟨c, _, by rw [hc, List.cons_append], hz⟩

theorem le_ofDigitChars : m ≤ Nat.ofDigitChars 10 ds m := by
  induction ds generalizing m
  case nil         => exact Nat.le_refl _
  case cons d ds hi =>
    rw [Nat.ofDigitChars_cons]
    exact Nat.le_trans (by omega) hi

-- No digit is left out while the number is small enough.
theorem absorb_eq (h : Nat.ofDigitChars 10 ds m < UInt64.size) :
    Numeral.absorb m ds = (Nat.ofDigitChars 10 ds m, 0) := by
  induction ds generalizing m
  case nil         => rfl
  case cons d ds hi =>
    rw [Nat.ofDigitChars_cons] at h ⊢
    have hm : 10 * m + digitValue d < UInt64.size := Nat.lt_of_le_of_lt le_ofDigitChars h
    rw [Numeral.absorb, if_pos hm]
    exact hi h

end Digits

section Length

theorem length_of_span (h : cs.span isDigit = (ds, rest)) : rest.length ≤ cs.length := by
  rw [List.span_eq_takeWhile_dropWhile] at h
  cases h
  exact List.dropWhile_suffix _ |>.length_le

theorem length_of_span_cons (hc : isDigit c) (h : (c :: cs).span isDigit = (ds, rest)) : rest.length ≤ cs.length := by
  rw [List.span_eq_takeWhile_dropWhile, List.dropWhile_cons_of_pos hc] at h
  cases h
  exact List.dropWhile_suffix _ |>.length_le

theorem length_of_readWhole (h : Numeral.readWhole cs = .ok (ds, rest)) : rest.length < cs.length := by
  rw [Numeral.readWhole.eq_def] at h
  split at h
  case h_1 => cases h
  case h_2 =>
    split at h <;> cases h
    exact Nat.lt_succ_self _
  case h_3 c cs _ =>
    split at h
    case isFalse => cases h
    case isTrue hd =>
      exact Nat.lt_succ_of_le <| length_of_span_cons hd <| Except.ok.inj h

theorem length_of_readFraction (h : Numeral.readFraction cs = .ok (ds, rest)) : rest.length ≤ cs.length := by
  rw [Numeral.readFraction.eq_def] at h
  split at h
  case h_1 cs =>
    split at h
    case isFalse => cases h
    case isTrue  =>
      exact Nat.le_succ_of_le <| length_of_span <| Except.ok.inj h
  case h_2 =>
    cases h
    exact Nat.le_refl _

theorem length_of_readExponent {e : Option (Bool × List Char)} (h : Numeral.readExponent cs = .ok (e, rest)) :
    rest.length ≤ cs.length := by
  have hs : ∀ cs, (Numeral.readSign cs).2.length ≤ cs.length := by
    intro cs
    rw [Numeral.readSign.eq_def]
    split <;> simp
  rw [Numeral.readExponent.eq_def] at h
  split at h
  case h_3 =>
    cases h
    exact Nat.le_refl _
  all_goals
    rename_i cs
    dsimp only at h
    split at h
    case isTrue =>
      have ⟨_, hr⟩ := Prod.mk.inj <| Except.ok.inj h
      rw [← hr, List.length_cons]
      exact Nat.le_succ_of_le <| Nat.le_trans (length_of_span rfl) (hs cs)
    case isFalse => split at h <;> cases h

theorem length_of_readNumber {isNegative : Bool} {v : Number} (h : readNumber isNegative cs = .ok (v, rest)) :
    rest.length < cs.length := by
  have ⟨⟨_, _⟩, hn, h⟩ := Outcome.bind_eq_ok.mp h
  have ⟨⟨_, _⟩, hw, hn⟩ := Outcome.bind_eq_ok.mp hn
  have ⟨⟨_, _⟩, hf, hn⟩ := Outcome.bind_eq_ok.mp hn
  have ⟨⟨_, _⟩, he, hn⟩ := Outcome.bind_eq_ok.mp hn
  cases hn
  have hw := length_of_readWhole hw
  have hf := length_of_readFraction hf
  have he := length_of_readExponent he
  dsimp only at h
  split at h <;> cases h
  omega

end Length

end CauldronCalls.Json
