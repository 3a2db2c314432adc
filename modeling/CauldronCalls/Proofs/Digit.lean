import CauldronCalls.Json.Text
import CauldronCalls.Proofs.Hex

/-!
Digits as a writer may choose them: a letter stands for the same value in upper and in lower case. Each reader of
digits agrees.
-/

namespace CauldronCalls

-- The character is the digit of the value `v`, which is below the base.
structure IsDigitIn (base : Nat) (c : Char) (v : Nat) : Prop where
  lt    : v < base
  shows : (c = Nat.digitChar v) ∨ (c = (Nat.digitChar v).toUpper)

namespace IsDigitIn

variable {base v : Nat} {c : Char}

instance : Decidable (IsDigitIn base c v) :=
  decidable_of_iff (v < base ∧ ((c = Nat.digitChar v) ∨ (c = (Nat.digitChar v).toUpper)))
    ⟨fun h => ⟨h.left, h.right⟩, fun h => ⟨h.lt, h.shows⟩⟩

theorem mono {base' : Nat} (h : IsDigitIn base c v) (hb : base ≤ base') : IsDigitIn base' c v :=
  ⟨h.lt.trans_le hb, h.shows⟩

theorem utf8Size_eq (h : IsDigitIn 16 c v) : c.utf8Size = 1 := by
  obtain ⟨hv, rfl | rfl⟩ := h <;> interval_cases v <;> rfl

theorem hexDigit?_eq (h : IsDigitIn 16 c v) : Json.hexDigit? c = some v := by
  obtain ⟨hv, rfl | rfl⟩ := h <;> interval_cases v <;> rfl

theorem hex (h : IsDigitIn 16 c v) : Hex.IsDigit c v := by
  obtain ⟨hv, rfl | rfl⟩ := h <;> interval_cases v <;> exact ⟨_, rfl, rfl⟩

theorem value?_eq (h : IsDigitIn 16 c v) : Uint256.Radix.value? c = some v := by
  obtain ⟨hv, rfl | rfl⟩ := h <;> interval_cases v <;> rfl

theorem ne_underscore (h : IsDigitIn 16 c v) : c ≠ '_' := by
  obtain ⟨hv, rfl | rfl⟩ := h <;> interval_cases v <;> decide

-- No decimal digit marks a radix.
theorem not_mark (h : IsDigitIn 10 c v) : c ∉ ['x', 'X', 'o', 'O', 'b', 'B'] := by
  obtain ⟨hv, rfl | rfl⟩ := h <;> interval_cases v <;> decide

end IsDigitIn

end CauldronCalls
