import CauldronCalls.Json.Text
import CauldronCalls.Proofs.Outcome
import Mathlib.Order.Nat

/-!
Whatever a reader of strings takes ends with the closing quote.
-/

namespace CauldronCalls.Json

variable {c : Char} {cs rest : List Char} {n bound : Nat}

theorem length_of_codeUnit (h : codeUnit cs = .ok (n, rest)) : rest.length ≤ cs.length := by
  simp only [codeUnit] at h
  split at h
  case isTrue  => cases h
  case isFalse =>
    split at h
    case h_2 => cases h
    case h_1 =>
      split at h <;> cases h
      rw [List.length_drop]
      omega

theorem length_of_trailingUnit (h : trailingUnit n cs = .ok (c, rest)) : rest.length ≤ cs.length := by
  rw [trailingUnit.eq_def] at h
  split at h
  case h_3 =>
    have ⟨⟨_, _⟩, hu, h⟩ := Outcome.bind_eq_ok.mp h
    have hl := length_of_codeUnit hu
    dsimp only at h
    split at h
    case isTrue =>
      obtain ⟨-, rfl⟩ := Prod.mk.inj <| Except.ok.inj h
      simp only [List.length_cons]
      omega
    case isFalse => cases h
  all_goals cases h

theorem length_of_unicodeEscape (h : unicodeEscape cs = .ok (c, rest)) : rest.length ≤ cs.length := by
  have ⟨⟨_, _⟩, hu, h⟩ := Outcome.bind_eq_ok.mp h
  have hl := length_of_codeUnit hu
  dsimp only at h
  split at h
  case isTrue  => cases h
  case isFalse =>
    split at h
    case isTrue  => exact length_of_trailingUnit h |>.trans hl
    case isFalse =>
      cases h
      exact hl

theorem length_of_escape (h : escape cs = .ok (c, rest)) : rest.length ≤ cs.length := by
  cases cs
  case nil         => cases h
  case cons _ cs =>
    rw [List.length_cons]
    rw [escape] at h
    split at h
    case isTrue  => exact length_of_unicodeEscape h |>.trans (Nat.le_succ _)
    case isFalse =>
      split at h <;> cases h
      exact Nat.le_succ _

theorem length_of_stringBody {xs : List Char} (h : stringBody bound cs = .ok (xs, rest)) :
    rest.length < cs.length := by
  induction bound generalizing cs xs
  case zero => cases h
  case succ bound hi =>
    cases cs
    case nil         => cases h
    case cons c cs =>
      rw [List.length_cons]
      rw [stringBody] at h
      split at h
      case isTrue =>
        cases h
        exact Nat.lt_succ_self _
      case isFalse =>
        split at h
        case isTrue =>
          have ⟨⟨_, _⟩, he, h⟩ := Outcome.bind_eq_ok.mp h
          have ⟨⟨_, _⟩, hb, h⟩ := Outcome.bind_eq_ok.mp h
          cases h
          have he := length_of_escape he
          have hb := hi hb
          omega
        case isFalse =>
          split at h
          case isTrue  => cases h
          case isFalse =>
            have ⟨⟨_, _⟩, hb, h⟩ := Outcome.bind_eq_ok.mp h
            cases h
            exact hi hb |>.trans (Nat.lt_succ_self _)

theorem length_of_readString {s : String} (h : readString cs = .ok (s, rest)) : rest.length < cs.length := by
  have ⟨⟨_, _⟩, hb, h⟩ := Outcome.bind_eq_ok.mp h
  cases h
  exact length_of_stringBody hb

end CauldronCalls.Json
