import CauldronCalls.Proofs.Notation

/-!
Which texts are amounts. A text is taken as a numeral in the radix that its mark names, and it is an amount if and only
if what it denotes is small enough. Nothing is ever cut off.
-/

namespace CauldronCalls.Uint256

variable {r : Radix} {c : Char} {cs ds mark : List Char} {s : String} {n m v : Nat} {vs : List Nat}

-- The text denotes the number, however large. Without digits it denotes zero.
inductive Denotes (v : Nat) : List Char → Prop
  | mk {r : Radix} {mark ds : List Char} {vs : List Nat} (hm : MarkText r mark) (hd : DigitsText r.base vs ds)
      (hv : Nat.ofDigits r.base vs.reverse = v) :
    Denotes v (mark ++ ds)

namespace Radix

theorem isDigitIn_of_digit? (h : r.digit? c = some v) : IsDigitIn r.base c v := by
  obtain ⟨hv, hl⟩ := Option.filter_eq_some_iff.mp h
  have hl : v < r.base := by simpa using hl
  have hb : v < 16 := hl.trans_le base_le
  have hc : Char.ofNat c.toNat = c := Char.ofNat_toNat c
  refine ⟨hl, ?_⟩
  rw [value?] at hv
  generalize c.toNat = n at hv hc
  subst hc
  split_ifs at hv with hn hn hn
  all_goals
    obtain ⟨_, _⟩ := hn
    obtain rfl := Option.some.inj hv
  · interval_cases n <;> decide
  · have : n ≤ 70 := by omega
    interval_cases n <;> decide
  · have : n ≤ 102 := by omega
    interval_cases n <;> decide

theorem digitsText_of_accumulate (h : r.accumulate n cs = some m) :
    ∃ vs, DigitsText r.base vs cs ∧ vs.foldl (fun n v => v + r.base * n) n = m := by
  induction cs generalizing n
  case nil =>
    cases h
    exact ⟨[], .done, rfl⟩
  case cons c cs hi =>
    by_cases hc : c = '_'
    case pos =>
      subst hc
      rw [accumulate] at h
      obtain ⟨vs, hd, hm⟩ := hi h
      exact ⟨vs, .underscore hd, hm⟩
    case neg =>
      rw [accumulate_cons hc] at h
      obtain ⟨v, hv, h⟩ := Option.bind_eq_some_iff.mp h
      obtain ⟨vs, hd, hm⟩ := hi h
      exact ⟨v :: vs, .digit (isDigitIn_of_digit? hv) hd, by rw [List.foldl_cons, Nat.add_comm, hm]⟩

theorem markText_of_split (h : split cs = (r, ds)) : ∃ mark, MarkText r mark ∧ cs = mark ++ ds := by
  rw [split.eq_def] at h
  split at h <;> cases h
  case h_7 => exact ⟨[], .decimal, rfl⟩
  all_goals first
    | exact ⟨_, .hexadecimal (by decide), rfl⟩
    | exact ⟨_, .octal (by decide), rfl⟩
    | exact ⟨_, .binary (by decide), rfl⟩

end Radix

-- A text denotes what its digits come to, in the radix that is named.
theorem denotes_iff : Denotes v cs ↔ (Radix.split cs).1.accumulate 0 (Radix.split cs).2 = some v := by
  constructor
  case mp =>
    rintro ⟨hm, hd, rfl⟩
    rw [Radix.split_text hm hd, Radix.accumulate_text hd, Radix.ofDigits_reverse]
  case mpr =>
    generalize hs : Radix.split cs = p
    obtain ⟨r, ds⟩ := p
    intro h
    obtain ⟨mark, hm, rfl⟩ := Radix.markText_of_split hs
    obtain ⟨vs, hd, rfl⟩ := Radix.digitsText_of_accumulate h
    exact .mk hm hd Radix.ofDigits_reverse

theorem Denotes.unique (h₁ : Denotes n cs) (h₂ : Denotes m cs) : n = m :=
  Option.some.inj <| (denotes_iff.mp h₁).symm.trans (denotes_iff.mp h₂)

theorem ofNat?_eq_some_iff {a : Uint256} : ofNat? n = some a ↔ a.toNat = n := by
  refine ⟨toNat_of_ofNat?, ?mpr⟩
  case mpr =>
    rintro rfl
    exact ofNat?_toNat a

theorem parse?_eq_some_iff {a : Uint256} : parse? s = some a ↔ Denotes a.toNat s.toList := by
  rw [denotes_iff, parse?]
  cases hs : Radix.split s.toList
  simp only [Option.bind_eq_bind, Option.bind_eq_some_iff, ofNat?_eq_some_iff]
  simp

end CauldronCalls.Uint256
