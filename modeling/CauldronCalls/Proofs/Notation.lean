import CauldronCalls.Proofs.Digit
import Mathlib.Data.Nat.Digits.Defs

/-!
Amounts, byte strings and assets as a writer may choose to write them: in any radix and in either case, with zeros and
underscores, with and without the mark of hexadecimal text. Each is read for what its digits denote.
-/

namespace CauldronCalls

variable {c : Char} {cs ds mark : List Char} {s : String}

namespace Hex

-- Two digits for each byte.
inductive BytesText (bs : Bytes) : List Char → Prop
  | mk {mark ds : List Char} (hm : mark ∈ [[], ['0', 'x'], ['0', 'X']]) (hd : ds.Forall₂ (IsDigitIn 16) (halves bs)) :
    BytesText bs (mark ++ ds)

variable {n : Nat} {vs : List Nat}

theorem value?_ne_none_of_mem (h : ds.Forall₂ IsDigit vs) : ∀ b ∈ Bytes.ofText ds, value? b ≠ none := by
  induction h
  case nil          => exact nofun
  case cons hd _ hi =>
    obtain ⟨b, hb, hv⟩ := hd
    rw [Bytes.ofText, List.flatMap_cons, hb]
    exact List.forall_mem_cons.mpr ⟨by simp [hv], hi⟩

theorem stripMark_ofText (h : ds.Forall₂ IsDigit vs) : stripMark (Bytes.ofText ds) = Bytes.ofText ds := by
  have hv := value?_ne_none_of_mem h
  rw [stripMark.eq_def]
  split
  case h_3 => rfl
  all_goals
    rename_i hs
    rw [hs] at hv
    exact absurd (by decide) <| hv _ (List.mem_cons_of_mem _ List.mem_cons_self)

theorem ofString_text {b : FixedBytes n} (h : BytesText b.toList s.toList) : ofString n s = .ok b := by
  generalize hs : s.toList = cs at h
  obtain @⟨mark, ds, hm, hd⟩ := h
  have hd := hd.imp fun _ _ => IsDigitIn.hex
  refine ofString_of_stripMark hd ?_
  rw [Bytes.ofString, hs]
  simp only [List.mem_cons, List.not_mem_nil, or_false] at hm
  rcases hm with rfl | rfl | rfl
  · exact stripMark_ofText hd
  · rfl
  · rfl

theorem BytesText.length_le {bs : Bytes} (h : BytesText bs cs) : 2 * bs.length ≤ cs.length := by
  obtain ⟨_, hd⟩ := h
  rw [List.length_append, hd.length_eq, length_halves]
  exact Nat.le_add_left _ _

end Hex

namespace Asset

-- The native currency by its name, and a token by its address.
inductive NameText : Asset → List Char → Prop
  | native {cs : List Char} (h : cs.Forall₂ (fun c l => c = l ∨ c = l.toUpper) ['e', 't', 'h']) : NameText .native cs
  | token {t : Address} {cs : List Char} (h : Hex.BytesText t.toList cs) : NameText (.token t) cs

theorem NameText.map_toLower (h : NameText .native cs) : cs.map Char.toLower = ['e', 't', 'h'] := by
  obtain ⟨h⟩ := h
  obtain _ | ⟨rfl | rfl, _ | ⟨rfl | rfl, _ | ⟨rfl | rfl, _ | _⟩⟩⟩ := h <;> decide

theorem ofString_nameText {a : Asset} (h : a.NameText s.toList) : ofString s = .ok a := by
  cases h
  case native h => rw [ofString, if_pos (NameText.native h).map_toLower]
  case token t h =>
    have hn : s.toList.map Char.toLower ≠ ['e', 't', 'h'] := by
      intro he
      have hl := h.length_le
      have he := congrArg List.length he
      rw [t.length_toList] at hl
      rw [List.length_map] at he
      simp only [List.length_cons, List.length_nil] at he
      omega
    rw [ofString, if_neg hn, Address.ofString, Hex.ofString_text h]

end Asset

namespace Uint256

-- The mark of a radix goes before the digits.
inductive MarkText : Radix → List Char → Prop
  | binary {c : Char} (h : c ∈ ['b', 'B']) : MarkText .binary ['0', c]
  | octal {c : Char} (h : c ∈ ['o', 'O']) : MarkText .octal ['0', c]
  | decimal : MarkText .decimal []
  | hexadecimal {c : Char} (h : c ∈ ['x', 'X']) : MarkText .hexadecimal ['0', c]

-- The digits of the values, the most significant one first, with underscores anywhere among them.
inductive DigitsText (base : Nat) : List Nat → List Char → Prop
  | done : DigitsText base [] []
  | underscore {vs : List Nat} {cs : List Char} (h : DigitsText base vs cs) : DigitsText base vs ('_' :: cs)
  | digit {v : Nat} {vs : List Nat} {c : Char} {cs : List Char} (hc : IsDigitIn base c v) (h : DigitsText base vs cs) :
    DigitsText base (v :: vs) (c :: cs)

-- The digits denote the amount, whatever zeros go before them.
inductive NumberText (a : Uint256) : List Char → Prop
  | mk {r : Radix} {mark ds : List Char} {vs : List Nat} (hm : MarkText r mark) (hd : DigitsText r.base vs ds)
      (ha : Nat.ofDigits r.base vs.reverse = a.toNat) :
    NumberText a (mark ++ ds)

namespace Radix

variable {r : Radix} {v n : Nat} {vs : List Nat}

theorem digit?_eq (h : IsDigitIn r.base c v) : r.digit? c = some v := by
  have hv := h.mono base_le |>.value?_eq
  simp [digit?, hv, Option.filter, h.lt]

theorem ofDigits_reverse {b : Nat} : Nat.ofDigits b vs.reverse = vs.foldl (fun n v => v + b * n) 0 := by
  rw [Nat.ofDigits_eq_foldr, List.foldr_reverse]
  rfl

theorem accumulate_text (h : DigitsText r.base vs cs) :
    r.accumulate n cs = some (vs.foldl (fun n v => v + r.base * n) n) := by
  induction h generalizing n
  case done             => rfl
  case underscore hi    => rw [accumulate, hi]
  case digit hc _ hi =>
    rw [accumulate_cons (hc.mono base_le).ne_underscore, digit?_eq hc, Option.bind_some, hi, List.foldl_cons,
      Nat.add_comm]

-- Among decimal digits there is no letter that marks a radix.
theorem not_mark_of_decimal (h : DigitsText 10 vs cs) : ∀ c ∈ cs, c ∉ ['x', 'X', 'o', 'O', 'b', 'B'] := by
  induction h
  case done             => exact nofun
  case underscore hi    => exact List.forall_mem_cons.mpr ⟨by decide, hi⟩
  case digit hc _ hi => exact List.forall_mem_cons.mpr ⟨hc.not_mark, hi⟩

theorem split_decimal (h : DigitsText 10 vs cs) : split cs = (decimal, cs) := by
  have hm := not_mark_of_decimal h
  rw [split.eq_def]
  split
  case h_7 => rfl
  all_goals exact absurd (by decide) <| hm _ (List.mem_cons_of_mem _ List.mem_cons_self)

theorem split_text (hm : MarkText r mark) (hd : DigitsText r.base vs ds) : split (mark ++ ds) = (r, ds) := by
  cases hm
  case decimal => exact split_decimal hd
  all_goals
    rename_i h
    simp only [List.mem_cons, List.not_mem_nil, or_false] at h
    rcases h with rfl | rfl <;> rfl

end Radix

theorem parse?_text {a : Uint256} (h : a.NumberText s.toList) : parse? s = some a := by
  generalize hs : s.toList = cs at h
  obtain ⟨hm, hd, ha⟩ := h
  rw [Radix.ofDigits_reverse] at ha
  simp [parse?, hs, Radix.split_text hm hd, Radix.accumulate_text hd, ha, ofNat?_toNat]

end Uint256

end CauldronCalls
