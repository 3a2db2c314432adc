import CauldronCalls.Proofs.Hex.Decoding
import CauldronCalls.Proofs.Notation

/-!
Addresses and words as hexadecimal text. One mark goes before the digits or none, and there are two digits for each
byte. A text of another kind is refused for an odd number of bytes, or else for their number, or else for the first of
them that is no digit.
-/

namespace CauldronCalls.Hex

variable {cs ds : List Char} {b : UInt8} {bs text : Bytes} {n : Nat} {s : String} {f : Fault}

-- What is left of a text without its mark. A second mark stays.
inductive Unmarked : List Char → List Char → Prop
  | marked {c : Char} {ds : List Char} (hc : c ∈ ['x', 'X']) : Unmarked ('0' :: c :: ds) ds
  | plain {ds : List Char} (hm : ∀ c ∈ ['x', 'X'], ¬['0', c] <+: ds) : Unmarked ds ds

-- Why the text does not hold `n` bytes, and how it is put.
inductive Misread (n : Nat) (text : Bytes) : Fault → String → Prop
  | oddLength (hl : text.length % 2 = 1) : Misread n text .oddLength "odd number of digits"
  | wrongLength (he : text.length % 2 = 0) (hl : text.length ≠ 2 * n) :
    Misread n text .wrongLength "invalid string length"
  | badDigit {b : UInt8} {position : Nat} (hl : text.length = 2 * n) (hb : FirstBad text b position) :
    Misread n text (.badDigit b position) s!"invalid character {Text.quoteByte b} at position {position}"

theorem exists_unmarked (cs : List Char) : ∃ ds, Unmarked cs ds := by
  by_cases h : ∃ c ∈ ['x', 'X'], ['0', c] <+: cs
  case pos =>
    obtain ⟨c, hc, ds, rfl⟩ := h
    exact ⟨ds, .marked hc⟩
  case neg =>
    push Not at h
    exact ⟨cs, .plain h⟩

-- A byte below 128 at the head of a text is its first character.
theorem exists_cons_of_ofText (h : Bytes.ofText cs = b :: bs) (hb : b.toNat < 128) :
    ∃ ds, (cs = Char.ofNat b.toNat :: ds) ∧ Bytes.ofText ds = bs := by
  cases cs
  case nil       => contradiction
  case cons c cs =>
    rw [Bytes.ofText, List.flatMap_cons, ← Bytes.ofText] at h
    generalize he : String.utf8EncodeChar c = es at h
    cases es
    case nil       => exact absurd he String.utf8EncodeChar_ne_nil
    case cons e es =>
      obtain ⟨rfl, rfl⟩ := List.cons.inj h
      obtain ⟨rfl, rfl⟩ := ascii_of_encode he hb
      exact ⟨cs, rfl, rfl⟩

theorem Unmarked.stripMark_eq (h : Unmarked cs ds) : stripMark (Bytes.ofText cs) = Bytes.ofText ds := by
  cases h
  case marked hc =>
    simp only [List.mem_cons, List.not_mem_nil, or_false] at hc
    obtain rfl | rfl := hc <;> rfl
  case plain hm =>
    rw [stripMark.eq_def]
    split
    case h_3 => rfl
    all_goals
      rename_i hs
      obtain ⟨es, he, hs⟩ := exists_cons_of_ofText hs (by decide)
      obtain ⟨ds, hd, _⟩ := exists_cons_of_ofText hs (by decide)
      rw [he, hd] at hm
      exact absurd ⟨ds, rfl⟩ (hm _ (by decide))

theorem Unmarked.bytesText (h : Unmarked cs ds) (hd : ds.Forall₂ (IsDigitIn 16) (halves bs)) : BytesText bs cs := by
  cases h
  case marked hc =>
    refine @BytesText.mk _ ['0', _] _ ?_ hd
    simpa using hc
  case plain => exact @BytesText.mk _ [] _ (by decide) hd

theorem Misread.message_eq {m : String} (h : Misread n text f m) : m = f.message := by
  cases h <;> rfl

theorem Misread.fault_eq {f₁ f₂ : Fault} {m₁ m₂ : String} (h₁ : Misread n text f₁ m₁) (h₂ : Misread n text f₂ m₂) :
    f₁ = f₂ := by
  cases h₁ <;> cases h₂
  case badDigit.badDigit b₁ k₁ hl hb₁ b₂ k₂ _ hb₂ =>
    exact Garbled.fault_eq (.badDigit (by omega) hb₁) (.badDigit (by omega) hb₂)
  all_goals first | rfl | omega

theorem Values.not_misread {m : String} (h : Values text (halves bs)) (hb : bs.length = n) : ¬Misread n text f m := by
  have hl := h.length_eq
  rw [length_halves] at hl
  intro hf
  cases hf
  case badDigit _ hd => exact h.not_garbled (by simp [length_halves]) (.badDigit (by omega) hd)
  all_goals omega

theorem decodeFixed_outcome (n : Nat) (text : Bytes) :
    (∃ b, (decodeFixed n text = .ok b) ∧ Values (stripMark text) (halves b.toList)) ∨
    (∃ f, (decodeFixed n text = .error f) ∧ Misread n (stripMark text) f f.message) := by
  rw [decodeFixed]
  generalize stripMark text = ds
  split_ifs with ho hl
  case pos => exact .inr ⟨_, rfl, .oddLength ho⟩
  case pos => exact .inr ⟨_, rfl, .wrongLength (by omega) hl⟩
  case neg =>
    have hl : ds.length = 2 * n := by omega
    obtain ⟨bs, hp, hv⟩ | ⟨b, k, hp, hb⟩ := pairs_outcome 0 (by omega : ds.length % 2 = 0)
    case inl =>
      have hb := hv.length_eq
      rw [length_halves] at hb
      refine .inl ⟨⟨bs, by omega⟩, ?_, hv⟩
      rw [hp, Outcome.ok_bind, FixedBytes.ofList?, dif_pos (by omega)]
    case inr =>
      rw [Nat.zero_add] at hp
      exact .inr ⟨_, by rw [hp]; rfl, .badDigit hl hb⟩

theorem exists_halves_eq {vs : List Nat} (h : Values text vs) (hl : vs.length % 2 = 0) : ∃ bs, halves bs = vs := by
  obtain ⟨bs, _, hv⟩ | ⟨f, _, hf⟩ := decode_outcome text
  case inl => exact ⟨bs, hv.unique h⟩
  case inr => exact absurd hf <| h.not_garbled hl

theorem ofString_eq_ok_iff {b : FixedBytes n} : ofString n s = .ok b ↔ BytesText b.toList s.toList := by
  refine ⟨?mp, ofString_text⟩
  case mp =>
    intro h
    rw [ofString] at h
    obtain ⟨ds, hu⟩ := exists_unmarked s.toList
    obtain ⟨b', hb, hv⟩ | ⟨f, hf, _⟩ := decodeFixed_outcome n (Bytes.ofString s)
    case inl =>
      obtain rfl : b' = b := by rwa [hb, Except.ok.injEq] at h
      rw [Bytes.ofString, hu.stripMark_eq] at hv
      exact hu.bytesText <| values_iff.mp hv
    case inr =>
      rw [hf] at h
      contradiction

theorem ofString_eq_error_iff (hu : Unmarked s.toList ds) :
    ofString n s = .error f ↔ Misread n (Bytes.ofText ds) f f.message := by
  rw [ofString, ← hu.stripMark_eq, ← Bytes.ofString]
  obtain ⟨b, hb, hv⟩ | ⟨f', hf, hm⟩ := decodeFixed_outcome n (Bytes.ofString s)
  case inl =>
    rw [hb]
    exact iff_of_false (by simp) (hv.not_misread b.length_toList)
  case inr =>
    rw [hf, Except.error.injEq]
    constructor
    case mp =>
      rintro rfl
      exact hm
    case mpr => exact hm.fault_eq

-- There is a value for every text with the right number of digits.
theorem exists_ofString_iff : (∃ b, ofString n s = .ok b) ↔
    ∃ mark ds vs, (s.toList = mark ++ ds) ∧ mark ∈ [[], ['0', 'x'], ['0', 'X']] ∧ (ds.length = 2 * n) ∧
      ds.Forall₂ (IsDigitIn 16) vs := by
  constructor
  case mp =>
    rintro ⟨b, h⟩
    have h := ofString_eq_ok_iff.mp h
    generalize s.toList = cs at h
    obtain ⟨hm, hd⟩ := h
    exact ⟨_, _, _, rfl, hm, by rw [hd.length_eq, length_halves, b.length_toList], hd⟩
  case mpr =>
    rintro ⟨mark, ds, vs, hs, hm, hl, hd⟩
    rw [hd.length_eq] at hl
    obtain ⟨bs, rfl⟩ := exists_halves_eq (values_iff.mpr hd) (by omega)
    rw [length_halves] at hl
    let b : FixedBytes n := ⟨bs, by omega⟩
    have ht : BytesText b.toList s.toList := by
      rw [hs]
      exact .mk hm hd
    exact ⟨b, ofString_text ht⟩

end CauldronCalls.Hex
