import CauldronCalls.KeyText
import CauldronCalls.Proofs.Hex.Decoding
import Mathlib.Data.List.DropRight

/-!
Private keys as a user may write them. What is left of a text without the blanks around it and without one mark spells a
number, or it is refused for the first thing that is wrong with it.
-/

namespace CauldronCalls

namespace Text

variable {body cs : List Char}

-- The text between the blanks at both ends of another one.
structure Trims (body cs : List Char) : Prop where
  around : ∃ before after, (cs = before ++ body ++ after) ∧ (∀ c ∈ before ++ after, isBlank c = true)
  first  : ∀ c ∈ body.head?, isBlank c = false
  last   : ∀ c ∈ body.getLast?, isBlank c = false

theorem dropWhile_blanks {before : List Char} (hb : ∀ c ∈ before, isBlank c = true)
    (hf : ∀ c ∈ cs.head?, isBlank c = false) : (before ++ cs).dropWhile isBlank = cs := by
  rw [List.dropWhile_append_of_pos hb]
  cases cs
  case nil       => rfl
  case cons c cs => simp [hf c rfl]

theorem trims_trim (cs : List Char) : Trims (trim cs) cs := by
  have hs : cs.takeWhile isBlank ++ cs.dropWhile isBlank = cs := List.takeWhile_append_dropWhile
  have hf := List.head?_dropWhile_not isBlank cs
  generalize hd : cs.dropWhile isBlank = ds at hs hf
  have hl : ds.rdropWhile isBlank ++ ds.rtakeWhile isBlank = ds := List.rdropWhile_append_rtakeWhile
  have ht : trim cs = ds.rdropWhile isBlank := by rw [← hd]; rfl
  rw [ht]
  constructor
  case around =>
    refine ⟨_, _, by rw [List.append_assoc, hl, hs], ?_⟩
    rw [List.forall_mem_append]
    exact ⟨fun _ => List.mem_takeWhile_imp, fun _ => List.mem_rtakeWhile_imp⟩
  case first =>
    intro c hc
    have hn := List.ne_nil_of_mem (List.mem_of_mem_head? hc)
    have hc : ds.head? = some c := by rw [← hl, List.head?_append_of_ne_nil _ hn, hc]
    simpa [hc] using hf
  case last =>
    intro c hc
    obtain ⟨h, rfl⟩ := List.mem_getLast?_eq_getLast hc
    simpa using List.rdropWhile_last_not isBlank ds h

theorem Trims.trim_eq (h : Trims body cs) : trim cs = body := by
  obtain ⟨before, after, rfl, hb⟩ := h.around
  rw [List.forall_mem_append] at hb
  rw [trim, List.append_assoc]
  by_cases hn : body = []
  case pos =>
    subst hn
    rw [List.nil_append, List.dropWhile_eq_nil_iff.mpr (List.forall_mem_append.mpr hb)]
    rfl
  case neg =>
    have hf : ∀ c ∈ (body ++ after).head?, isBlank c = false := by
      rw [List.head?_append_of_ne_nil _ hn]
      exact h.first
    have hl : ∀ c ∈ body.reverse.head?, isBlank c = false := by
      rw [List.head?_reverse]
      exact h.last
    have ha : ∀ c ∈ after.reverse, isBlank c = true := by
      simpa using hb.right
    rw [dropWhile_blanks hb.left hf, List.reverse_append, dropWhile_blanks ha hl, List.reverse_reverse]

theorem trim_eq_iff : trim cs = body ↔ Trims body cs := by
  refine ⟨?mp, Trims.trim_eq⟩
  case mp =>
    rintro rfl
    exact trims_trim cs

end Text

namespace PrivateKey

variable {s : String} {ds : List Char} {d : Nat} {k : PrivateKey} {f : Fault}

-- What is read of a text: the blanks around it do not count, nor does one `0x` before the rest.
inductive Leaves (s : String) : List Char → Prop
  | marked {ds : List Char} (h : Text.Trims ('0' :: 'x' :: ds) s.toList) : Leaves s ds
  | plain {ds : List Char} (h : Text.Trims ds s.toList) (hm : ¬['0', 'x'] <+: ds) : Leaves s ds

-- The digits denote the number, the most significant one first. There are two of them for each byte of a key.
inductive Spells (d : Nat) (ds : List Char) : Prop
  | mk {vs : List Nat} {n : Nat} (hd : ds.Forall₂ (IsDigitIn 16) vs) (hl : ds.length = 2 * n) (hn : 24 ≤ n ∧ n ≤ 32)
    (hv : Nat.ofDigits 16 vs.reverse = d)

-- Why digits are refused, and how it is put.
inductive Refuses (ds : List Char) : Fault → String → Option String → Prop
  | oddLength (hl : (Bytes.ofText ds).length % 2 = 1) :
    Refuses ds (.notHex .oddLength) "private key is not hex" (some "Odd number of digits")
  | badDigit {b : UInt8} {k : Nat} (hl : (Bytes.ofText ds).length % 2 = 0) (hb : Hex.FirstBad (Bytes.ofText ds) b k) :
    Refuses ds (.notHex (.badDigit b k)) "private key is not hex"
      (some s!"Invalid character {Text.quoteByte b} at position {k}")
  | invalid {vs : List Nat} (hd : ds.Forall₂ (IsDigitIn 16) vs) (hl : ds.length % 2 = 0)
      (hn : ∀ d, Spells d ds → d = 0 ∨ Point.order ≤ d) :
    Refuses ds .invalid "invalid private key: signature error" none

theorem leaves_iff : Leaves s ds ↔ stripMark (Text.trim s.toList) = ds := by
  constructor
  case mp =>
    intro h
    cases h
    case marked h =>
      rw [h.trim_eq]
      rfl
    case plain h hm =>
      rw [h.trim_eq, stripMark.eq_def]
      split
      case h_1 => simp at hm
      case h_2 => rfl
  case mpr =>
    generalize hb : Text.trim s.toList = body
    have h := Text.trim_eq_iff.mp hb
    rintro rfl
    rw [stripMark.eq_def]
    split
    case h_1 ds     => exact .marked h
    case h_2 ds hm =>
      refine .plain h ?_
      rintro ⟨ds, rfl⟩
      exact hm ds rfl

theorem existsUnique_leaves (s : String) : ∃! ds, Leaves s ds :=
  ⟨_, leaves_iff.mpr rfl, fun _ h => (leaves_iff.mp h).symm⟩

theorem Spells.unique {e : Nat} (h₁ : Spells d ds) (h₂ : Spells e ds) : d = e := by
  obtain ⟨hd₁, _, _, rfl⟩ := h₁
  obtain ⟨hd₂, _, _, rfl⟩ := h₂
  rw [(Hex.values_iff.mpr hd₁).unique (Hex.values_iff.mpr hd₂)]

theorem spells_iff {bs : Bytes} (h : Hex.Values (Bytes.ofText ds) (Hex.halves bs)) :
    Spells d ds ↔ (24 ≤ bs.length ∧ bs.length ≤ 32) ∧ Bytes.toNat bs = d := by
  constructor
  case mp =>
    rintro ⟨hd, hl, hn, rfl⟩
    obtain rfl := (Hex.values_iff.mpr hd).unique h
    rw [hd.length_eq, Hex.length_halves] at hl
    exact ⟨by omega, Hex.ofDigits_halves.symm⟩
  case mpr =>
    rintro ⟨hn, rfl⟩
    have hd := Hex.values_iff.mp h
    exact .mk hd (by rw [hd.length_eq, Hex.length_halves]) hn Hex.ofDigits_halves

theorem ofText?_of_decode {bs : Bytes} (h : Leaves s ds) (hb : Hex.decode (Bytes.ofText ds) = .ok bs) :
    ofText? (some s) = ofBytes bs := by
  rw [ofText?, ofText, leaves_iff.mp h, hb]

theorem ofText?_of_garbled {f : Hex.Fault} (h : Leaves s ds) (hf : Hex.decode (Bytes.ofText ds) = .error f) :
    ofText? (some s) = .error (.notHex f) := by
  rw [ofText?, ofText, leaves_iff.mp h, hf]

theorem ofNat?_eq_some_iff {n : Nat} : ofNat? n = some k ↔ n = k.scalar := by
  constructor
  case mp =>
    rw [ofNat?]
    split <;> rintro ⟨⟩
    rfl
  case mpr =>
    rintro rfl
    rw [ofNat?, dif_pos ⟨k.scalar_pos, k.scalar_lt_order⟩]

theorem ofBytes_eq_ok_iff {bs : Bytes} :
    ofBytes bs = .ok k ↔ (24 ≤ bs.length ∧ bs.length ≤ 32) ∧ Bytes.toNat bs = k.scalar := by
  rw [ofBytes, ← ofNat?_eq_some_iff]
  split
  case isTrue hl  => cases ofNat? (Bytes.toNat bs) <;> simp [hl]
  case isFalse hl => simp [hl]

theorem ofBytes_eq_error {bs : Bytes} (h : ofBytes bs = .error f) : f = .invalid := by
  rw [ofBytes] at h
  split at h
  case isFalse =>
    cases h
    rfl
  case isTrue =>
    split at h <;> cases h
    rfl

theorem Spells.not_garbled {f : Hex.Fault} (h : Spells d ds) : ¬Hex.Garbled (Bytes.ofText ds) f := by
  obtain ⟨hd, hl, _, _⟩ := h
  refine Hex.values_iff.mpr hd |>.not_garbled ?_
  rw [← hd.length_eq]
  omega

theorem ofText?_eq_ok_iff (h : Leaves s ds) : ofText? (some s) = .ok k ↔ Spells k.scalar ds := by
  cases hb : Hex.decode (Bytes.ofText ds)
  case ok bs   => rw [ofText?_of_decode h hb, ofBytes_eq_ok_iff, spells_iff (Hex.decode_eq_ok_iff.mp hb)]
  case error f =>
    rw [ofText?_of_garbled h hb]
    exact iff_of_false (by simp) fun hd => hd.not_garbled <| Hex.decode_eq_error_iff.mp hb

theorem ofBytes_eq_invalid_iff {bs : Bytes} (h : Hex.Values (Bytes.ofText ds) (Hex.halves bs)) :
    ofBytes bs = .error .invalid ↔ ∀ d, Spells d ds → (d = 0 ∨ Point.order ≤ d) := by
  constructor
  case mp =>
    intro hf d hd
    by_contra hn
    let k : PrivateKey := ⟨d, by omega, by omega⟩
    have hk : ofBytes bs = .ok k := ofBytes_eq_ok_iff.mpr <| (spells_iff h).mp hd
    rw [hf] at hk
    contradiction
  case mpr =>
    intro hn
    obtain ⟨k, hk⟩ | ⟨f, hf⟩ := Outcome.ok_or_error (ofBytes bs)
    case inl =>
      have hp := k.scalar_pos
      have hl := k.scalar_lt_order
      have hd := hn _ <| (spells_iff h).mpr <| ofBytes_eq_ok_iff.mp hk
      omega
    case inr =>
      obtain rfl := ofBytes_eq_error hf
      exact hf

theorem refuses_iff_of_values {bs : Bytes} (h : Hex.Values (Bytes.ofText ds) (Hex.halves bs)) :
    Refuses ds f f.message f.cause? ↔ ofBytes bs = .error f := by
  have hl : (Hex.halves bs).length % 2 = 0 := by simp [Hex.length_halves]
  constructor
  case mp =>
    generalize f.message = m, f.cause? = c
    intro hf
    cases hf
    case oddLength ho   => exact absurd (.oddLength ho) (h.not_garbled hl)
    case badDigit he hb => exact absurd (.badDigit he hb) (h.not_garbled hl)
    case invalid hn     => exact (ofBytes_eq_invalid_iff h).mpr hn
  case mpr =>
    intro hf
    obtain rfl := ofBytes_eq_error hf
    have hd := Hex.values_iff.mp h
    exact .invalid hd (by rw [hd.length_eq, hl]) <| (ofBytes_eq_invalid_iff h).mp hf

theorem refuses_iff_of_garbled {f' : Hex.Fault} (h : Hex.Garbled (Bytes.ofText ds) f') :
    Refuses ds f f.message f.cause? ↔ f = .notHex f' := by
  constructor
  case mp =>
    generalize f.message = m, f.cause? = c
    intro hf
    cases hf
    case oddLength hl    => rw [h.fault_eq (.oddLength hl)]
    case badDigit hl hb  => rw [h.fault_eq (.badDigit hl hb)]
    case invalid hd hl _ => exact absurd h <| (Hex.values_iff.mpr hd).not_garbled (by rw [← hd.length_eq, hl])
  case mpr =>
    rintro rfl
    cases h
    case oddLength hl   => exact .oddLength hl
    case badDigit hl hb => exact .badDigit hl hb

theorem ofText?_eq_error_iff (h : Leaves s ds) : ofText? (some s) = .error f ↔ Refuses ds f f.message f.cause? := by
  cases hb : Hex.decode (Bytes.ofText ds)
  case ok bs    => rw [ofText?_of_decode h hb, refuses_iff_of_values (Hex.decode_eq_ok_iff.mp hb)]
  case error f' =>
    rw [ofText?_of_garbled h hb, refuses_iff_of_garbled (Hex.decode_eq_error_iff.mp hb), Except.error.injEq, eq_comm]

theorem ext {k₁ k₂ : PrivateKey} (h : k₁.scalar = k₂.scalar) : k₁ = k₂ := by
  cases k₁
  cases k₂
  cases h
  rfl

-- A text is read as a key if and only if it spells a scalar in range, which is then the key's. Any other text is
-- refused for an odd number of digits, or else for the first byte that is none, or else as no key.
theorem ofText?_reads (s : String) : (∃! ds, Leaves s ds) ∧ (∀ ds, Leaves s ds →
    ((∃ k, ofText? (some s) = .ok k) ↔ (∃ d, Spells d ds ∧ 1 ≤ d ∧ d < Point.order)) ∧
    (∀ k, ofText? (some s) = .ok k → Spells k.scalar ds) ∧
    (∀ f, ofText? (some s) = .error f ↔ Refuses ds f f.message f.cause?) ∧
    (∀ s' ds' d k k', Leaves s' ds' → Spells d ds → Spells d ds' → ofText? (some s) = .ok k →
      ofText? (some s') = .ok k' → (k = k') ∧ (k.address = k'.address))) := by
  refine ⟨existsUnique_leaves s, fun ds h => ⟨⟨?accepted, ?read⟩, fun k => (ofText?_eq_ok_iff h).mp,
    fun f => ofText?_eq_error_iff h, ?same⟩⟩
  case accepted =>
    rintro ⟨k, hk⟩
    exact ⟨k.scalar, (ofText?_eq_ok_iff h).mp hk, k.scalar_pos, k.scalar_lt_order⟩
  case read =>
    rintro ⟨d, hd, hp, hl⟩
    exact ⟨⟨d, hp, hl⟩, (ofText?_eq_ok_iff h).mpr hd⟩
  case same =>
    intro s' ds' d k k' h' hd hd' hk hk'
    have he : k.scalar = d := (ofText?_eq_ok_iff h).mp hk |>.unique hd
    have he' : k'.scalar = d := (ofText?_eq_ok_iff h').mp hk' |>.unique hd'
    obtain rfl : k = k' := ext (he.trans he'.symm)
    exact ⟨rfl, rfl⟩

-- The shortest text of the key ten, among blanks of two kinds.
theorem ofText?_reads_ten :
    let s := "\u3000\u00a00x00000000000000000000000000000000000000000000000A\n"
    ∃ k, ofText? (some s) = .ok k ∧ k.scalar = 10 := by
  intro s
  have hl : Leaves s (List.replicate 47 '0' ++ ['A']) := leaves_iff.mpr (by decide)
  have hs : Spells 10 (List.replicate 47 '0' ++ ['A']) :=
    @Spells.mk _ _ (List.replicate 47 0 ++ [10]) 24 (by decide) rfl (by decide) (by decide)
  have h := ofText?_reads _ |>.right _ hl
  obtain ⟨k, hk⟩ := h.left.mpr ⟨10, hs, by decide, by decide⟩
  exact ⟨k, hk, (h.right.left k hk).unique hs⟩

end PrivateKey

end CauldronCalls
