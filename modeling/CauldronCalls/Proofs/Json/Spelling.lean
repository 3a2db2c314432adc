import CauldronCalls.Proofs.Json.Grammar
import CauldronCalls.Proofs.Json.Value

/-!
Every text of a value is read for the value that it spells, whatever its blanks, its escapes and the notation of its
numbers.
-/

namespace CauldronCalls.Json

variable {c : Char} {cs ds es bs t rest : List Char} {n depth bound : Nat} {x : Json}

section ReadStrings

theorem codeUnit_text (h : UnitText n ds) : codeUnit (ds ++ rest) = .ok (n, rest) := by
  obtain ⟨v₁, v₂, v₃, v₄, hd, rfl⟩ := h
  obtain _ | ⟨h₁, _ | ⟨h₂, _ | ⟨h₃, _ | ⟨h₄, _ | _⟩⟩⟩⟩ := hd
  simp [codeUnit, h₁.utf8Size_eq, h₂.utf8Size_eq, h₃.utf8Size_eq, h₄.utf8Size_eq, h₁.hexDigit?_eq,
    h₂.hexDigit?_eq, h₃.hexDigit?_eq, h₄.hexDigit?_eq]
  omega

-- No character is half of a surrogate pair.
theorem unicodeEscape_unit (h : UnitText c.toNat ds) : unicodeEscape (ds ++ rest) = .ok (c, rest) := by
  have hv : c.toNat < 0xd800 ∨ 0xdfff < c.toNat ∧ c.toNat < 0x110000 := c.valid
  have ht : isTrailing c.toNat = false := by
    simp [isTrailing]
    omega
  have hl : isLeading c.toNat = false := by
    simp [isLeading]
    omega
  simp [unicodeEscape, codeUnit_text h, Outcome.ok_bind, ht, hl, Char.ofNat_toNat]

theorem unicodeEscape_pair {high low : Nat} (hh : high < 0x400) (hl : low < 0x400)
    (hc : c.toNat = 0x10000 + 0x400 * high + low) (hd : UnitText (0xd800 + high) ds)
    (he : UnitText (0xdc00 + low) es) : unicodeEscape (ds ++ ('\\' :: 'u' :: (es ++ rest))) = .ok (c, rest) := by
  have h₁ : isTrailing (0xd800 + high) = false := by
    simp [isTrailing]
    omega
  have h₂ : isLeading (0xd800 + high) = true := by
    simp [isLeading]
    omega
  have h₃ : isTrailing (0xdc00 + low) = true := by
    simp [isTrailing]
    omega
  simp [unicodeEscape, trailingUnit, codeUnit_text hd, codeUnit_text he, Outcome.ok_bind, h₁, h₂, h₃, ← hc,
    Char.ofNat_toNat]

theorem stringBody_text {xs : List Char} (ht : CharText c t) (h : stringBody bound cs = .ok (xs, rest)) :
    stringBody (bound + 1) (t ++ cs) = .ok (c :: xs, rest) := by
  cases ht
  case plain hc hq hb =>
    simp [stringBody, hq, hb, Nat.not_lt.mpr hc, h, Outcome.ok_bind]
  case short l hl =>
    have hu : l ≠ 'u' := by
      rintro rfl
      cases hl
    simp [stringBody, escape, hu, hl, h, Outcome.ok_bind]
  case unit hd =>
    simp [stringBody, escape, unicodeEscape_unit hd, h, Outcome.ok_bind]
  case pair hh hl hc hd he =>
    simp [stringBody, escape, unicodeEscape_pair hh hl hc hd he, h, Outcome.ok_bind]

theorem stringBody_texts {xs : List Char} {ts : List (List Char)} (h : xs.Forall₂ CharText ts)
    (hb : ts.length < bound) : stringBody bound (ts.flatten ++ '"' :: rest) = .ok (xs, rest) := by
  induction h generalizing bound
  case nil =>
    cases bound
    case zero   => contradiction
    case succ _ => rfl
  case cons ht _ hi =>
    cases bound
    case zero       => contradiction
    case succ bound =>
      rw [List.flatten_cons, List.append_assoc]
      exact stringBody_text ht <| hi <| Nat.lt_of_succ_lt_succ hb

theorem CharText.length_pos (h : CharText c t) : 0 < t.length := by
  cases h <;> simp

theorem length_le_flatten {xs : List Char} {ts : List (List Char)} (h : xs.Forall₂ CharText ts) :
    ts.length ≤ ts.flatten.length := by
  induction h
  case nil          => exact Nat.le_refl _
  case cons ht _ hi =>
    have := ht.length_pos
    rw [List.flatten_cons, List.length_append, List.length_cons]
    omega

theorem readString_text {s : String} (h : StringText s cs) (rest : List Char) :
    ∃ ds, cs ++ rest = '"' :: ds ∧ readString ds = .ok (s, rest) := by
  obtain ⟨ts, ht, rfl⟩ := h
  have hl := length_le_flatten ht
  have hb : ts.length < (ts.flatten ++ '"' :: rest).length + 1 := by
    rw [List.length_append]
    omega
  refine ⟨ts.flatten ++ '"' :: rest, by simp, ?_⟩
  rw [readString, stringBody_texts ht hb]
  simp [Outcome.ok_bind]

end ReadStrings

section ReadNumbers

theorem DigitsText.head (h : DigitsText ds) : ((ds ++ cs).head?.map isDigit).getD false = true := by
  obtain ⟨hn, hd⟩ := h
  cases ds
  case nil      => contradiction
  case cons d _ => exact hd d List.mem_cons_self

theorem readWhole_text (h : WholeText ds) (hr : EndsDigits rest) : Numeral.readWhole (ds ++ rest) = .ok (ds, rest) := by
  obtain rfl | ⟨⟨hn, hd⟩, hz⟩ := h
  case inl => simp [Numeral.readWhole, hr.head_not_digit]
  case inr =>
    have hs := hr.span_append hd
    cases ds
    case nil       => contradiction
    case cons d ds =>
      have hc : isDigit d := hd d List.mem_cons_self
      rw [List.cons_append] at hs ⊢
      rw [Numeral.readWhole, if_pos hc, hs]
      simpa using hz

theorem readFraction_text {fs : List Char} (h : FractionText ds fs) (hr : EndsDigits rest)
    (hp : rest.head? ≠ some '.') : Numeral.readFraction (fs ++ rest) = .ok (ds, rest) := by
  cases h
  case absent =>
    rw [List.nil_append, Numeral.readFraction.eq_def]
    split
    case h_1 => simp at hp
    case h_2 => rfl
  case point hd =>
    rw [List.cons_append, Numeral.readFraction, hd.head, if_pos rfl, hr.span_append hd.right]

theorem readSign_text {positive : Bool} {sign : List Char} (hs : SignText positive sign) (hd : DigitsText ds)
    (rest : List Char) :
    Numeral.readSign (sign ++ ds ++ rest) = (positive, ds ++ rest) := by
  cases hs
  case absent =>
    obtain ⟨hn, hd⟩ := hd
    cases ds
    case nil       => contradiction
    case cons d ds =>
      have hc := hd d List.mem_cons_self
      rw [List.nil_append, List.cons_append, Numeral.readSign.eq_def]
      split
      case h_1 hs | h_2 hs =>
        cases hs
        contradiction
      case h_3 => rfl
  case plus | minus => rfl

theorem readExponent_text {e : Option (Bool × List Char)} (h : ExponentText e es) (hr : EndsNumber rest) :
    Numeral.readExponent (es ++ rest) = .ok (e, rest) := by
  cases h
  case absent => exact hr.readExponent
  case power he hs hd =>
    have hg := readSign_text hs hd rest
    simp only [List.mem_cons, List.not_mem_nil, or_false] at he
    rcases he with rfl | rfl <;>
      simp only [List.cons_append, Numeral.readExponent, hg, hd.head, hr.endsDigits.span_append hd.right, if_true]

-- What goes before a point, and before an exponent.
theorem ExponentText.head {e : Option (Bool × List Char)} (h : ExponentText e es) (hr : EndsNumber rest) :
    EndsDigits (es ++ rest) ∧ (es ++ rest).head? ≠ some '.' := by
  cases h
  case absent =>
    refine ⟨hr.endsDigits, fun hp => ?_⟩
    have ⟨_, hm⟩ := hr _ hp
    simp at hm
  case power he _ _ =>
    simp only [List.mem_cons, List.not_mem_nil, or_false] at he
    rcases he with rfl | rfl <;> simp [EndsDigits] <;> decide

theorem FractionText.head {fs : List Char} (h : FractionText ds fs) (hr : EndsDigits rest) :
    EndsDigits (fs ++ rest) := by
  cases h
  case absent  => exact hr
  case point _ => simp [EndsDigits]; decide

theorem read_numeral {n : Numeral} (h : NumeralText n cs) (hr : EndsNumber rest) :
    Numeral.read (cs ++ rest) = .ok (n, rest) := by
  obtain ⟨hw, fs, es, hf, he, rfl⟩ := h
  have ⟨hd, hp⟩ := he.head hr
  rw [List.append_assoc, List.append_assoc, Numeral.read, readWhole_text hw (hf.head hd)]
  simp only [Outcome.ok_bind, readFraction_text hf hd hp, readExponent_text he hr]

theorem WholeText.head (h : WholeText ds) : ∃ c cs, ds = c :: cs ∧ isDigit c := by
  obtain rfl | ⟨⟨hn, hd⟩, -⟩ := h
  case inl => exact ⟨_, _, rfl, by decide⟩
  case inr =>
    cases ds
    case nil      => contradiction
    case cons d _ => exact ⟨d, _, rfl, hd d List.mem_cons_self⟩

theorem readShape_digit {n : Number} (hd : isDigit c) (h : readNumber false (c :: cs) = .ok (n, rest)) :
    readShape (c :: cs) = .ok (.number n, rest) := by
  have hb : isBlank c = false := by
    by_contra hb
    simp only [isBlank, Bool.not_eq_false, Bool.or_eq_true, decide_eq_true_eq] at hb
    rcases hb with ((rfl | rfl) | rfl) | rfl <;> contradiction
  rw [readShape.eq_def, skipBlanks_cons hb]
  split
  case h_9 hs =>
    cases hs
    simp [hd, h, Bind.bind, Except.bind]
  all_goals
    rename_i hs
    cases hs
    try contradiction

theorem readShape_number {n : Number} (h : NumberText n cs) (hr : EndsNumber rest) :
    readShape (cs ++ rest) = .ok (.number n, rest) := by
  cases h
  case plain m hv h =>
    have hn : readNumber false (cs ++ rest) = .ok (n, rest) := by
      simp [readNumber, read_numeral h hr, Outcome.ok_bind, hv]
    obtain ⟨hw, _, _, _, _, rfl⟩ := h
    obtain ⟨c, ds, hc, hd⟩ := hw.head
    rw [hc] at hn ⊢
    exact readShape_digit hd hn
  case minus m cs h hv =>
    have hn : readNumber true (cs ++ rest) = .ok (n, rest) := by
      simp [readNumber, read_numeral h hr, Outcome.ok_bind, hv]
    rw [List.cons_append, readShape.eq_def, skipBlanks_cons (by decide)]
    simp [hn, Outcome.ok_bind]

end ReadNumbers

section ReadValues

-- The text begins with the value, and blanks apart, `rest` is behind it.
def ValueThen (depth : Nat) (cs : List Char) (x : Json) (rest : List Char) : Prop :=
  ∃ ds, ValueAt depth cs x ds ∧ skipBlanks ds = skipBlanks rest

theorem endsNumber_comma : EndsNumber (',' :: cs) :=
  endsNumber_cons (by decide) (by decide)

theorem endsNumber_bracket : EndsNumber (']' :: cs) :=
  endsNumber_cons (by decide) (by decide)

theorem endsNumber_brace : EndsNumber ('}' :: cs) :=
  endsNumber_cons (by decide) (by decide)

theorem endsNumber_blank (hb : Blank bs) (hr : EndsNumber rest) : EndsNumber (bs ++ rest) := by
  cases bs
  case nil      => exact hr
  case cons b _ =>
    have hc := hb b List.mem_cons_self
    simp only [isBlank, Bool.or_eq_true, decide_eq_true_eq] at hc
    rcases hc with ((rfl | rfl) | rfl) | rfl <;> exact endsNumber_cons (by decide) (by decide)

theorem itemsAt_listed {ps : List (Json × List Char)}
    (h : ∀ p ∈ ps, ∀ rest, EndsNumber rest → ValueThen depth (p.2 ++ rest) p.1 rest)
    (hl : Listed (ps.map Prod.snd) cs) : ItemsAt depth true (cs ++ ']' :: rest) (ps.map Prod.fst) rest := by
  induction ps generalizing cs
  case nil =>
    cases hl
    case empty hb => exact ItemsAt.close.congr (skipBlanks_append hb).symm
  case cons p ps hi =>
    have ⟨hp, hps⟩ := List.forall_mem_cons.mp h
    cases ps
    case nil =>
      cases hl
      have ⟨_, hv, hs⟩ := hp (']' :: rest) endsNumber_bracket
      exact .first hv (ItemsAt.close.congr hs.symm)
    case cons q ps =>
      cases hl
      case more cs hl =>
        have ⟨_, hv, hs⟩ := hp (',' :: (cs ++ ']' :: rest)) endsNumber_comma
        rw [List.append_assoc, List.cons_append]
        exact .first hv <| (hi hps hl).comma.congr hs.symm

theorem EntriesAt.member {m : Member} {entries : List (String × Json)} (ht : m.Text t)
    (hv : ValueAt depth (m.text ++ ds) m.value es) (hxs : EntriesAt depth false es entries rest) :
    EntriesAt depth true (t ++ ds) (m.entry :: entries) rest := by
  obtain @⟨before, name, after, hb, hn, ha⟩ := ht
  have ⟨bs, hq, hk⟩ := readString_text hn (after ++ ':' :: (m.text ++ ds))
  refine entriesAt_cons.mpr ⟨after ++ ':' :: (m.text ++ ds), m.text ++ ds, es, ?key, ?colon, hv, hxs⟩
  case key =>
    have hs : before ++ name ++ after ++ ':' :: m.text ++ ds = before ++ '"' :: bs := by
      rw [← hq]
      simp
    rw [hs, nextKey.eq_def, skipBlanks_append hb, skipBlanks_cons (by decide)]
    simp [nextKey.key, hk, Outcome.ok_bind]
  case colon =>
    rw [colon.eq_def, skipBlanks_append ha, skipBlanks_cons (by decide)]
    rfl

theorem entriesAt_members {ms : List Member}
    (h : ∀ m ∈ ms, ∀ rest, EndsNumber rest → ValueThen depth (m.text ++ rest) m.value rest)
    (hm : MembersText ms cs) : EntriesAt depth true (cs ++ '}' :: rest) (ms.map Member.entry) rest := by
  obtain ⟨ts, ht, hl⟩ := hm
  induction ht generalizing cs
  case nil =>
    cases hl
    case empty hb => exact EntriesAt.close.congr (skipBlanks_append hb).symm
  case cons ht hts hi =>
    have ⟨hm, hms⟩ := List.forall_mem_cons.mp h
    cases hl
    case last =>
      cases hts
      have ⟨_, hv, hs⟩ := hm ('}' :: rest) endsNumber_brace
      exact .member ht hv (EntriesAt.close.congr hs.symm)
    case more u cs ts hl =>
      have ⟨_, hv, hs⟩ := hm (',' :: (cs ++ '}' :: rest)) endsNumber_comma
      have hi := hi hms hl
      obtain _ | _ := hts
      rw [List.append_assoc, List.cons_append]
      exact .member ht hv <| hi.comma.congr hs.symm

theorem Spells.valueThen (h : Spells depth x cs) (hr : EndsNumber rest) : ValueThen depth (cs ++ rest) x rest := by
  induction h generalizing rest
  case null | yes | no => exact ⟨rest, valueAt_scalar (by trivial) |>.mpr rfl, rfl⟩
  case number hn       => exact ⟨rest, valueAt_scalar (by trivial) |>.mpr <| readShape_number hn hr, rfl⟩
  case string hs       =>
    obtain ⟨ds, hq, hk⟩ := readString_text hs rest
    refine ⟨rest, valueAt_scalar (by trivial) |>.mpr ?_, rfl⟩
    rw [hq, readShape.eq_def, skipBlanks_cons (by decide)]
    simp [hk, Outcome.ok_bind, shape]
  case array ps cs _ hl hi =>
    have hi : ItemsAt _ true (cs ++ ']' :: rest) _ rest := itemsAt_listed (fun p hp _ => hi p hp) hl
    refine ⟨rest, valueAt_array.mpr ⟨_, _, rfl, ?_, hi⟩, rfl⟩
    rw [List.cons_append, List.cons_append, skipBlanks_cons (by decide), List.append_assoc, List.singleton_append]
  case object ms cs _ hm hi =>
    have hi : EntriesAt _ true (cs ++ '}' :: rest) _ rest := entriesAt_members (fun m hm _ => hi m hm) hm
    refine ⟨rest, valueAt_object.mpr ⟨_, _, rfl, ?_, hi⟩, rfl⟩
    rw [List.cons_append, List.cons_append, skipBlanks_cons (by decide), List.append_assoc, List.singleton_append]
  case blanks hb _ ha hi =>
    obtain ⟨ds, hv, hs⟩ := hi (endsNumber_blank ha hr)
    refine ⟨ds, ?_, hs.trans (skipBlanks_append ha)⟩
    rw [List.append_assoc, List.append_assoc]
    exact hv.congr (skipBlanks_append hb).symm

-- A text that holds nothing but the value.
theorem Spells.valueAt (h : Spells depth x cs) : ∃ rest, ValueAt depth cs x rest ∧ finish rest = .ok () := by
  have ⟨rest, hv, hs⟩ := h.valueThen endsNumber_nil
  rw [List.append_nil] at hv
  refine ⟨rest, hv, ?_⟩
  rw [finish, hs]
  rfl

theorem parse_of_spells {s : String} (h : Spells 127 x s.toList) : parse s = .ok x :=
  parse_eq_ok.mpr h.valueAt

end ReadValues

end CauldronCalls.Json
