import CauldronCalls.Json.Printer
import CauldronCalls.Proofs.Json.Spelling

/-!
What is printed spells the value, on one line as well as on indented lines. So it is read back.
-/

namespace CauldronCalls.Json

variable {c : Char} {cs bs t : List Char} {n depth level : Nat} {k : String} {x : Json} {xs : List Json}
  {entries : List (String × Json)} {m m' : Member} {ms : List Member}

-- A value without doubles, whose integers fit a reader's 64 bits and whose brackets a reader's depth.
mutual

def Fits : Nat → Json → Prop
  | _, .null                => True
  | _, .boolean _           => True
  | _, .number (.natural n) => n < UInt64.size
  | _, .number _            => False
  | _, .string _            => True
  | 0, .array _             => False
  | 0, .object _            => False
  | depth + 1, .array xs    => ItemsFit depth xs
  | depth + 1, .object xs   => EntriesFit depth xs

def ItemsFit : Nat → List Json → Prop
  | _, []          => True
  | depth, x :: xs => Fits depth x ∧ ItemsFit depth xs

def EntriesFit : Nat → List (String × Json) → Prop
  | _, []               => True
  | depth, (_, x) :: xs => Fits depth x ∧ EntriesFit depth xs

end

section Parts

theorem charText_printChar : CharText c (printChar c) := by
  by_cases hs : c ∈ ['"', '\\', '\x08', '\x0c', '\n', '\r', '\t']
  case pos =>
    simp only [List.mem_cons, List.not_mem_nil, or_false] at hs
    rcases hs with rfl | rfl | rfl | rfl | rfl | rfl | rfl <;> exact .short rfl
  case neg =>
    simp only [List.mem_cons, List.not_mem_nil, or_false, not_or] at hs
    by_cases hc : c.toNat < 0x20
    case pos =>
      have hp : printChar c =
          ['\\', 'u', '0', '0', Nat.digitChar (c.toNat / 16), Nat.digitChar (c.toNat % 16)] := by
        simp [printChar, hs, hc]
      rw [hp]
      refine .unit ⟨0, 0, c.toNat / 16, c.toNat % 16, ?_, by omega⟩
      exact .cons ⟨by decide, .inl rfl⟩ <| .cons ⟨by decide, .inl rfl⟩ <| .cons ⟨by omega, .inl rfl⟩ <|
        .cons ⟨by omega, .inl rfl⟩ .nil
    case neg =>
      have hp : printChar c = [c] := by simp [printChar, hs, hc]
      exact hp ▸ .plain (Nat.le_of_not_lt hc) hs.left hs.right.left

theorem stringText_printString : StringText k (printString k) := by
  refine ⟨k.toList.map printChar, ?_, ?_⟩
  · exact List.forall₂_map_right_iff.mpr <| List.forall₂_same.mpr fun _ _ => charText_printChar
  · rw [printString, List.flatMap_def]

theorem wholeText_toDigits : WholeText (Nat.toDigits 10 n) := by
  cases Nat.eq_zero_or_pos n
  case inl hn =>
    subst hn
    exact .inl rfl
  case inr hn =>
    have ⟨c, cs, hc, hz⟩ := head_toDigits hn
    refine .inr ⟨⟨Nat.toDigits_ne_nil, fun _ => isDigit_of_mem_toDigits⟩, ?_⟩
    rw [hc]
    simpa using hz

theorem numberText_toDigits (hn : n < UInt64.size) : NumberText (.natural n) (Nat.toDigits 10 n) := by
  have hv : Nat.ofDigitChars 10 (Nat.toDigits 10 n) 0 = n := Nat.ofDigitChars_ten_toDigits
  have ha : Numeral.absorb 0 (Nat.toDigits 10 n) = (n, 0) := by
    rw [absorb_eq (by rwa [hv]), hv]
  have ht : NumeralText ⟨Nat.toDigits 10 n, [], none⟩ (Nat.toDigits 10 n) :=
    ⟨wholeText_toDigits, [], [], .absent, .absent, by simp⟩
  exact .plain ht <| by simp [Numeral.value?, Numeral.integer?, ha]

theorem Spells.items (ps : List (Json × List Char)) (hx : ps.map Prod.fst = xs) (hs : ∀ p ∈ ps, Spells depth p.1 p.2)
    (hl : Listed (ps.map Prod.snd) cs) : Spells (depth + 1) (.array xs) ('[' :: cs ++ [']']) :=
  hx ▸ .array hs hl

theorem Spells.members (ms : List Member) (hx : ms.map Member.entry = entries)
    (hs : ∀ m ∈ ms, Spells depth m.value m.text) (hm : MembersText ms cs) :
    Spells (depth + 1) (.object entries) ('{' :: cs ++ ['}']) :=
  hx ▸ .object hs hm

theorem listed_nil : Listed [] [] :=
  .empty nofun

theorem MembersText.nil : MembersText [] [] :=
  ⟨[], .nil, listed_nil⟩

theorem MembersText.single (ht : m.Text t) : MembersText [m] t :=
  ⟨[t], .cons ht .nil, .last⟩

theorem MembersText.cons (ht : m.Text t) (h : MembersText (m' :: ms) cs) :
    MembersText (m :: m' :: ms) (t ++ ',' :: cs) := by
  obtain ⟨_, _ | ⟨ht', hts⟩, hl⟩ := h
  exact ⟨_, .cons ht (.cons ht' hts), .more hl⟩

theorem memberText_print (bs : List Char) (hb : Blank bs) :
    Member.Text ⟨k, x, cs⟩ (bs ++ printString k ++ ':' :: cs) := by
  have h : Member.Text ⟨k, x, cs⟩ (bs ++ printString k ++ [] ++ ':' :: cs) := .mk hb stringText_printString nofun
  rwa [List.append_nil] at h

end Parts

section Compact

mutual

theorem spells_compact {x : Json} {depth : Nat} (h : Fits depth x) : Spells depth x x.compact := by
  match x, depth, h with
  | .null, _, _                => exact .null
  | .boolean true, _, _        => exact .yes
  | .boolean false, _, _       => exact .no
  | .number (.natural _), _, h => exact .number <| numberText_toDigits h
  | .string _, _, _            => exact .string stringText_printString
  | .array xs, depth + 1, h    =>
    have ⟨ps, hx, hs, hl⟩ := spells_compactItems h
    exact .items ps hx hs hl
  | .object xs, depth + 1, h   =>
    have ⟨ms, hx, hs, hm⟩ := spells_compactEntries h
    exact .members ms hx hs hm

theorem spells_compactItems {xs : List Json} {depth : Nat} (h : ItemsFit depth xs) :
    ∃ ps : List (Json × List Char), ps.map Prod.fst = xs ∧ (∀ p ∈ ps, Spells depth p.1 p.2) ∧
      Listed (ps.map Prod.snd) (compactItems xs) := by
  match xs, h with
  | [], _           => exact ⟨[], rfl, nofun, listed_nil⟩
  | [x], h          => exact ⟨[(x, x.compact)], rfl, List.forall_mem_singleton.mpr <| spells_compact h.left, .last⟩
  | x :: y :: ys, h =>
    have ⟨ps, hx, hs, hl⟩ := spells_compactItems h.right
    cases ps
    case nil => contradiction
    exact ⟨(x, x.compact) :: _, congrArg _ hx, List.forall_mem_cons.mpr ⟨spells_compact h.left, hs⟩, .more hl⟩

theorem spells_compactEntries {entries : List (String × Json)} {depth : Nat} (h : EntriesFit depth entries) :
    ∃ ms : List Member, ms.map Member.entry = entries ∧ (∀ m ∈ ms, Spells depth m.value m.text) ∧
      MembersText ms (compactEntries entries) := by
  match entries, h with
  | [], _              => exact ⟨[], rfl, nofun, .nil⟩
  | [(k, x)], h        =>
    exact ⟨[⟨k, x, x.compact⟩], rfl, List.forall_mem_singleton.mpr <| spells_compact h.left,
      .single <| memberText_print [] nofun⟩
  | (k, x) :: e :: es, h =>
    have ⟨ms, hx, hs, hm⟩ := spells_compactEntries h.right
    cases ms
    case nil => contradiction
    exact ⟨⟨k, x, x.compact⟩ :: _, congrArg _ hx, List.forall_mem_cons.mpr ⟨spells_compact h.left, hs⟩,
      .cons (memberText_print [] nofun) hm⟩

end

end Compact

section Pretty

theorem blank_newLine (level : Nat) : Blank (newLine level) := by
  intro c hc
  rw [newLine, List.mem_cons, List.mem_replicate] at hc
  rcases hc with rfl | ⟨_, rfl⟩ <;> rfl

theorem blank_space : Blank [' '] :=
  List.forall_mem_singleton.mpr rfl

theorem blank_nil : Blank [] :=
  nofun

-- The blanks behind the last item, or the last member, are taken for its own.
mutual

theorem spells_pretty {x : Json} {depth : Nat} (level : Nat) (h : Fits depth x) : Spells depth x (x.pretty level) := by
  match x, depth, h with
  | .null, _, _                     => exact .null
  | .boolean true, _, _             => exact .yes
  | .boolean false, _, _            => exact .no
  | .number (.natural _), _, h      => exact .number <| numberText_toDigits h
  | .string _, _, _                 => exact .string stringText_printString
  | .array [], depth + 1, _         => exact .items [] rfl nofun listed_nil
  | .object [], depth + 1, _        => exact .members [] rfl nofun .nil
  | .array (_ :: _), depth + 1, h   =>
    have ⟨ps, hx, hs, hl⟩ := spells_prettyItems (level + 1) h nofun (blank_newLine level)
    exact .items ps hx hs hl
  | .object (_ :: _), depth + 1, h  =>
    have ⟨ms, hx, hs, hm⟩ := spells_prettyEntries (level + 1) h nofun (blank_newLine level)
    exact .members ms hx hs hm

theorem spells_prettyItems {xs : List Json} {depth : Nat} {after : List Char} (level : Nat) (h : ItemsFit depth xs)
    (hn : xs ≠ []) (ha : Blank after) :
    ∃ ps : List (Json × List Char), ps.map Prod.fst = xs ∧ (∀ p ∈ ps, Spells depth p.1 p.2) ∧
      Listed (ps.map Prod.snd) (prettyItems level xs ++ after) := by
  have hb := blank_newLine level
  match xs, h with
  | [x], h          =>
    exact ⟨[(x, newLine level ++ x.pretty level ++ after)], rfl,
      List.forall_mem_singleton.mpr <| .blanks hb (spells_pretty level h.left) ha, .last⟩
  | x :: y :: ys, h =>
    have ⟨ps, hy, hs, hl⟩ := spells_prettyItems level h.right nofun ha
    have hp : prettyItems level (x :: y :: ys) ++ after =
        newLine level ++ x.pretty level ++ [] ++ ',' :: (prettyItems level (y :: ys) ++ after) := by
      simp [prettyItems]
    cases ps
    case nil => contradiction
    refine ⟨(x, _) :: _, congrArg _ hy,
      List.forall_mem_cons.mpr ⟨.blanks hb (spells_pretty level h.left) blank_nil, hs⟩, ?_⟩
    rw [hp]
    exact .more hl

theorem spells_prettyEntries {entries : List (String × Json)} {depth : Nat} {after : List Char} (level : Nat)
    (h : EntriesFit depth entries) (hn : entries ≠ []) (ha : Blank after) :
    ∃ ms : List Member, ms.map Member.entry = entries ∧ (∀ m ∈ ms, Spells depth m.value m.text) ∧
      MembersText ms (prettyEntries level entries ++ after) := by
  have hb := blank_newLine level
  match entries, h with
  | [(k, x)], h        =>
    have hp : prettyEntries level [(k, x)] ++ after =
        newLine level ++ printString k ++ ':' :: ([' '] ++ x.pretty level ++ after) := by
      simp [prettyEntries]
    exact ⟨[⟨k, x, _⟩], rfl, List.forall_mem_singleton.mpr <| .blanks blank_space (spells_pretty level h.left) ha,
      hp ▸ .single (memberText_print _ hb)⟩
  | (k, x) :: e :: es, h =>
    have ⟨ms, hy, hs, hm⟩ := spells_prettyEntries level h.right nofun ha
    have hp : prettyEntries level ((k, x) :: e :: es) ++ after =
        newLine level ++ printString k ++ ':' :: ([' '] ++ x.pretty level ++ []) ++
          ',' :: (prettyEntries level (e :: es) ++ after) := by
      simp [prettyEntries]
    cases ms
    case nil => contradiction
    refine ⟨⟨k, x, _⟩ :: _, congrArg _ hy,
      List.forall_mem_cons.mpr ⟨.blanks blank_space (spells_pretty level h.left) blank_nil, hs⟩, ?_⟩
    rw [hp]
    exact .cons (memberText_print _ hb) hm

end

end Pretty

section Texts

theorem spells_toText (h : Fits depth x) : Spells depth x x.toText.toList := by
  rw [toText, String.toList_ofList]
  exact spells_compact h

theorem spells_toPrettyText (h : Fits depth x) : Spells depth x x.toPrettyText.toList := by
  rw [toPrettyText, String.toList_ofList]
  exact spells_pretty 0 h

theorem parse_toText (h : Fits 127 x) : parse x.toText = .ok x :=
  parse_of_spells <| spells_toText h

theorem parse_toPrettyText (h : Fits 127 x) : parse x.toPrettyText = .ok x :=
  parse_of_spells <| spells_toPrettyText h

end Texts

end CauldronCalls.Json
