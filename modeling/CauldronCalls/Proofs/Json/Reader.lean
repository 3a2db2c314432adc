import CauldronCalls.Json.Reader
import CauldronCalls.Proofs.Json.Numeral
import CauldronCalls.Proofs.Json.Text

/-!
What one step of the readers of whole values does, and that the bound that makes them end does not matter: a value
takes at least one character, so that every bound is enough that exceeds twice the length of what is read.
-/

namespace CauldronCalls.Json

variable {c : Char} {cs ds es rest blanks : List Char} {x : Json} {xs : List Json} {k : String}
  {entries : List (String × Json)} {depth bound n : Nat} {isFirst : Bool}

section Length

theorem length_skipBlanks_le (cs : List Char) : (skipBlanks cs).length ≤ cs.length :=
  List.dropWhile_suffix _ |>.length_le

theorem length_of_skipBlanks (h : skipBlanks cs = c :: ds) : ds.length < cs.length := by
  have hl := length_skipBlanks_le cs
  rw [h, List.length_cons] at hl
  exact hl

theorem length_of_word {ws : List Char} (h : word ws cs = .ok rest) : rest.length ≤ cs.length := by
  induction ws generalizing cs
  case nil =>
    cases h
    exact Nat.le_refl _
  case cons w ws hi =>
    cases cs
    case nil       => cases h
    case cons c cs =>
      rw [word] at h
      split at h
      case isTrue  => exact hi h |>.trans (Nat.le_succ _)
      case isFalse => cases h

-- What the text begins with when a reader finds the shape, and what is left of the text.
def ShapeAt (cs : List Char) (shape : Shape) (rest : List Char) : Prop :=
  match shape with
  | .null          => ∃ ds, skipBlanks cs = 'n' :: ds ∧ word ['u', 'l', 'l'] ds = .ok rest
  | .boolean true  => ∃ ds, skipBlanks cs = 't' :: ds ∧ word ['r', 'u', 'e'] ds = .ok rest
  | .boolean false => ∃ ds, skipBlanks cs = 'f' :: ds ∧ word ['a', 'l', 's', 'e'] ds = .ok rest
  | .string k      => ∃ ds, skipBlanks cs = '"' :: ds ∧ readString ds = .ok (k, rest)
  | .number n      =>
    (∃ ds, skipBlanks cs = '-' :: ds ∧ readNumber true ds = .ok (n, rest)) ∨
    (∃ c ds, skipBlanks cs = c :: ds ∧ isDigit c ∧ readNumber false (c :: ds) = .ok (n, rest))
  | .sequence      => ∃ ds, skipBlanks cs = '[' :: ds ∧ rest = '[' :: ds
  | .map           => ∃ ds, skipBlanks cs = '{' :: ds ∧ rest = '{' :: ds

theorem shapeAt_of_readShape {shape : Shape} (h : readShape cs = .ok (shape, rest)) : ShapeAt cs shape rest := by
  rw [readShape.eq_def] at h
  split at h
  case h_1 => cases h
  case h_2 hs | h_3 hs | h_4 hs | h_5 hs =>
    have ⟨_, hr, h⟩ := Outcome.bind_eq_ok.mp h
    cases h
    exact ⟨_, hs, hr⟩
  case h_6 hs =>
    have ⟨_, hr, h⟩ := Outcome.bind_eq_ok.mp h
    cases h
    exact .inl ⟨_, hs, hr⟩
  case h_7 hs | h_8 hs =>
    cases h
    exact ⟨_, hs, rfl⟩
  case h_9 hs =>
    split at h
    case isFalse   => cases h
    case isTrue hd =>
      have ⟨_, hr, h⟩ := Outcome.bind_eq_ok.mp h
      cases h
      exact .inr ⟨_, _, hs, hd, hr⟩

-- Neither a list nor an object.
def IsScalar : Json → Prop
  | array _  => False
  | object _ => False
  | _        => True

-- A list or an object is left before its bracket, but all of another value is taken.
theorem length_of_readShape (hx : x.IsScalar) (h : readShape cs = .ok (x.shape, rest)) : rest.length < cs.length := by
  replace h := shapeAt_of_readShape h
  cases x
  case array | object => contradiction
  case null =>
    have ⟨_, hs, hw⟩ := h
    exact length_of_word hw |>.trans_lt <| length_of_skipBlanks hs
  case boolean b =>
    cases b
    all_goals
      have ⟨_, hs, hw⟩ := h
      exact length_of_word hw |>.trans_lt <| length_of_skipBlanks hs
  case string =>
    have ⟨_, hs, hr⟩ := h
    exact length_of_readString hr |>.trans <| length_of_skipBlanks hs
  case number =>
    obtain ⟨_, hs, hr⟩ | ⟨_, _, hs, _, hr⟩ := h
    · exact length_of_readNumber hr |>.trans <| length_of_skipBlanks hs
    · exact length_of_readNumber hr |>.trans_le <| hs ▸ length_skipBlanks_le _

theorem length_of_nextItem {more : Bool} (h : nextItem isFirst cs = .ok (more, rest)) :
    (rest.length ≤ cs.length) ∧ (0 < rest.length) := by
  have hl := length_skipBlanks_le cs
  rw [nextItem.eq_def] at h
  split at h
  case h_1 => cases h
  case h_2 hs =>
    cases h
    exact ⟨hs ▸ hl, Nat.succ_pos _⟩
  case h_3 c ds _ hs =>
    rw [hs, List.length_cons] at hl
    split at h
    case isTrue =>
      cases h
      exact ⟨hl, Nat.succ_pos _⟩
    case isFalse =>
      split at h
      case isFalse => cases h
      case isTrue  =>
        have hd := length_skipBlanks_le ds
        split at h <;> cases h
        case h_3 hn _ => exact ⟨by omega, List.length_pos_iff.mpr hn⟩

theorem length_of_key {key? : Option String} (h : nextKey.key cs = .ok (key?, rest)) :
    (rest.length < cs.length) ∧ (∃ k, key? = some k) := by
  rw [nextKey.key.eq_def] at h
  split at h
  case h_2 => cases h
  case h_1 =>
    have ⟨_, hk, h⟩ := Outcome.bind_eq_ok.mp h
    cases h
    exact ⟨length_of_readString hk |>.trans (Nat.lt_succ_self _), _, rfl⟩

-- The closing brace stays, but a key is taken.
theorem length_of_nextKey {key? : Option String} (h : nextKey isFirst cs = .ok (key?, rest)) :
    (rest.length < cs.length) ∨ (key? = none ∧ rest.length ≤ cs.length ∧ 0 < rest.length) := by
  have hl := length_skipBlanks_le cs
  rw [nextKey.eq_def] at h
  split at h
  case h_1 => cases h
  case h_2 hs =>
    cases h
    exact .inr ⟨rfl, hs ▸ hl, Nat.succ_pos _⟩
  case h_3 c ds _ hs =>
    rw [hs, List.length_cons] at hl
    split at h
    case isTrue  => exact .inl <| length_of_key h |>.left.trans_le hl
    case isFalse =>
      split at h
      case isFalse => cases h
      case isTrue  =>
        have hd := length_skipBlanks_le ds
        split at h
        case h_1 => cases h
        case h_2 => cases h
        case h_3 =>
          have hk := length_of_key h |>.left
          exact .inl (by omega)

theorem length_of_colon (h : colon cs = .ok rest) : rest.length < cs.length := by
  rw [colon.eq_def] at h
  split at h <;> cases h
  exact length_of_skipBlanks ‹_›

end Length

section Step

theorem readShape_sequence :
    readShape cs = .ok (.sequence, rest) ↔ ∃ ds, skipBlanks cs = '[' :: ds ∧ rest = '[' :: ds := by
  refine ⟨shapeAt_of_readShape, ?_⟩
  rintro ⟨ds, h, rfl⟩
  rw [readShape.eq_def, h]
  rfl

theorem readShape_map : readShape cs = .ok (.map, rest) ↔ ∃ ds, skipBlanks cs = '{' :: ds ∧ rest = '{' :: ds := by
  refine ⟨shapeAt_of_readShape, ?_⟩
  rintro ⟨ds, h, rfl⟩
  rw [readShape.eq_def, h]
  rfl

theorem readValue_scalar (hx : x.IsScalar) :
    readValue (bound + 1) depth cs = .ok (x, rest) ↔ readShape cs = .ok (x.shape, rest) := by
  rw [readValue, Outcome.bind_eq_ok]
  constructor
  case mpr =>
    intro h
    refine ⟨_, h, ?_⟩
    cases x <;> first | rfl | contradiction
  case mp =>
    rintro ⟨⟨s, ds⟩, h, hx⟩
    cases s
    case sequence | map =>
      cases depth
      case zero   => cases hx
      case succ _ =>
        have ⟨_, _, hx⟩ := Outcome.bind_eq_ok.mp hx
        cases hx
        contradiction
    all_goals
      cases hx
      exact h

theorem readValue_array : readValue (bound + 1) depth cs = .ok (.array xs, rest) ↔
    ∃ d ds, depth = d + 1 ∧ skipBlanks cs = '[' :: ds ∧ readItems bound d true ds = .ok (xs, rest) := by
  rw [readValue, Outcome.bind_eq_ok]
  constructor
  case mpr =>
    rintro ⟨d, ds, rfl, hs, h⟩
    refine ⟨_, readShape_sequence.mpr ⟨ds, hs, rfl⟩, ?_⟩
    simp [h, Bind.bind, Except.bind]
  case mp =>
    rintro ⟨⟨s, es⟩, h, hx⟩
    cases s
    case sequence =>
      obtain ⟨ds, hs, rfl⟩ := readShape_sequence.mp h
      cases depth
      case zero   => cases hx
      case succ d =>
        have ⟨_, hi, hx⟩ := Outcome.bind_eq_ok.mp hx
        cases hx
        exact ⟨d, ds, rfl, hs, hi⟩
    case map =>
      cases depth
      case zero   => cases hx
      case succ d =>
        have ⟨_, _, hx⟩ := Outcome.bind_eq_ok.mp hx
        cases hx
    all_goals cases hx

theorem readValue_object : readValue (bound + 1) depth cs = .ok (.object entries, rest) ↔
    ∃ d ds, depth = d + 1 ∧ skipBlanks cs = '{' :: ds ∧ readEntries bound d true ds = .ok (entries, rest) := by
  rw [readValue, Outcome.bind_eq_ok]
  constructor
  case mpr =>
    rintro ⟨d, ds, rfl, hs, h⟩
    refine ⟨_, readShape_map.mpr ⟨ds, hs, rfl⟩, ?_⟩
    simp [h, Bind.bind, Except.bind]
  case mp =>
    rintro ⟨⟨s, es⟩, h, hx⟩
    cases s
    case map =>
      obtain ⟨ds, hs, rfl⟩ := readShape_map.mp h
      cases depth
      case zero   => cases hx
      case succ d =>
        have ⟨_, hi, hx⟩ := Outcome.bind_eq_ok.mp hx
        cases hx
        exact ⟨d, ds, rfl, hs, hi⟩
    case sequence =>
      cases depth
      case zero   => cases hx
      case succ d =>
        have ⟨_, _, hx⟩ := Outcome.bind_eq_ok.mp hx
        cases hx
    all_goals cases hx

theorem readItems_nil : readItems (bound + 1) depth isFirst cs = .ok ([], rest) ↔
    ∃ ds, nextItem isFirst cs = .ok (false, ds) ∧ rest = ds.drop 1 := by
  rw [readItems, Outcome.bind_eq_ok]
  constructor
  case mpr =>
    rintro ⟨ds, h, rfl⟩
    exact ⟨_, h, rfl⟩
  case mp =>
    rintro ⟨⟨more, ds⟩, h, hx⟩
    cases more
    case false =>
      cases hx
      exact ⟨ds, h, rfl⟩
    case true  =>
      have ⟨_, _, hx⟩ := Outcome.bind_eq_ok.mp hx
      have ⟨_, _, hx⟩ := Outcome.bind_eq_ok.mp hx
      cases hx

theorem readItems_cons : readItems (bound + 1) depth isFirst cs = .ok (x :: xs, rest) ↔
    ∃ ds es, nextItem isFirst cs = .ok (true, ds) ∧ readValue bound depth ds = .ok (x, es) ∧
      readItems bound depth false es = .ok (xs, rest) := by
  rw [readItems, Outcome.bind_eq_ok]
  constructor
  case mpr =>
    rintro ⟨ds, es, h, hx, hxs⟩
    refine ⟨_, h, ?_⟩
    simp [hx, hxs, Bind.bind, Except.bind]
  case mp =>
    rintro ⟨⟨more, ds⟩, h, hx⟩
    cases more
    case false => cases hx
    case true  =>
      have ⟨_, hv, hx⟩ := Outcome.bind_eq_ok.mp hx
      have ⟨_, hi, hx⟩ := Outcome.bind_eq_ok.mp hx
      cases hx
      exact ⟨ds, _, h, hv, hi⟩

theorem readEntries_nil : readEntries (bound + 1) depth isFirst cs = .ok ([], rest) ↔
    ∃ ds, nextKey isFirst cs = .ok (none, ds) ∧ rest = ds.drop 1 := by
  rw [readEntries, Outcome.bind_eq_ok]
  constructor
  case mpr =>
    rintro ⟨ds, h, rfl⟩
    exact ⟨_, h, rfl⟩
  case mp =>
    rintro ⟨⟨key?, ds⟩, h, hx⟩
    cases key?
    case none   =>
      cases hx
      exact ⟨ds, h, rfl⟩
    case some k =>
      have ⟨_, _, hx⟩ := Outcome.bind_eq_ok.mp hx
      have ⟨_, _, hx⟩ := Outcome.bind_eq_ok.mp hx
      have ⟨_, _, hx⟩ := Outcome.bind_eq_ok.mp hx
      cases hx

theorem readEntries_cons : readEntries (bound + 1) depth isFirst cs = .ok ((k, x) :: entries, rest) ↔
    ∃ bs ds es, nextKey isFirst cs = .ok (some k, bs) ∧ colon bs = .ok ds ∧
      readValue bound depth ds = .ok (x, es) ∧ readEntries bound depth false es = .ok (entries, rest) := by
  rw [readEntries, Outcome.bind_eq_ok]
  constructor
  case mpr =>
    rintro ⟨bs, ds, es, h, hc, hx, hxs⟩
    refine ⟨_, h, ?_⟩
    simp [hc, hx, hxs, Bind.bind, Except.bind]
  case mp =>
    rintro ⟨⟨key?, bs⟩, h, hx⟩
    cases key?
    case none   => cases hx
    case some k =>
      have ⟨_, hc, hx⟩ := Outcome.bind_eq_ok.mp hx
      have ⟨_, hv, hx⟩ := Outcome.bind_eq_ok.mp hx
      have ⟨_, he, hx⟩ := Outcome.bind_eq_ok.mp hx
      cases hx
      exact ⟨bs, _, _, h, hc, hv, he⟩

end Step

-- Whatever bound is large enough for what is taken, the reader finds `a` and leaves `rest`.
structure Finds {α : Type} (read : Nat → Scan Malformed (α × List Char)) (more : Nat) (cs : List Char) (a : α)
    (rest : List Char) : Prop where
  length_lt : rest.length < cs.length
  read_eq   : ∀ bound, 2 * cs.length + more ≤ bound + 2 * rest.length → read bound = .ok (a, rest)

theorem Finds.of_succ {α : Type} {read : Nat → Scan Malformed (α × List Char)} {more : Nat} {a : α}
    (hl : rest.length < cs.length)
    (h : ∀ bound, 2 * cs.length + more ≤ bound + 1 + 2 * rest.length → read (bound + 1) = .ok (a, rest)) :
    Finds read more cs a rest := by
  refine ⟨hl, fun bound hb => ?_⟩
  cases bound
  case zero       => omega
  case succ bound => exact h bound hb

theorem finds_of_read :
    (∀ depth cs x rest, readValue bound depth cs = .ok (x, rest) →
      Finds (readValue · depth cs) 0 cs x rest) ∧
    (∀ depth isFirst cs xs rest, readItems bound depth isFirst cs = .ok (xs, rest) →
      Finds (readItems · depth isFirst cs) 1 cs xs rest) ∧
    (∀ depth isFirst cs entries rest, readEntries bound depth isFirst cs = .ok (entries, rest) →
      Finds (readEntries · depth isFirst cs) 1 cs entries rest) := by
  induction bound
  case zero => exact ⟨nofun, nofun, nofun⟩
  case succ bound hi =>
    have ⟨hv, hi, he⟩ := hi
    refine ⟨?value, ?items, ?entries⟩
    case value =>
      intro depth cs x rest h
      cases x
      case array xs =>
        obtain ⟨d, ds, rfl, hs, hxs⟩ := readValue_array.mp h
        have hxs := hi _ _ _ _ _ hxs
        have hl := length_of_skipBlanks hs
        have hr := hxs.length_lt
        exact .of_succ (by omega) fun b hb => readValue_array.mpr ⟨d, ds, rfl, hs, hxs.read_eq b (by omega)⟩
      case object entries =>
        obtain ⟨d, ds, rfl, hs, hxs⟩ := readValue_object.mp h
        have hxs := he _ _ _ _ _ hxs
        have hl := length_of_skipBlanks hs
        have hr := hxs.length_lt
        exact .of_succ (by omega) fun b hb => readValue_object.mpr ⟨d, ds, rfl, hs, hxs.read_eq b (by omega)⟩
      all_goals
        have h := readValue_scalar (by trivial) |>.mp h
        exact .of_succ (length_of_readShape (by trivial) h) fun _ _ => readValue_scalar (by trivial) |>.mpr h
    case items =>
      intro depth isFirst cs xs rest h
      cases xs
      case nil =>
        obtain ⟨ds, hn, rfl⟩ := readItems_nil.mp h
        have ⟨hl, hp⟩ := length_of_nextItem hn
        exact .of_succ (by rw [List.length_drop]; omega) fun _ _ => readItems_nil.mpr ⟨ds, hn, rfl⟩
      case cons x xs =>
        have ⟨ds, es, hn, hx, hxs⟩ := readItems_cons.mp h
        have ⟨hl, _⟩ := length_of_nextItem hn
        have hx := hv _ _ _ _ hx
        have hxs := hi _ _ _ _ _ hxs
        have h₁ := hx.length_lt
        have h₂ := hxs.length_lt
        exact .of_succ (by omega) fun b hb =>
          readItems_cons.mpr ⟨ds, es, hn, hx.read_eq b (by omega), hxs.read_eq b (by omega)⟩
    case entries =>
      intro depth isFirst cs entries rest h
      cases entries
      case nil =>
        obtain ⟨ds, hn, rfl⟩ := readEntries_nil.mp h
        obtain hl | ⟨_, hl, hp⟩ := length_of_nextKey hn
        all_goals exact .of_succ (by rw [List.length_drop]; omega) fun _ _ => readEntries_nil.mpr ⟨ds, hn, rfl⟩
      case cons e entries =>
        have ⟨bs, ds, es, hn, hc, hx, hxs⟩ := readEntries_cons.mp h
        obtain hl | ⟨hk, _⟩ := length_of_nextKey hn
        case inr => contradiction
        have hd := length_of_colon hc
        have hx := hv _ _ _ _ hx
        have hxs := he _ _ _ _ _ hxs
        have h₁ := hx.length_lt
        have h₂ := hxs.length_lt
        exact .of_succ (by omega) fun b hb =>
          readEntries_cons.mpr ⟨bs, ds, es, hn, hc, hx.read_eq b (by omega), hxs.read_eq b (by omega)⟩

end CauldronCalls.Json
