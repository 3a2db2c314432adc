import CauldronCalls.Proofs.Json.Reader
import Mathlib.Data.List.DropRight

/-!
Values at the beginning of a text, without the bounds of their readers: a list or an object is described by what
begins it and by its first item. Blanks before anything do not count.
-/

namespace CauldronCalls.Json

variable {c : Char} {cs bs ds es rest : List Char} {x : Json} {xs : List Json} {k : String}
  {entries : List (String × Json)} {depth bound : Nat} {isFirst : Bool}

-- The text begins with the value, and `rest` is behind it; as many brackets as `depth` may be open at once.
def ValueAt (depth : Nat) (cs : List Char) (x : Json) (rest : List Char) : Prop :=
  ∃ bound, readValue bound depth cs = .ok (x, rest)

-- The items of a list up to its closing bracket, which is read too.
def ItemsAt (depth : Nat) (isFirst : Bool) (cs : List Char) (xs : List Json) (rest : List Char) : Prop :=
  ∃ bound, readItems bound depth isFirst cs = .ok (xs, rest)

def EntriesAt (depth : Nat) (isFirst : Bool) (cs : List Char) (entries : List (String × Json)) (rest : List Char) :
    Prop :=
  ∃ bound, readEntries bound depth isFirst cs = .ok (entries, rest)

theorem ValueAt.finds (h : ValueAt depth cs x rest) : Finds (readValue · depth cs) 0 cs x rest :=
  have ⟨_, h⟩ := h
  finds_of_read.left _ _ _ _ h

theorem ItemsAt.finds (h : ItemsAt depth isFirst cs xs rest) : Finds (readItems · depth isFirst cs) 1 cs xs rest :=
  have ⟨_, h⟩ := h
  finds_of_read.right.left _ _ _ _ _ h

theorem EntriesAt.finds (h : EntriesAt depth isFirst cs entries rest) :
    Finds (readEntries · depth isFirst cs) 1 cs entries rest :=
  have ⟨_, h⟩ := h
  finds_of_read.right.right _ _ _ _ _ h

theorem ValueAt.readValue_eq (h : ValueAt depth cs x rest) : readValue (Json.bound cs) depth cs = .ok (x, rest) :=
  h.finds.read_eq _ <| by rw [Json.bound]; omega

theorem ItemsAt.readItems_eq (h : ItemsAt depth isFirst cs xs rest) :
    readItems (Json.bound cs) depth isFirst cs = .ok (xs, rest) :=
  h.finds.read_eq _ <| by rw [Json.bound]; omega

section Parts

theorem valueAt_scalar (hx : x.IsScalar) :
    ValueAt depth cs x rest ↔ readShape cs = .ok (x.shape, rest) := by
  constructor
  case mp =>
    rintro ⟨_ | bound, h⟩
    · cases h
    · exact readValue_scalar hx |>.mp h
  case mpr => exact fun h => ⟨1, readValue_scalar hx |>.mpr h⟩

theorem valueAt_array : ValueAt depth cs (.array xs) rest ↔
    ∃ d ds, depth = d + 1 ∧ skipBlanks cs = '[' :: ds ∧ ItemsAt d true ds xs rest := by
  constructor
  case mp =>
    rintro ⟨_ | bound, h⟩
    · cases h
    · have ⟨d, ds, hd, hs, h⟩ := readValue_array.mp h
      exact ⟨d, ds, hd, hs, bound, h⟩
  case mpr => exact fun ⟨d, ds, hd, hs, bound, h⟩ => ⟨bound + 1, readValue_array.mpr ⟨d, ds, hd, hs, h⟩⟩

theorem valueAt_object : ValueAt depth cs (.object entries) rest ↔
    ∃ d ds, depth = d + 1 ∧ skipBlanks cs = '{' :: ds ∧ EntriesAt d true ds entries rest := by
  constructor
  case mp =>
    rintro ⟨_ | bound, h⟩
    · cases h
    · have ⟨d, ds, hd, hs, h⟩ := readValue_object.mp h
      exact ⟨d, ds, hd, hs, bound, h⟩
  case mpr => exact fun ⟨d, ds, hd, hs, bound, h⟩ => ⟨bound + 1, readValue_object.mpr ⟨d, ds, hd, hs, h⟩⟩

theorem itemsAt_nil :
    ItemsAt depth isFirst cs [] rest ↔ ∃ ds, nextItem isFirst cs = .ok (false, ds) ∧ rest = ds.drop 1 := by
  constructor
  case mp =>
    rintro ⟨_ | bound, h⟩
    · cases h
    · exact readItems_nil.mp h
  case mpr => exact fun h => ⟨1, readItems_nil.mpr h⟩

theorem itemsAt_cons : ItemsAt depth isFirst cs (x :: xs) rest ↔
    ∃ ds es, nextItem isFirst cs = .ok (true, ds) ∧ ValueAt depth ds x es ∧ ItemsAt depth false es xs rest := by
  constructor
  case mp =>
    rintro ⟨_ | bound, h⟩
    · cases h
    · have ⟨ds, es, hn, hx, hxs⟩ := readItems_cons.mp h
      exact ⟨ds, es, hn, ⟨bound, hx⟩, ⟨bound, hxs⟩⟩
  case mpr =>
    intro ⟨ds, es, hn, hx, hxs⟩
    have hl := hx.finds.length_lt
    exact ⟨Json.bound ds + 1, readItems_cons.mpr
      ⟨ds, es, hn, hx.readValue_eq, hxs.finds.read_eq _ <| by rw [Json.bound]; omega⟩⟩

theorem entriesAt_nil :
    EntriesAt depth isFirst cs [] rest ↔ ∃ ds, nextKey isFirst cs = .ok (none, ds) ∧ rest = ds.drop 1 := by
  constructor
  case mp =>
    rintro ⟨_ | bound, h⟩
    · cases h
    · exact readEntries_nil.mp h
  case mpr => exact fun h => ⟨1, readEntries_nil.mpr h⟩

theorem entriesAt_cons : EntriesAt depth isFirst cs ((k, x) :: entries) rest ↔
    ∃ bs ds es, nextKey isFirst cs = .ok (some k, bs) ∧ colon bs = .ok ds ∧ ValueAt depth ds x es ∧
      EntriesAt depth false es entries rest := by
  constructor
  case mp =>
    rintro ⟨_ | bound, h⟩
    · cases h
    · have ⟨bs, ds, es, hn, hc, hx, hxs⟩ := readEntries_cons.mp h
      exact ⟨bs, ds, es, hn, hc, ⟨bound, hx⟩, ⟨bound, hxs⟩⟩
  case mpr =>
    intro ⟨bs, ds, es, hn, hc, hx, hxs⟩
    have hl := hx.finds.length_lt
    exact ⟨Json.bound ds + 1, readEntries_cons.mpr
      ⟨bs, ds, es, hn, hc, hx.readValue_eq, hxs.finds.read_eq _ <| by rw [Json.bound]; omega⟩⟩

theorem length_entry_lt (hn : nextKey isFirst cs = .ok (some k, bs)) (hc : colon bs = .ok ds)
    (hx : ValueAt depth ds x es) : es.length < cs.length := by
  have h₁ := length_of_colon hc
  have h₂ := hx.finds.length_lt
  obtain hl | ⟨hk, _⟩ := length_of_nextKey hn
  case inl => omega
  case inr => contradiction

end Parts

section Shape

theorem ValueAt.shape (h : ValueAt depth cs x rest) : ∃ ds, readShape cs = .ok (x.shape, ds) := by
  cases x
  case array =>
    have ⟨_, _, _, hs, _⟩ := valueAt_array.mp h
    exact ⟨_, readShape_sequence.mpr ⟨_, hs, rfl⟩⟩
  case object =>
    have ⟨_, _, _, hs, _⟩ := valueAt_object.mp h
    exact ⟨_, readShape_map.mpr ⟨_, hs, rfl⟩⟩
  all_goals exact ⟨_, valueAt_scalar (by trivial) |>.mp h⟩

-- The letter begins no other value.
theorem shape_of_skipBlanks {shape : Shape} (hs : skipBlanks cs = 'n' :: ds) (h : readShape cs = .ok (shape, rest)) :
    shape = .null := by
  rw [readShape.eq_def, hs] at h
  obtain ⟨_, _, h⟩ := Outcome.bind_eq_ok.mp h
  cases h
  rfl

end Shape

section Blanks

theorem skipBlanks_append (h : ∀ c ∈ bs, isBlank c) : skipBlanks (bs ++ cs) = skipBlanks cs :=
  List.dropWhile_append_of_pos h

theorem skipBlanks_cons (h : isBlank c = false) : skipBlanks (c :: cs) = c :: cs :=
  List.dropWhile_cons_of_neg <| by simp [h]

theorem skipBlanks_skipBlanks : skipBlanks (skipBlanks cs) = skipBlanks cs :=
  List.dropWhile_idempotent ..

theorem readShape_congr (h : skipBlanks cs = skipBlanks ds) : readShape cs = readShape ds := by
  rw [readShape.eq_def, readShape.eq_def ds, h]

theorem nextItem_congr (h : skipBlanks cs = skipBlanks ds) : nextItem isFirst cs = nextItem isFirst ds := by
  rw [nextItem.eq_def, nextItem.eq_def _ ds, h]

theorem nextKey_congr (h : skipBlanks cs = skipBlanks ds) : nextKey isFirst cs = nextKey isFirst ds := by
  rw [nextKey.eq_def, nextKey.eq_def _ ds, h]

theorem ValueAt.congr (h : ValueAt depth cs x rest) (hs : skipBlanks cs = skipBlanks ds) : ValueAt depth ds x rest := by
  obtain ⟨_ | bound, h⟩ := h
  · cases h
  · refine ⟨bound + 1, ?_⟩
    rw [readValue, ← readShape_congr hs, ← readValue, h]

theorem ItemsAt.congr (h : ItemsAt depth isFirst cs xs rest) (hs : skipBlanks cs = skipBlanks ds) :
    ItemsAt depth isFirst ds xs rest := by
  obtain ⟨_ | bound, h⟩ := h
  · cases h
  · refine ⟨bound + 1, ?_⟩
    rw [readItems, ← nextItem_congr hs, ← readItems, h]

theorem EntriesAt.congr (h : EntriesAt depth isFirst cs entries rest) (hs : skipBlanks cs = skipBlanks ds) :
    EntriesAt depth isFirst ds entries rest := by
  obtain ⟨_ | bound, h⟩ := h
  · cases h
  · refine ⟨bound + 1, ?_⟩
    rw [readEntries, ← nextKey_congr hs, ← readEntries, h]

end Blanks

section Layout

-- The first character of a value closes no list.
theorem ValueAt.begins (h : ValueAt depth cs x rest) : ∃ c ds, skipBlanks cs = c :: ds ∧ c ≠ ']' := by
  have ⟨_, h⟩ := h.shape
  rw [readShape.eq_def] at h
  cases hs : skipBlanks cs with
  | nil       => rw [hs] at h; cases h
  | cons c ds =>
    refine ⟨c, ds, rfl, ?_⟩
    rintro rfl
    rw [hs] at h
    cases h

theorem ItemsAt.close : ItemsAt depth isFirst (']' :: rest) [] rest :=
  itemsAt_nil.mpr ⟨_, rfl, rfl⟩

theorem ItemsAt.first (hx : ValueAt depth cs x ds) (hxs : ItemsAt depth false ds xs rest) :
    ItemsAt depth true cs (x :: xs) rest := by
  have ⟨c, es, hs, hc⟩ := hx.begins
  refine itemsAt_cons.mpr ⟨skipBlanks cs, ds, ?_, hx.congr skipBlanks_skipBlanks.symm, hxs⟩
  rw [nextItem.eq_def, hs]
  simp

-- What follows a comma is read like a first item.
theorem nextItem_comma (h : nextItem true cs = .ok (true, ds)) : nextItem false (',' :: cs) = .ok (true, ds) := by
  rw [nextItem.eq_def] at h
  split at h
  case h_1 => cases h
  case h_2 => cases h
  case h_3 c es hc hs =>
    cases h
    rw [nextItem.eq_def, skipBlanks_cons (by decide)]
    simp only [Char.reduceEq, imp_self, Bool.false_eq_true, ↓reduceIte, hs]
    split <;> simp_all

theorem ItemsAt.comma (h : ItemsAt depth true cs (x :: xs) rest) : ItemsAt depth false (',' :: cs) (x :: xs) rest :=
  have ⟨ds, es, hn, h⟩ := itemsAt_cons.mp h
  itemsAt_cons.mpr ⟨ds, es, nextItem_comma hn, h⟩

theorem EntriesAt.close : EntriesAt depth isFirst ('}' :: rest) [] rest :=
  entriesAt_nil.mpr ⟨_, rfl, rfl⟩

theorem nextKey_comma (h : nextKey true cs = .ok (some k, ds)) : nextKey false (',' :: cs) = .ok (some k, ds) := by
  rw [nextKey.eq_def] at h
  split at h
  case h_1 => cases h
  case h_2 => cases h
  case h_3 c es hc hs =>
    rw [nextKey.eq_def, skipBlanks_cons (by decide)]
    simp only [Char.reduceEq, imp_self, Bool.false_eq_true, ↓reduceIte, hs]
    split <;> simp_all

theorem EntriesAt.comma (h : EntriesAt depth true cs ((k, x) :: entries) rest) :
    EntriesAt depth false (',' :: cs) ((k, x) :: entries) rest :=
  have ⟨bs, ds, es, hn, h⟩ := entriesAt_cons.mp h
  entriesAt_cons.mpr ⟨bs, ds, es, nextKey_comma hn, h⟩

end Layout

-- The value of a text that holds nothing else. At most 127 brackets may be open at once.
def parse (s : String) : Except Malformed Json :=
  (do
    let (x, cs) ← readValue (Json.bound s.toList) 127 s.toList
    finish cs
    pure x).mapError Failure.cause

theorem parse_eq_ok {s : String} : parse s = .ok x ↔ ∃ rest, ValueAt 127 s.toList x rest ∧ finish rest = .ok () := by
  rw [parse, Outcome.mapError_eq_ok, Outcome.bind_eq_ok]
  constructor
  case mp =>
    rintro ⟨⟨_, rest⟩, hv, h⟩
    have ⟨_, hf, h⟩ := Outcome.bind_eq_ok.mp h
    cases h
    exact ⟨rest, ⟨_, hv⟩, hf⟩
  case mpr =>
    rintro ⟨rest, hv, hf⟩
    exact ⟨_, hv.readValue_eq, Outcome.bind_eq_ok.mpr ⟨_, hf, rfl⟩⟩

end CauldronCalls.Json
