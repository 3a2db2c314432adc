import CauldronCalls.Proofs.Json.Skip
import CauldronCalls.Proofs.Json.Spelling
import CauldronCalls.Proofs.Wire.Agreement

/-!
Forms that are read to the same outcome wherever their value stands. What such a form makes of a value within a longer
text is what it makes of a text that holds the value alone.
-/

namespace CauldronCalls.Wire

open Outcome

variable {α β : Type} {w : Wire α} {x : Json} {xs : List Json} {cs mid rest : List Char} {depth n : Nat}
  {o : Except ReadError α}

def Steady (w : Wire α) : Prop :=
  ∀ depth x, ∃ o, w.Reads depth x o

section Shapes

variable {interpret : Json.Shape → Except Mismatch α} {encode : α → Json}

-- The form refuses lists and objects, and does so at their brackets.
theorem agrees_ofShape_all (hs : ∃ m, interpret .sequence = .error m) (hm : ∃ m, interpret .map = .error m) :
    (ofShape interpret encode).Agrees depth x := by
  cases x
  case array =>
    obtain ⟨m, hs⟩ := hs
    intro cs rest h
    obtain ⟨ds, h⟩ := h.shape
    simp only [ofShape, h, scan_ok, ok_bind, Json.shape, hs]
    exact ⟨ds, rfl⟩
  case object =>
    obtain ⟨m, hm⟩ := hm
    intro cs rest h
    obtain ⟨ds, h⟩ := h.shape
    simp only [ofShape, h, scan_ok, ok_bind, Json.shape, hm]
    exact ⟨ds, rfl⟩
  all_goals exact agrees_ofShape trivial

theorem steady_ofShape (hs : ∃ m, interpret .sequence = .error m) (hm : ∃ m, interpret .map = .error m) :
    (ofShape interpret encode).Steady :=
  fun _ _ => ⟨_, agrees_ofShape_all hs hm |>.reads⟩

theorem steady_boolean : boolean.Steady :=
  steady_ofShape ⟨_, rfl⟩ ⟨_, rfl⟩

theorem steady_uint8 : uint8.Steady :=
  steady_ofShape ⟨_, rfl⟩ ⟨_, rfl⟩

theorem steady_amount : amount.Steady :=
  steady_ofShape ⟨_, rfl⟩ ⟨_, rfl⟩

theorem steady_asset : asset.Steady :=
  steady_ofShape ⟨_, rfl⟩ ⟨_, rfl⟩

theorem Reads.optional (hn : x ≠ .null) (h : w.Reads depth x o) : w.optional.Reads depth x (some <$> o) := by
  intro cs rest hx
  simp only [Wire.optional]
  split
  case h_1 hb =>
    obtain ⟨_, hs⟩ := hx.shape
    have hs := Json.shape_of_skipBlanks hb hs
    cases x <;> contradiction
  case h_2 => exact h _ _ (hx.congr Json.skipBlanks_skipBlanks.symm) |>.map some

theorem Steady.optional (h : w.Steady) : w.optional.Steady := by
  intro depth x
  by_cases hn : x = .null
  case pos => exact hn ▸ ⟨_, agrees_null.reads⟩
  case neg =>
    have ⟨o, h⟩ := h depth x
    exact ⟨_, h.optional hn⟩

end Shapes

section ByteStrings

namespace ByteString

-- What comes of the items behind the last byte of a list that is read straight from a text. One of them is dropped, if
-- it is neither a byte nor a list nor an object.
def surplusOutcome (n : Nat) : List Json → Except ReadError Unit
  | []      => .ok ()
  | x :: xs =>
    match uint8.decode x with
    | .ok _    => .error (.mismatch (.wrongLength (n + 1) (.exactly n)))
    | .error _ =>
      match x.shape, xs with
      | .sequence, _ | .map, _ | _, _ :: _ => .error (.malformed .trailingCharacters)
      | _, []                              => .ok ()

def listOutcome (n : Nat) (xs : List Json) : Except ReadError (FixedBytes n) := do
  let (bs, surplus) ← (decodeOctets n n xs).mapError .mismatch
  surplusOutcome n surplus
  match FixedBytes.ofList? n bs with
  | some b => .ok b
  | none   => .error (.mismatch (.wrongLength bs.length (.exactly n)))

theorem readOctets_at {k : Nat} (hk : k ≤ n) (h : Json.ItemsAt depth (n == k) cs xs rest) :
    (∃ m es, decodeOctets n k xs = .error m ∧ readOctets n k cs = .error ⟨.mismatch m, es⟩) ∨
    (∃ bs ys es, decodeOctets n k xs = .ok (bs, ys) ∧ readOctets n k cs = .ok (bs, es) ∧
      Json.ItemsAt depth (n == 0) es ys rest) := by
  induction k generalizing cs xs
  case zero      => exact .inr ⟨[], xs, cs, rfl, rfl, h⟩
  case succ k hi =>
    cases xs
    case nil =>
      have ⟨ds, hn, _⟩ := Json.itemsAt_nil.mp h
      refine .inl ⟨_, ds, rfl, ?_⟩
      simp [readOctets, hn, scan_ok, ok_bind]
    case cons x xs =>
      have ⟨ds, es, hn, hx, hxs⟩ := Json.itemsAt_cons.mp h
      have hx : Settles (uint8.read ds) (uint8.decode x) es := agrees_ofShape_all ⟨_, rfl⟩ ⟨_, rfl⟩ _ _ hx
      have hf : (n == k) = false := by simp; omega
      simp only [readOctets, decodeOctets, hn, scan_ok, ok_bind, if_pos]
      cases hd : uint8.decode x
      case error m =>
        rw [hd] at hx
        obtain ⟨es, hx⟩ := hx
        exact .inl ⟨m, es, rfl, by rw [hx]; rfl⟩
      case ok b =>
        rw [hd] at hx
        have hx : uint8.read ds = .ok (b, es) := hx
        rw [hx]
        obtain ⟨m, fs, ho, hr⟩ | ⟨bs, ys, fs, ho, hr, hys⟩ := hi (by omega) (hf ▸ hxs)
        · exact .inl ⟨m, fs, by simp [ho, ok_bind]; rfl, by simp [hr, ok_bind]; rfl⟩
        · exact .inr ⟨_, ys, fs, by simp [ho, ok_bind]; rfl, by simp [hr, ok_bind], hys⟩

theorem closeList_end {isFirst : Bool} (h : Json.ItemsAt depth isFirst cs [] rest) :
    Json.closeList cs = .ok rest := by
  obtain ⟨ds, hn, rfl⟩ := Json.itemsAt_nil.mp h
  obtain ⟨es, hs, rfl⟩ := Json.nextItem_end hn
  rw [Json.closeList.eq_def, hs]
  rfl

theorem closeList_more (h : Json.ItemsAt depth false cs (x :: xs) rest) :
    ∃ es, Json.closeList cs = .error ⟨.trailingCharacters, es⟩ := by
  have ⟨ds, _, hn, hx, _⟩ := Json.itemsAt_cons.mp h
  obtain ⟨fs, hs, rfl⟩ := Json.nextItem_later hn
  have ⟨c, es, hb, hc⟩ := hx.begins
  rw [Json.skipBlanks_skipBlanks] at hb
  refine ⟨c :: es, ?_⟩
  simp only [Json.closeList, hs, hb]
  split <;> simp_all

-- The reader stands behind a scalar, and before the bracket of anything else.
theorem readSurplus_closeList {f : List Char → Json.Scan ReadError (α × List Char)}
    (h : Json.ItemsAt depth (n == 0) cs xs rest) (hf : Ends (f rest) o rest) :
    Ends (do let cs ← readSurplus n cs; let cs ← scan (Json.closeList cs); f cs)
      (do surplusOutcome n xs; o) rest := by
  cases xs
  case nil =>
    obtain ⟨ds, hn, hr⟩ := Json.itemsAt_nil.mp h
    have hc : Json.closeList ds = .ok rest := by
      obtain ⟨es, _, rfl⟩ := Json.nextItem_end hn
      exact hr ▸ rfl
    simp only [readSurplus, hn, scan_ok, ok_bind, hc]
    exact hf
  case cons x xs =>
    obtain ⟨ds, es, hn, hx, hxs⟩ := Json.itemsAt_cons.mp h
    obtain ⟨fs, hs⟩ := hx.shape
    have hr : uint8.read ds = settle fs (uint8.decode x) := by simp only [uint8, ofShape, hs, scan_ok, ok_bind]
    simp only [readSurplus, hn, scan_ok, hr, surplusOutcome]
    cases hd : uint8.decode x
    case ok      => exact ends_error
    case error m =>
      simp only [settle, ok_bind]
      cases x
      case array =>
        obtain ⟨gs, _, rfl⟩ := Json.readShape_sequence.mp hs
        exact ends_error
      case object =>
        obtain ⟨gs, _, rfl⟩ := Json.readShape_map.mp hs
        exact ends_error
      all_goals
        cases hs.symm.trans <| Json.valueAt_scalar (by trivial) |>.mp hx
        cases xs
        case nil =>
          rw [closeList_end hxs]
          exact hf
        case cons =>
          obtain ⟨gs, hc⟩ := closeList_more hxs
          rw [hc]
          exact ends_error

theorem readList_ends (h : Json.ItemsAt depth true cs xs rest) :
    Ends (readList n cs) (listOutcome n xs) rest := by
  have h : Json.ItemsAt depth (n == n) cs xs rest := by rwa [beq_self_eq_true]
  rw [readList, listOutcome]
  obtain ⟨m, es, ho, hr⟩ | ⟨bs, ys, es, ho, hr, hys⟩ := readOctets_at (Nat.le_refl n) h
  case inl =>
    rw [ho, hr]
    exact ends_error
  case inr =>
    rw [ho, hr]
    exact readSurplus_closeList hys <| by cases FixedBytes.ofList? n bs <;> rfl

end ByteString

theorem steady_byteString : (byteString n).Steady := by
  intro depth x
  cases x
  case array xs =>
    refine ⟨ByteString.listOutcome n xs, fun cs rest h => ?_⟩
    obtain ⟨_, ds, _, hs, h⟩ := Json.valueAt_array.mp h
    simp only [byteString, hs]
    exact ByteString.readList_ends h
  case object =>
    refine ⟨.error (.mismatch (.wrongType .map (.byteString n))), fun cs rest h => ?_⟩
    obtain ⟨_, ds, _, hs, _⟩ := Json.valueAt_object.mp h
    simp only [byteString, hs]
    exact ends_error
  all_goals exact ⟨_, agrees_byteString (by trivial) |>.reads⟩

end ByteStrings

end CauldronCalls.Wire
