import CauldronCalls.Proofs.Wire.Record
import CauldronCalls.Wire.Intent

/-!
Intents as objects of one of three records. The entries that are not the tag's are kept, in memory as from a text,
until the tag is known; reading an intent from a well-formed text is decoding the value of the text.
-/

namespace CauldronCalls.Intent

open Wire

variable {entries es : List (String × Json)} {tag? tag?' : Option Operation.Tag} {x : Json} {xs : List Json}
  {depth bound : Nat} {isFirst : Bool} {cs rest : List Char} {i : Intent}

-- The tag as the one field that is known before the others.
def tagEntry : Wire.Field Operation.Tag :=
  .required tagField <| .ofShape asTag fun tag => .string tag.name

section Decode

theorem decodeEntries_eq_ok : decodeEntries tag? entries = .ok (tag?', es) ↔
    tagEntry.Fills tag? entries tag?' ∧ es = tagEntry.others entries := by
  induction entries generalizing tag? es
  case nil            => simp [decodeEntries, Wire.Field.Fills, Wire.Field.own, Wire.Field.others, eq_comm]
  case cons e entries hi =>
    obtain ⟨k, x⟩ := e
    by_cases hk : k = tagField
    case pos =>
      rw [Wire.Field.fills_cons_own hk.symm, Wire.Field.others_cons_self hk.symm, decodeEntries, if_pos hk]
      cases tag?
      case some => simp
      case none =>
        have hd : tagEntry.wire.decode x = asTag x.shape := rfl
        simp [Outcome.bind_eq_ok, hi, hd, ← and_assoc]
    case neg =>
      have hn : tagEntry.name ≠ k := Ne.symm hk
      rw [Wire.Field.fills_cons_other hn, Wire.Field.others_cons_ne hn, decodeEntries, if_neg hk, Outcome.bind_eq_ok]
      constructor
      case mp =>
        rintro ⟨⟨_, _⟩, h, hc⟩
        cases hc
        obtain ⟨hf, rfl⟩ := hi.mp h
        exact ⟨hf, rfl⟩
      case mpr =>
        rintro ⟨hf, rfl⟩
        exact ⟨_, hi.mpr ⟨hf, rfl⟩, rfl⟩

theorem decode_object : decode (.object entries) = .ok i ↔
    ∃ tag, tagEntry.Gives entries tag ∧ decodeTagged tag (.object (tagEntry.others entries)) = .ok i := by
  rw [decode, Outcome.bind_eq_ok]
  constructor
  case mp =>
    rintro ⟨⟨tag?, es⟩, h, hd⟩
    obtain ⟨hf, rfl⟩ := decodeEntries_eq_ok.mp h
    cases tag?
    case none     => cases hd
    case some tag => exact ⟨tag, Wire.Field.gives_iff_fills.mpr ⟨_, hf, rfl⟩, hd⟩
  case mpr =>
    rintro ⟨tag, hg, hd⟩
    have ⟨tag?, hf, ht⟩ := Wire.Field.gives_iff_fills.mp hg
    cases tag?
    case none     => cases ht
    case some tag =>
      cases ht
      exact ⟨_, decodeEntries_eq_ok.mpr ⟨hf, rfl⟩, hd⟩

end Decode

section Read

theorem readTag_settles (h : Json.ValueAt depth cs x rest) : Settles (readTag cs) (asTag x.shape) rest := by
  cases x
  case array | object =>
    have ⟨_, hs⟩ := h.shape
    rw [readTag, hs]
    exact ⟨_, rfl⟩
  all_goals
    simp only [readTag, Json.valueAt_scalar (by trivial) |>.mp h, scan_ok, Outcome.ok_bind]
    exact settles_settle _

theorem readEntries_settles (hb : cs.length < bound) (h : Json.EntriesAt innerDepth isFirst cs entries rest) :
    Settles (readEntries bound isFirst tag? cs) (decodeEntries tag? entries) rest := by
  induction entries generalizing bound isFirst cs tag?
  case nil =>
    obtain ⟨ds, hn, rfl⟩ := Json.entriesAt_nil.mp h
    cases bound
    case zero   => contradiction
    case succ _ =>
      simp only [readEntries, hn, scan_ok]
      rfl
  case cons e entries hi =>
    obtain ⟨k, x⟩ := e
    have ⟨bs, ds, es, hn, hc, hx, hxs⟩ := Json.entriesAt_cons.mp h
    cases bound
    case zero       => contradiction
    case succ bound =>
      have hl : es.length < bound := Json.length_entry_lt hn hc hx |>.trans_le <| Nat.le_of_lt_succ hb
      by_cases hk : k = tagField
      case pos =>
        cases tag?
        case some =>
          simp only [readEntries, decodeEntries, hn, scan_ok, Outcome.ok_bind, if_pos hk, Option.isSome_some, if_true]
          exact ⟨_, rfl⟩
        case none =>
          simp only [readEntries, decodeEntries, hn, hc, scan_ok, Outcome.ok_bind, if_pos hk, Option.isSome_none,
            Bool.false_eq_true, if_false]
          exact readTag_settles hx |>.bind fun _ _ => hi hl hxs
      case neg =>
        simp only [readEntries, decodeEntries, hn, hc, hx.readValue_eq, scan_ok, Outcome.ok_bind, if_neg hk]
        exact hi hl hxs |>.map fun r => (r.1, (k, x) :: r.2)

theorem readObject_settles (h : Json.EntriesAt innerDepth true cs entries rest) :
    Settles (readObject cs) (decode (.object entries)) rest := by
  have hs : Settles (readEntries _ true none cs) (decodeEntries none entries) rest :=
    readEntries_settles (Nat.lt_succ_self _) h
  refine hs.bind fun (tag?, _) _ => ?_
  cases tag?
  case none     => exact ⟨_, rfl⟩
  case some tag => exact settles_settle _

theorem readList_settles (h : Json.ItemsAt innerDepth true cs xs rest) :
    Settles (readList cs) (decode (.array xs)) rest := by
  cases xs
  case nil =>
    obtain ⟨ds, hn, rfl⟩ := Json.itemsAt_nil.mp h
    rw [readList, hn]
    exact ⟨_, rfl⟩
  case cons x xs =>
    have ⟨ds, es, hn, hx, hxs⟩ := Json.itemsAt_cons.mp h
    rw [readList, hn]
    refine readTag_settles hx |>.bind fun tag _ => ?_
    simp only [hxs.readItems_eq, scan_ok, Outcome.ok_bind]
    exact settles_settle _

-- An intent's text means what its value means, as long as the text is well formed.
theorem agrees (x : Json) : wire.Agrees 127 x := by
  intro cs rest h
  cases x
  case array xs =>
    obtain ⟨_, ds, hd, hs, h⟩ := Json.valueAt_array.mp h
    cases hd
    simp only [wire, hs]
    exact readList_settles h
  case object entries =>
    obtain ⟨_, ds, hd, hs, h⟩ := Json.valueAt_object.mp h
    cases hd
    simp only [wire, hs]
    exact readObject_settles h
  all_goals
    have hs := Json.valueAt_scalar (by trivial) |>.mp h
    simp only [wire]
    split
    case h_1 hb => cases hs.symm.trans <| Json.readShape_map.mpr ⟨_, hb, rfl⟩
    case h_2 hb => cases hs.symm.trans <| Json.readShape_sequence.mpr ⟨_, hb, rfl⟩
    case h_3    =>
      rw [Json.readShape_congr Json.skipBlanks_skipBlanks, hs]
      exact ⟨_, rfl⟩

theorem parse_eq {s : String} (h : Json.parse s = .ok x) : wire.parse s = (decode x).mapError .mismatch :=
  (agrees x).parse_eq h

end Read

end CauldronCalls.Intent
