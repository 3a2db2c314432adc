import CauldronCalls.Proofs.Json.Skip
import CauldronCalls.Proofs.Wire.Agreement
import CauldronCalls.Proofs.Wire.Memory

/-!
Records field by field. What an object's entries make of one field depends on the entries under its name alone, and
the others are left to the other fields. An object is read from a text entry by entry, and gives what its entries give
in any other form in which each field gets the same out of them: in memory, for one.
-/

namespace CauldronCalls.Wire

open Outcome

variable {α : Type} {αs : List Type} {f : Field α} {fs : Fields αs} {k : String} {x : Json} {a : α}
  {entries : List (String × Json)} {slot slot' : Option α} {slots slots' : Slots αs} {row : Row αs}

section Decode

namespace Field

def own (f : Field α) (entries : List (String × Json)) : List (String × Json) :=
  entries.filter (f.name = ·.1)

def others (f : Field α) (entries : List (String × Json)) : List (String × Json) :=
  entries.filter (f.name ≠ ·.1)

-- The entries fill the field's slot: at most one of them is the field's own, and only an empty slot is filled.
def Fills (f : Field α) (slot : Option α) (entries : List (String × Json)) (slot' : Option α) : Prop :=
  match f.own entries with
  | []       => slot' = slot
  | [(_, x)] => slot = none ∧ ∃ a, f.wire.decode x = .ok a ∧ slot' = some a
  | _        => False

-- The entries give the field its value.
def Gives (f : Field α) (entries : List (String × Json)) (a : α) : Prop :=
  match f.own entries with
  | []       => f.absent = some a
  | [(_, x)] => f.wire.decode x = .ok a
  | _        => False

theorem own_cons_self (h : f.name = k) : f.own ((k, x) :: entries) = (k, x) :: f.own entries := by
  simp [own, h]

theorem own_cons_ne (h : f.name ≠ k) : f.own ((k, x) :: entries) = f.own entries := by
  simp [own, h]

theorem own_append (before after : List (String × Json)) : f.own (before ++ after) = f.own before ++ f.own after :=
  List.filter_append ..

theorem others_cons_self (h : f.name = k) : f.others ((k, x) :: entries) = f.others entries := by
  simp [others, h]

theorem others_cons_ne (h : f.name ≠ k) : f.others ((k, x) :: entries) = (k, x) :: f.others entries := by
  simp [others, h]

theorem others_append (before after : List (String × Json)) :
    f.others (before ++ after) = f.others before ++ f.others after :=
  List.filter_append ..

theorem fills_cons_own (h : f.name = k) : f.Fills slot ((k, x) :: entries) slot' ↔
    slot = none ∧ ∃ a, f.wire.decode x = .ok a ∧ f.Fills (some a) entries slot' := by
  rw [Fills, own_cons_self h]
  simp only [Fills]
  rcases f.own entries with _ | ⟨_, _ | _⟩ <;> simp

theorem fills_cons_other (h : f.name ≠ k) : f.Fills slot ((k, x) :: entries) slot' ↔ f.Fills slot entries slot' := by
  rw [Fills, own_cons_ne h, Fills]

section Insert

variable {before after : List (String × Json)}

theorem gives_insert_own :
    f.Gives (before ++ (f.name, x) :: after) a ↔ f.own (before ++ after) = [] ∧ f.wire.decode x = .ok a := by
  rw [Gives, own_append, own_cons_self rfl, own_append, List.append_eq_nil_iff]
  rcases f.own before with _ | ⟨_, _ | _⟩ <;> rcases f.own after with _ | _ <;> simp

theorem others_insert_own : f.others (before ++ (f.name, x) :: after) = f.others (before ++ after) := by
  rw [others_append, others_cons_self rfl, others_append]

theorem gives_insert_other (h : f.name ≠ k) :
    f.Gives (before ++ (k, x) :: after) a ↔ f.Gives (before ++ after) a := by
  rw [Gives, own_append, own_cons_ne h, ← own_append, Gives]

theorem others_insert_other (h : f.name ≠ k) :
    f.others (before ++ (k, x) :: after) = f.others before ++ (k, x) :: f.others after := by
  rw [others_append, others_cons_ne h]

end Insert

theorem gives_iff_fills : f.Gives entries a ↔ ∃ slot, f.Fills none entries slot ∧ (slot <|> f.absent) = some a := by
  simp only [Gives, Fills]
  rcases f.own entries with _ | ⟨_, _ | _⟩ <;> simp

end Field

namespace Fields

theorem decodeEntries_nil : nil.decodeEntries () entries = .ok () := by
  induction entries
  case nil            => rfl
  case cons e _ hi =>
    rw [decodeEntries, store]
    exact hi

-- The first field takes its own entries, and leaves the others to the other fields.
theorem decodeEntries_cons : (cons f fs).decodeEntries (slot, slots) entries = .ok (slot', slots') ↔
    f.Fills slot entries slot' ∧ fs.decodeEntries slots (f.others entries) = .ok slots' := by
  induction entries generalizing slot slots
  case nil            => simp [decodeEntries, Field.Fills, Field.own, Field.others, eq_comm]
  case cons e entries hi =>
    obtain ⟨k, x⟩ := e
    by_cases hk : f.name = k
    case pos =>
      rw [Field.fills_cons_own hk, Field.others_cons_self hk]
      simp only [decodeEntries, store, if_pos hk]
      cases slot
      case some => simp [Bind.bind, Except.bind]
      case none => cases hd : f.wire.decode x <;> simp [Bind.bind, Except.bind, Functor.map, Except.map, hi]
    case neg =>
      rw [Field.fills_cons_other hk, Field.others_cons_ne hk]
      simp only [decodeEntries, store, if_neg hk]
      rcases fs.store k _ _ slots with _ | _ | _
      · exact hi
      · simp [Except.map, Bind.bind, Except.bind]
      · exact hi

theorem decodeObject_nil : nil.decodeObject entries = .ok () := by
  rw [decodeObject, noneYet, decodeEntries_nil]
  rfl

theorem decodeObject_cons :
    (cons f fs).decodeObject entries = .ok (a, row) ↔
      f.Gives entries a ∧ fs.decodeObject (f.others entries) = .ok row := by
  rw [Field.gives_iff_fills, decodeObject, decodeObject, noneYet, Outcome.bind_eq_ok, Outcome.bind_eq_ok]
  constructor
  case mp =>
    rintro ⟨⟨slot, slots⟩, h, hc⟩
    obtain ⟨hf, ho⟩ := decodeEntries_cons.mp h
    rw [complete] at hc
    split at hc
    case h_1 => cases hc
    case h_2 hs =>
      obtain ⟨_, hr, hc⟩ := Outcome.bind_eq_ok.mp hc
      cases hc
      exact ⟨⟨slot, hf, hs⟩, ⟨slots, ho, hr⟩⟩
  case mpr =>
    rintro ⟨⟨slot, hf, hs⟩, ⟨slots, ho, hr⟩⟩
    refine ⟨(slot, slots), decodeEntries_cons.mpr ⟨hf, ho⟩, ?_⟩
    rw [complete, hs]
    simp [hr, Bind.bind, Except.bind]

section Insert

variable {before after : List (String × Json)}

theorem decodeObject_insert_own : (cons f fs).decodeObject (before ++ (f.name, x) :: after) = .ok (a, row) ↔
    f.own (before ++ after) = [] ∧ f.wire.decode x = .ok a ∧
      fs.decodeObject (f.others (before ++ after)) = .ok row := by
  rw [decodeObject_cons, Field.gives_insert_own, Field.others_insert_own, and_assoc]

theorem decodeObject_insert_other (h : f.name ≠ k) :
    (cons f fs).decodeObject (before ++ (k, x) :: after) = .ok (a, row) ↔
      f.Gives (before ++ after) a ∧ fs.decodeObject (f.others before ++ (k, x) :: f.others after) = .ok row := by
  rw [decodeObject_cons, Field.gives_insert_other h, Field.others_insert_other h]

end Insert

section List

variable {name : String} {xs surplus : List Json} {index : Nat} {βs : List Type} {gs : Fields βs}

theorem decodeList_eq_ok :
    fs.decodeList name xs = .ok row ↔ inOrder (decodeList.decodeNext name fs) 0 fs xs = .ok (row, []) := by
  rw [decodeList, Outcome.bind_eq_ok]
  constructor
  case mp =>
    rintro ⟨⟨_, surplus⟩, h, hs⟩
    cases surplus <;> cases hs
    exact h
  case mpr =>
    intro h
    exact ⟨_, h, rfl⟩

theorem inOrder_cons :
    inOrder (decodeList.decodeNext name gs) index (cons f fs) (x :: xs) = .ok ((a, row), surplus) ↔
      f.wire.decode x = .ok a ∧ inOrder (decodeList.decodeNext name gs) (index + 1) fs xs = .ok (row, surplus) := by
  simp only [inOrder, decodeList.decodeNext, Outcome.bind_eq_ok]
  constructor
  case mp =>
    rintro ⟨_, ⟨_, hx, h⟩, _, hr, he⟩
    cases h
    cases he
    exact ⟨hx, hr⟩
  case mpr =>
    rintro ⟨hx, hr⟩
    exact ⟨_, ⟨_, hx, rfl⟩, _, hr, rfl⟩

end List

end Fields

end Decode

section Read

theorem rel_map {α α' β β' : Type} {r : α → β → Prop} {s : α' → β' → Prop} {f : α → α'} {g : β → β'} {a : Option α}
    {b : Option β} (h : Option.Rel r a b) (hi : ∀ a b, r a b → s (f a) (g b)) :
    Option.Rel s (a.map f) (b.map g) := by
  cases h
  case none   => exact .none
  case some h => exact .some (hi _ _ h)

variable {β : Type} {r : Access β ReadError} {y : β} {ys : List (String × β)} {depth bound : Nat} {isFirst : Bool}
  {cs bs ds es rest : List Char}

namespace Fields

-- The entries have the same name, and in a text the field of that name reads the one value to what it gets from the
-- other.
def ReadsAs (fs : Fields αs) (r : Access β ReadError) (depth : Nat) (e : String × Json) (y : String × β) : Prop :=
  e.1 = y.1 ∧ fs.All fun f => f.name = e.1 → f.wire.Reads depth e.2 (r.get f.wire y.2)

-- What stands between a key and the next one.
def readEntry (fs : Fields αs) (slots : Slots αs) (k : String) (cs : List Char) :
    Json.Scan ReadError (Slots αs × List Char) :=
  match fs.store k ⟨.mismatch (.duplicateField k), cs⟩ (fun w => do w.read (← scan (Json.colon cs))) slots with
  | some stored => stored
  | none        => do
    let cs ← scan (Json.colon cs)
    let cs ← scan (Json.skip cs)
    .ok (slots, cs)

theorem readEntries_some (hn : Json.nextKey isFirst cs = .ok (some k, bs)) :
    fs.readEntries (bound + 1) isFirst slots cs =
      fs.readEntry slots k bs >>= fun (slots, cs) => fs.readEntries bound false slots cs := by
  simp only [readEntries, readEntry, hn, scan_ok, ok_bind]
  generalize fs.store k _ _ slots = stored
  cases stored
  case none   => simp only [bind_assoc, ok_bind]
  case some _ => rfl

-- Either no field has the name, or its value is read to what it is.
theorem store_ends (hc : Json.colon bs = .ok ds) (hx : Json.ValueAt depth ds x es)
    (hf : fs.All fun f => f.name = k → f.wire.Reads depth x (r.get f.wire y)) (slots : Slots αs) :
    Option.Rel (fun stored o => Ends stored (Prod.fst <$> o) es)
      (fs.store k ⟨.mismatch (.duplicateField k), bs⟩ (fun w => do w.read (← scan (Json.colon bs))) slots)
      (fs.store k (.mismatch (.duplicateField k)) (fun w => (·, ()) <$> r.get w y) slots) := by
  induction fs
  case nil          => exact .none
  case cons f fs hi =>
    obtain ⟨slot, slots⟩ := slots
    by_cases hk : f.name = k
    case pos =>
      simp only [store, if_pos hk, hc, scan_ok, ok_bind]
      refine .some ?_
      cases slot
      case some => exact ends_error
      case none =>
        have h := hf.left hk _ _ hx |>.map fun a => (some a, slots)
        cases ho : r.get f.wire y <;> rw [ho] at h <;> exact h
    case neg =>
      simp only [store, if_neg hk]
      refine rel_map (hi hf.right slots) fun _ o h => ?_
      have h := h.map fun slots => (slot, slots)
      cases o <;> exact h

variable (hr : r.fault = .mismatch)
include hr

theorem readEntry_ends (hc : Json.colon bs = .ok ds) (hx : Json.ValueAt depth ds x es)
    (hf : fs.All fun f => f.name = k → f.wire.Reads depth x (r.get f.wire y)) :
    Ends (fs.readEntry slots k bs) (fs.advance r slots k y) es := by
  have h := store_ends hc hx hf slots
  simp only [readEntry, advance, hr]
  generalize fs.store k _ _ slots = stored at h ⊢
  generalize fs.store k _ _ slots = kept at h ⊢
  cases h
  case none   =>
    simp only [hc, hx.skip_eq, scan_ok, ok_bind]
    rfl
  case some h => exact h

-- An object is read entry by entry, and ends as the other forms of its entries do.
theorem readEntries_ends (hf : entries.Forall₂ (fs.ReadsAs r depth) ys) (hb : cs.length < bound)
    (h : Json.EntriesAt depth isFirst cs entries rest) (slots : Slots αs) :
    Ends (fs.readEntries bound isFirst slots cs) (fs.gather r slots ys) rest := by
  induction hf generalizing bound isFirst cs slots
  case nil =>
    obtain ⟨ds, hn, rfl⟩ := Json.entriesAt_nil.mp h
    cases bound
    case zero   => contradiction
    case succ _ =>
      simp only [readEntries, hn, scan_ok]
      rfl
  case cons e y entries ys he _ hi =>
    obtain ⟨k, y⟩ := y
    obtain ⟨rfl, he⟩ := he
    have ⟨bs, ds, es, hn, hc, hx, hxs⟩ := Json.entriesAt_cons.mp h
    cases bound
    case zero       => contradiction
    case succ bound =>
      have hl : es.length < bound := Json.length_entry_lt hn hc hx |>.trans_le <| Nat.le_of_lt_succ hb
      rw [readEntries_some hn]
      exact readEntry_ends hr hc hx he |>.bind fun slots => hi hl hxs slots

theorem readObject_ends (hf : entries.Forall₂ (fs.ReadsAs r depth) ys)
    (h : Json.EntriesAt depth true cs entries rest) : Ends (fs.readObject cs) (fs.gatherObject r ys) rest :=
  readEntries_ends hr hf (Nat.lt_succ_self _) h fs.noneYet |>.bind fun _ => hr ▸ ends_settle

end Fields

theorem Record.agrees_object {ρ : Type} {r : Record ρ}
    (ha : ∀ e ∈ entries, r.fields.All fun f => f.name = e.1 → f.wire.Agrees depth e.2) :
    r.wire.Agrees (depth + 1) (.object entries) := by
  intro cs rest h
  obtain ⟨_, ds, hd, hs, h⟩ := Json.valueAt_object.mp h
  cases hd
  have hf : entries.Forall₂ (r.fields.ReadsAs (Access.inMemory.mapError .mismatch) depth) entries :=
    List.forall₂_same.mpr fun e he => ⟨rfl, ha e he |>.imp fun _ h hk => (h hk).reads⟩
  have h := Fields.readObject_ends rfl hf h
  rw [Fields.gatherObject_mapError, ← Fields.decodeObject_eq_gatherObject] at h
  simp only [Record.wire, hs]
  exact settles_iff_ends.mpr h |>.map r.build

end Read

end CauldronCalls.Wire
