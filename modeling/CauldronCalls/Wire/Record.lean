import CauldronCalls.Wire

/-!
Records: an object with named fields in any order, or the list of all fields in the order of declaration.

Fields of an object are taken as they come. A field that occurs twice is refused at its second occurrence, before
that value is looked at. Names that the record does not know are passed over. Only at the end of the object is
the first required field that never came reported.
-/

namespace CauldronCalls.Wire

structure Field (α : Type) where
  name : String
  wire : Wire α
  -- What a field that does not occur means, unless it has to occur.
  absent : Option α

def Field.required {α : Type} (name : String) (w : Wire α) : Field α :=
  ⟨name, w, none⟩

def Field.optional {α : Type} (name : String) (w : Wire α) : Field (Option α) :=
  ⟨name, w.optional, some none⟩

-- The fields of a record in the order of declaration.
inductive Fields : List Type → Type 1 where
  | nil : Fields []
  | cons {α : Type} {αs : List Type} (field : Field α) (fields : Fields αs) : Fields (α :: αs)

-- One value for each field.
abbrev Row : List Type → Type
  | []      => Unit
  | α :: αs => α × Row αs

-- The values that came so far.
abbrev Slots : List Type → Type
  | []      => Unit
  | α :: αs => Option α × Slots αs

namespace Fields

def count : {αs : List Type} → Fields αs → Nat
  | _, nil       => 0
  | _, cons _ fs => fs.count + 1

def noneYet : {αs : List Type} → Fields αs → Slots αs
  | _, nil       => ()
  | _, cons _ fs => (none, fs.noneYet)

-- Puts the value that `get` answers into the slot of the field called `name`, if there is such a field.
def store {ε σ : Type} (name : String) (twice : ε) (get : {α : Type} → Wire α → Except ε (α × σ)) :
    {αs : List Type} → Fields αs → Slots αs → Option (Except ε (Slots αs × σ))
  | _, nil, _                      => none
  | _, cons field fs, (slot, slots) =>
    if field.name = name then
      some <|
        match slot with
        | some _ => .error twice
        | none   => do
          let (a, rest) ← get field.wire
          .ok ((some a, slots), rest)
    else
      (fs.store name twice get slots).map fun r => r.map fun (slots, rest) => ((slot, slots), rest)

-- The record's values once no more can come.
def complete : {αs : List Type} → Fields αs → Slots αs → Except Mismatch (Row αs)
  | _, nil, _                      => .ok ()
  | _, cons field fs, (slot, slots) =>
    match slot <|> field.absent with
    | none   => .error (.missingField field.name)
    | some a => do
      let row ← fs.complete slots
      .ok (a, row)

-- The values of a list of fields, the first of which stands at `index`.
def inOrder {ε σ : Type} (next : Nat → {α : Type} → Wire α → σ → Except ε (α × σ)) :
    {αs : List Type} → Nat → Fields αs → σ → Except ε (Row αs × σ)
  | _, _, nil, rest               => .ok ((), rest)
  | _, index, cons field fs, rest => do
    let (a, rest) ← next index field.wire rest
    let (row, rest) ← inOrder next (index + 1) fs rest
    .ok ((a, row), rest)

def encode : {αs : List Type} → Fields αs → Row αs → List (String × Json)
  | _, nil, _                  => []
  | _, cons field fs, (a, row) => (field.name, field.wire.encode a) :: fs.encode row

-- The entries of an object after its opening brace. The bound exceeds the length of the text.
def readEntries {αs : List Type} (fs : Fields αs) :
    Nat → Bool → Slots αs → List Char → Json.Scan ReadError (Slots αs × List Char)
  | 0, _, _, cs                       => .error ⟨.malformed .endInObject, cs⟩
  | bound + 1, isFirst, slots, cs => do
    let (key?, cs) ← scan (Json.nextKey isFirst cs)
    match key? with
    | none     => .ok (slots, cs.drop 1)
    | some key =>
      let twice := ⟨.mismatch (.duplicateField key), cs⟩
      match fs.store key twice (fun w => do w.read (← scan (Json.colon cs))) slots with
      | some stored => do
        let (slots, cs) ← stored
        fs.readEntries bound false slots cs
      | none        => do
        let cs ← scan (Json.colon cs)
        let cs ← scan (Json.skip cs)
        fs.readEntries bound false slots cs

def readObject {αs : List Type} (fs : Fields αs) (cs : List Char) :
    Json.Scan ReadError (Row αs × List Char) := do
  let (slots, cs) ← fs.readEntries (cs.length + 1) true fs.noneYet cs
  settle cs (fs.complete slots)

def readList {αs : List Type} (name : String) (fs : Fields αs) (cs : List Char) :
    Json.Scan ReadError (Row αs × List Char) := do
  let (row, cs) ← fs.inOrder readNext 0 cs
  let cs ← scan (Json.closeList cs)
  .ok (row, cs)
where
  readNext (index : Nat) {α : Type} (w : Wire α) (cs : List Char) : Json.Scan ReadError (α × List Char) := do
    let (more, cs) ← scan (Json.nextItem (index == 0) cs)
    if more then w.read cs
    else .error ⟨.mismatch (.wrongLength index (.elements name fs.count)), cs⟩

def decodeEntries {αs : List Type} (fs : Fields αs) :
    Slots αs → List (String × Json) → Except Mismatch (Slots αs)
  | slots, []             => .ok slots
  | slots, (key, x) :: xs =>
    match fs.store key (.duplicateField key) (fun w => (·, ()) <$> w.decode x) slots with
    | some stored => do
      let (slots, _) ← stored
      fs.decodeEntries slots xs
    | none        => fs.decodeEntries slots xs

def decodeObject {αs : List Type} (fs : Fields αs) (entries : List (String × Json)) :
    Except Mismatch (Row αs) := do
  fs.complete (← fs.decodeEntries fs.noneYet entries)

def decodeList {αs : List Type} (name : String) (fs : Fields αs) (items : List Json) :
    Except Mismatch (Row αs) := do
  let (row, surplus) ← fs.inOrder decodeNext 0 items
  if surplus.isEmpty then .ok row else .error (.wrongLength items.length (.sequence fs.count))
where
  decodeNext (index : Nat) {α : Type} (w : Wire α) : List Json → Except Mismatch (α × List Json)
    | []      => .error (.wrongLength index (.elements name fs.count))
    | x :: xs => do .ok (← w.decode x, xs)

end Fields

-- A record type with its fields, and how its values are made of theirs.
structure Record (ρ : Type) where
  name : String
  {types : List Type}
  fields : Fields types
  build : Row types → ρ
  row : ρ → Row types

def Record.wire {ρ : Type} (r : Record ρ) : Wire ρ where
  read cs :=
    match Json.skipBlanks cs with
    | '[' :: cs => do
      let (row, cs) ← r.fields.readList r.name cs
      .ok (r.build row, cs)
    | '{' :: cs => do
      let (row, cs) ← r.fields.readObject cs
      .ok (r.build row, cs)
    | cs        => do
      let (shape, cs) ← scan (Json.readShape cs)
      .error ⟨.mismatch (.wrongType shape (.record r.name)), cs⟩
  decode
    | .array xs  => r.build <$> r.fields.decodeList r.name xs
    | .object xs => r.build <$> r.fields.decodeObject xs
    | x          => .error (.wrongType x.shape (.record r.name))
  encode x := .object (r.fields.encode (r.row x))

end CauldronCalls.Wire
