import CauldronCalls.Wire.Enumeration
import CauldronCalls.Wire.Parts

/-!
The JSON form of intents: the fields of one of three records, and among them, under the name `operation`, the
tag that says which. In a list the tag comes first.

The tag may stand anywhere, so the whole object is read before any other field is looked at. A tag that is
wrong, or that comes twice, ends the reading at once.
-/

namespace CauldronCalls

open Wire

namespace Operation

-- What tells the operations apart.
inductive Tag where
  | addCollateralAndBorrow
  | repayAndRemoveCollateral
  | addCollateralAndLeverage
deriving DecidableEq, Repr

def Tag.all : List Tag :=
  [.addCollateralAndBorrow, .repayAndRemoveCollateral, .addCollateralAndLeverage]

def Tag.name : Tag → String
  | addCollateralAndBorrow   => "add_collateral_and_borrow"
  | repayAndRemoveCollateral => "repay_and_remove_collateral"
  | addCollateralAndLeverage => "add_collateral_and_leverage"

def tag : Operation → Tag
  | addCollateralAndBorrow _ _   => .addCollateralAndBorrow
  | repayAndRemoveCollateral _ _ => .repayAndRemoveCollateral
  | addCollateralAndLeverage _ _ => .addCollateralAndLeverage

end Operation

namespace Intent

-- The sender, the approval and the two parts that an operation may have.
abbrev Row (α β : Type) :=
  Wire.Row [Address, Option MasterContractApproval, Option α, Option β]

def fields {α β : Type} (first : String) (r₁ : Record α) (second : String) (r₂ : Record β) :
    Fields [Address, Option MasterContractApproval, Option α, Option β] :=
  .cons (.required "from" Wire.address) <|
  .cons (.optional "masterContractApproval" MasterContractApproval.record.wire) <|
  .cons (.optional first r₁.wire) <|
  .cons (.optional second r₂.wire) .nil

def borrowFields : Fields [Address, Option MasterContractApproval, Option AddCollateral, Option Borrow] :=
  fields "add" AddCollateral.record "borrow" Borrow.record

def repayFields : Fields [Address, Option MasterContractApproval, Option Repay, Option RemoveCollateral] :=
  fields "repay" Repay.record "remove" RemoveCollateral.record

def leverageFields : Fields [Address, Option MasterContractApproval, Option AddCollateral, Option Leverage] :=
  fields "add" AddCollateral.record "leverage" Leverage.record

def ofRow {α β : Type} (operation : Option α → Option β → Operation) : Row α β → Intent
  | (sender, approval, a, b, ()) => ⟨sender, approval, operation a b⟩

-- The intent that the untagged fields, an object or a list, make up under a tag.
def decodeTagged (tag : Operation.Tag) (x : Json) : Except Mismatch Intent :=
  match tag with
  | .addCollateralAndBorrow   =>
    ofRow .addCollateralAndBorrow <$> rowOf "AddCollateralAndBorrow" borrowFields x
  | .repayAndRemoveCollateral =>
    ofRow .repayAndRemoveCollateral <$> rowOf "RepayAndRemoveCollateral" repayFields x
  | .addCollateralAndLeverage =>
    ofRow .addCollateralAndLeverage <$> rowOf "AddCollateralAndLeverage" leverageFields x
where
  rowOf (name : String) {αs : List Type} (fs : Fields αs) : Json → Except Mismatch (Wire.Row αs)
    | .array xs  => fs.decodeList name xs
    | .object xs => fs.decodeObject xs
    | x          => .error (.wrongType x.shape (.record name))

def tagField : String := "operation"

def asTag : Json.Shape → Except Mismatch Operation.Tag :=
  Enumeration.asVariant Operation.Tag.all Operation.Tag.name

def readTag (cs : List Char) : Json.Scan ReadError (Operation.Tag × List Char) := do
  let (shape, cs) ← scan (Json.readShape cs)
  settle cs (asTag shape)

-- An intent's own bracket is the first of at most 127 that may be open at once.
def innerDepth : Nat := 126

-- The entries of the object: the tag, if it came, and the others in their order.
def readEntries : Nat → Bool → Option Operation.Tag → List Char →
    Json.Scan ReadError ((Option Operation.Tag × List (String × Json)) × List Char)
  | 0, _, _, cs                      => .error ⟨.malformed .endInObject, cs⟩
  | bound + 1, isFirst, tag?, cs => do
    let (key?, cs) ← scan (Json.nextKey isFirst cs)
    match key? with
    | none     => .ok ((tag?, []), cs.drop 1)
    | some key =>
      if key = tagField then
        if tag?.isSome then .error ⟨.mismatch (.duplicateField tagField), cs⟩
        else do
          let (tag, cs) ← readTag (← scan (Json.colon cs))
          readEntries bound false (some tag) cs
      else do
        let cs ← scan (Json.colon cs)
        let (x, cs) ← scan (Json.readValue (Json.bound cs) innerDepth cs)
        let ((tag?, xs), cs) ← readEntries bound false tag? cs
        .ok ((tag?, (key, x) :: xs), cs)

def readObject (cs : List Char) : Json.Scan ReadError (Intent × List Char) := do
  let ((tag?, entries), cs) ← readEntries (cs.length + 1) true none cs
  match tag? with
  | none     => .error ⟨.mismatch (.missingField tagField), cs⟩
  | some tag => settle cs (decodeTagged tag (.object entries))

def readList (cs : List Char) : Json.Scan ReadError (Intent × List Char) := do
  let (more, cs) ← scan (Json.nextItem true cs)
  if more then
    let (tag, cs) ← readTag cs
    let (items, cs) ← scan (Json.readItems (Json.bound cs) innerDepth false cs)
    settle cs (decodeTagged tag (.array items))
  else .error ⟨.mismatch (.missingField tagField), cs⟩

-- An intent in memory is looked through for its tag in the same way.
def decodeEntries : Option Operation.Tag → List (String × Json) →
    Except Mismatch (Option Operation.Tag × List (String × Json))
  | tag?, []             => .ok (tag?, [])
  | tag?, (key, x) :: xs =>
    if key = tagField then
      if tag?.isSome then .error (.duplicateField tagField)
      else do decodeEntries (some (← asTag x.shape)) xs
    else do
      let (tag?, xs) ← decodeEntries tag? xs
      .ok (tag?, (key, x) :: xs)

def decode : Json → Except Mismatch Intent
  | .object entries => do
    let (tag?, entries) ← decodeEntries none entries
    match tag? with
    | none     => .error (.missingField tagField)
    | some tag => decodeTagged tag (.object entries)
  | .array []       => .error (.missingField tagField)
  | .array (x :: xs) => do decodeTagged (← asTag x.shape) (.array xs)
  | x               => .error (.wrongType x.shape (.tagged "Intent"))

def encode (i : Intent) : Json :=
  .object ((tagField, .string i.operation.tag.name) ::
    match i.operation with
    | .addCollateralAndBorrow add borrow     => borrowFields.encode (i.sender, i.approval, add, borrow, ())
    | .repayAndRemoveCollateral repay remove => repayFields.encode (i.sender, i.approval, repay, remove, ())
    | .addCollateralAndLeverage add leverage => leverageFields.encode (i.sender, i.approval, add, leverage, ()))

def wire : Wire Intent where
  read cs :=
    match Json.skipBlanks cs with
    | '{' :: cs => readObject cs
    | '[' :: cs => readList cs
    | cs        => do
      let (shape, cs) ← scan (Json.readShape cs)
      .error ⟨.mismatch (.wrongType shape (.tagged "Intent")), cs⟩
  decode := decode
  encode := encode

end Intent

end CauldronCalls
