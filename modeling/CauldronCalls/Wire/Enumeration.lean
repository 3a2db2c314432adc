import CauldronCalls.Wire

/-!
Enumerations: the name of a variant, or an object with that name as its only key and null as its value.
-/

namespace CauldronCalls.Wire.Enumeration

def variant {α : Type} (all : List α) (name : α → String) (s : String) : Except Mismatch α :=
  match all.find? (name · == s) with
  | some a => .ok a
  | none   => .error (.unknownVariant s (all.map name))

def asVariant {α : Type} (all : List α) (name : α → String) : Json.Shape → Except Mismatch α
  | .string s => variant all name s
  | found     => .error (.wrongType found .variantName)

def asUnit : Json.Shape → Except Mismatch Unit
  | .null => .ok ()
  | found => .error (.wrongType found .unit)

-- What follows the brace of the longer form.
def readKeyed {α : Type} (all : List α) (name : α → String) (cs : List Char) :
    Json.Scan ReadError (α × List Char) := do
  let (shape, cs) ← scan (Json.readShape cs)
  let (a, cs) ← settle cs (asVariant all name shape)
  let cs ← scan (Json.colon cs)
  let (shape, cs) ← scan (Json.readShape cs)
  let (_, cs) ← settle cs (asUnit shape)
  match Json.skipBlanks cs with
  | []        => .error ⟨.malformed .endInObject, []⟩
  | '}' :: cs => .ok (a, cs)
  | cs        => .error ⟨.malformed .expectedValue, cs⟩

def decodeKeyed {α : Type} (all : List α) (name : α → String) : List (String × Json) → Except Mismatch α
  | [(k, x)] => do
    let a ← variant all name k
    asUnit x.shape
    pure a
  | _        => .error (.wrongValue .map .singleKey)

end Enumeration

def enumeration {α : Type} (all : List α) (name : α → String) : Wire α where
  read cs :=
    match Json.skipBlanks cs with
    | []        => .error ⟨.malformed .endInValue, []⟩
    | '{' :: cs => Enumeration.readKeyed all name cs
    | '"' :: cs => do
      let (s, cs) ← scan (Json.readString cs)
      settle cs (Enumeration.variant all name s)
    | cs        => .error ⟨.malformed .expectedValue, cs⟩
  decode
    | .string s  => Enumeration.variant all name s
    | .object xs => Enumeration.decodeKeyed all name xs
    | x          => .error (.wrongType x.shape .variant)
  encode a := .string (name a)

end CauldronCalls.Wire
