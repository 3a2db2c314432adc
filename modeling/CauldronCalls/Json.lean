import CauldronCalls.Double

/-!
JSON values. Objects keep their entries in the order of the text, repeated names included.
-/

namespace CauldronCalls

-- An integer of at most 64 bits, or else the double that the text is read as.
inductive Json.Number where
  | natural (n : Nat)
  -- The number `-n`, for a positive `n`.
  | negative (n : Nat)
  | double (x : Double)
deriving DecidableEq, Repr

inductive Json where
  | null
  | boolean (b : Bool)
  | number (n : Json.Number)
  | string (s : String)
  | array (items : List Json)
  | object (entries : List (String × Json))

namespace Json

-- What a value shows before one looks inside it.
inductive Shape where
  | null
  | boolean (b : Bool)
  | number (n : Number)
  | string (s : String)
  | sequence
  | map
deriving DecidableEq, Repr

def shape : Json → Shape
  | null      => .null
  | boolean b => .boolean b
  | number n  => .number n
  | string s  => .string s
  | array _   => .sequence
  | object _  => .map

end Json

end CauldronCalls
