import CauldronCalls.Json.Printer
import CauldronCalls.Json.Skip
import CauldronCalls.Uint256.Literal
import CauldronCalls.Wire.Mismatch

/-!
JSON forms of the library's types. A form can be read straight from a text, where the first fault from left to
right counts, be it one of the text or of its meaning; it can also be decoded from a value already read.
-/

namespace CauldronCalls

inductive ReadError where
  | malformed (cause : Json.Malformed)
  | mismatch (cause : Mismatch)
deriving DecidableEq, Repr

def ReadError.message : ReadError → String
  | malformed cause => cause.message
  | mismatch cause  => cause.message

structure Wire (α : Type) where
  read : List Char → Json.Scan ReadError (α × List Char)
  decode : Json → Except Mismatch α
  encode : α → Json

namespace Wire

-- A fault of the text, as a fault of what is read from it.
def scan {α : Type} (r : Json.Scan Json.Malformed α) : Json.Scan ReadError α :=
  r.mapError (Json.Failure.map .malformed)

-- A value that was read as far as `rest` may still not be the one wanted.
def settle {α : Type} (rest : List Char) : Except Mismatch α → Json.Scan ReadError (α × List Char)
  | .ok a    => .ok (a, rest)
  | .error m => .error ⟨.mismatch m, rest⟩

-- The form of values whose shape tells everything about them; lists and objects are never among them.
def ofShape {α : Type} (interpret : Json.Shape → Except Mismatch α) (encode : α → Json) : Wire α where
  read cs := do
    let (shape, cs) ← scan (Json.readShape cs)
    settle cs (interpret shape)
  decode x := interpret x.shape
  encode := encode

def asText : Json.Shape → Except Mismatch String
  | .string s => .ok s
  | found     => .error (.wrongType found .text)

def text : Wire String :=
  ofShape asText .string

def asBoolean : Json.Shape → Except Mismatch Bool
  | .boolean b => .ok b
  | found      => .error (.wrongType found .boolean)

def boolean : Wire Bool :=
  ofShape asBoolean .boolean

-- An integer of the wrong size or sign is of the right type.
def asUnsigned (bits : Nat) : Json.Shape → Except Mismatch Nat
  | .number (.natural n)  =>
    if n < 1 <<< bits then .ok n else .error (.wrongValue (.number (.natural n)) (.unsigned bits))
  | .number (.negative n) => .error (.wrongValue (.number (.negative n)) (.unsigned bits))
  | found                 => .error (.wrongType found (.unsigned bits))

def natural (n : Nat) : Json :=
  .number (.natural n)

def uint8 : Wire UInt8 :=
  ofShape (fun x => UInt8.ofNat <$> asUnsigned 8 x) fun n => natural n.toNat

def uint32 : Wire UInt32 :=
  ofShape (fun x => UInt32.ofNat <$> asUnsigned 32 x) fun n => natural n.toNat

def uint64 : Wire UInt64 :=
  ofShape (fun x => UInt64.ofNat <$> asUnsigned 64 x) fun n => natural n.toNat

def asAmount : Json.Shape → Except Mismatch Uint256
  | .number (.natural n) => .ok (BitVec.ofNat 256 n)
  | .string s            =>
    match Uint256.parse? s with
    | some a => .ok a
    | none   => .error (.wrongValue (.string s) .amount)
  | found                => .error (.wrongType found .amount)

def amount : Wire Uint256 :=
  ofShape asAmount fun a => .string a.hex

def asAsset (x : Json.Shape) : Except Mismatch Asset := do
  (Asset.ofString (← asText x)).mapError .notAsset

def asset : Wire Asset :=
  ofShape asAsset fun a => .string a.text

-- Null means that there is no value.
def optional {α : Type} (w : Wire α) : Wire (Option α) where
  read cs :=
    match Json.skipBlanks cs with
    | 'n' :: cs => do .ok (none, ← scan (Json.word ['u', 'l', 'l'] cs))
    | cs        => do
      let (a, cs) ← w.read cs
      .ok (some a, cs)
  decode
    | .null => .ok none
    | x     => some <$> w.decode x
  encode
    | none   => .null
    | some a => w.encode a

-- The value of a text that holds nothing else.
def parse {α : Type} (w : Wire α) (s : String) : Except ReadError α :=
  (do
    let (a, cs) ← w.read s.toList
    scan (Json.finish cs)
    pure a).mapError Json.Failure.cause

end Wire

end CauldronCalls
