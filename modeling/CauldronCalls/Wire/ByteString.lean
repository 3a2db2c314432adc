import CauldronCalls.Wire

/-!
Byte strings of a fixed length: hexadecimal text, or a list of bytes.

After the last byte of a list one more item is tried. Where it is a byte too, the list is too long; where it is
none, its fault is dropped and the reader goes on from where it stopped.
-/

namespace CauldronCalls.Wire.ByteString

def asHex (n : Nat) : Json.Shape → Except Mismatch (FixedBytes n)
  | .string s => (Hex.ofString n s).mapError .notHex
  | found     => .error (.wrongType found (.byteString n))

-- The last `k` of `n` bytes.
def readOctets (n : Nat) : Nat → List Char → Json.Scan ReadError (Bytes × List Char)
  | 0, cs     => .ok ([], cs)
  | k + 1, cs => do
    let (more, cs) ← scan (Json.nextItem (n == k + 1) cs)
    if more then
      let (b, cs) ← uint8.read cs
      let (bs, cs) ← readOctets n k cs
      .ok (b :: bs, cs)
    else .error ⟨.mismatch (.wrongLength (n - (k + 1)) (.exactly n)), cs⟩

-- The text behind the item that is tried after the last byte.
def readSurplus (n : Nat) (cs : List Char) : Json.Scan ReadError (List Char) :=
  match scan (Json.nextItem (n == 0) cs) with
  | .ok (false, cs) => .ok cs
  | .ok (true, cs)  =>
    match uint8.read cs with
    | .ok (_, cs)   => .error ⟨.mismatch (.wrongLength (n + 1) (.exactly n)), cs⟩
    | .error e      => .ok e.rest
  | .error e        => .ok e.rest

def readList (n : Nat) (cs : List Char) : Json.Scan ReadError (FixedBytes n × List Char) := do
  let (bs, cs) ← readOctets n n cs
  let cs ← readSurplus n cs
  let cs ← scan (Json.closeList cs)
  match FixedBytes.ofList? n bs with
  | some b => .ok (b, cs)
  | none   => .error ⟨.mismatch (.wrongLength bs.length (.exactly n)), cs⟩

def decodeOctets (n : Nat) : Nat → List Json → Except Mismatch (Bytes × List Json)
  | 0, xs          => .ok ([], xs)
  | k + 1, []      => .error (.wrongLength (n - (k + 1)) (.exactly n))
  | k + 1, x :: xs => do
    let b ← uint8.decode x
    let (bs, xs) ← decodeOctets n k xs
    .ok (b :: bs, xs)

def decodeSurplus (n : Nat) : List Json → Except Mismatch Unit
  | []      => .ok ()
  | x :: xs =>
    match uint8.decode x with
    | .ok _    => .error (.wrongLength (n + 1) (.exactly n))
    | .error _ => if xs.isEmpty then .ok () else .error (.wrongLength (n + 1 + xs.length) (.sequence (n + 1)))

def decodeList (n : Nat) (xs : List Json) : Except Mismatch (FixedBytes n) := do
  let (bs, surplus) ← decodeOctets n n xs
  decodeSurplus n surplus
  match FixedBytes.ofList? n bs with
  | some b => .ok b
  | none   => .error (.wrongLength bs.length (.exactly n))

end ByteString

def byteString (n : Nat) : Wire (FixedBytes n) where
  read cs :=
    match Json.skipBlanks cs with
    | '[' :: cs => ByteString.readList n cs
    | cs        => do
      let (shape, cs) ← scan (Json.readShape cs)
      settle cs (ByteString.asHex n shape)
  decode
    | .array xs => ByteString.decodeList n xs
    | x         => ByteString.asHex n x.shape
  encode b := .string (Hex.encode b.toList)

def address : Wire Address :=
  byteString 20

def word : Wire Bytes32 :=
  byteString 32

end CauldronCalls.Wire
