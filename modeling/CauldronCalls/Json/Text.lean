import CauldronCalls.Json.Malformed

/-!
Strings: their contents between the quotes, read and written.
-/

namespace CauldronCalls.Json

def hexDigit? (c : Char) : Option Nat :=
  if '0' ≤ c ∧ c ≤ '9' then some (c.toNat - 48)
  else if 'A' ≤ c ∧ c ≤ 'F' then some (c.toNat - 55)
  else if 'a' ≤ c ∧ c ≤ 'f' then some (c.toNat - 87)
  else none

-- Four hexadecimal digits. Four bytes are taken even where they are no digits.
def codeUnit (cs : List Char) : Scan Malformed (Nat × List Char) :=
  if (cs.take 4).foldl (fun n c => n + c.utf8Size) 0 < 4 then .error ⟨.endInString, []⟩
  else
    match (cs.take 4).mapM hexDigit? with
    | some ds => if ds.length = 4 then .ok (ds.foldl (16 * · + ·) 0, cs.drop 4)
                 else .error ⟨.invalidEscape, dropBytes 4 cs⟩
    | none    => .error ⟨.invalidEscape, dropBytes 4 cs⟩

def isLeading (n : Nat) : Bool :=
  0xd800 ≤ n && n ≤ 0xdbff

def isTrailing (n : Nat) : Bool :=
  0xdc00 ≤ n && n ≤ 0xdfff

-- The second half of a surrogate pair whose first half is `high`.
def trailingUnit (high : Nat) : List Char → Scan Malformed (Char × List Char)
  | [] | ['\\']        => .error ⟨.endInString, []⟩
  | '\\' :: 'u' :: cs => do
    let (low, cs) ← codeUnit cs
    if isTrailing low then .ok (Char.ofNat (0x10000 + 0x400 * (high - 0xd800) + (low - 0xdc00)), cs)
    else .error ⟨.loneSurrogate, cs⟩
  | '\\' :: cs        => .error ⟨.unfinishedSurrogate, dropByte cs⟩
  | cs                => .error ⟨.unfinishedSurrogate, dropByte cs⟩

def unicodeEscape (cs : List Char) : Scan Malformed (Char × List Char) := do
  let (n, cs) ← codeUnit cs
  if isTrailing n then .error ⟨.loneSurrogate, cs⟩
  else if isLeading n then trailingUnit n cs
  else .ok (Char.ofNat n, cs)

-- The character that one letter behind a backslash stands for.
def simpleEscape? : Char → Option Char
  | '"'  => some '"'
  | '\\' => some '\\'
  | '/'  => some '/'
  | 'b'  => some '\x08'
  | 'f'  => some '\x0c'
  | 'n'  => some '\n'
  | 'r'  => some '\r'
  | 't'  => some '\t'
  | _    => none

-- What follows a backslash.
def escape : List Char → Scan Malformed (Char × List Char)
  | []      => .error ⟨.endInString, []⟩
  | c :: cs =>
    if c = 'u' then unicodeEscape cs
    else
      match simpleEscape? c with
      | some x => .ok (x, cs)
      | none   => .error ⟨.invalidEscape, dropByte (c :: cs)⟩

-- An escape in a string that nobody reads: any four digits will do.
def skipEscape : List Char → Scan Malformed (List Char)
  | []      => .error ⟨.endInString, []⟩
  | c :: cs =>
    if c = 'u' then do
      let (_, cs) ← codeUnit cs
      .ok cs
    else
      match simpleEscape? c with
      | some _ => .ok cs
      | none   => .error ⟨.invalidEscape, dropByte (c :: cs)⟩

-- The contents of a string up to its closing quote. The bound exceeds the length of the text.
def stringBody : Nat → List Char → Scan Malformed (List Char × List Char)
  | 0, cs              => .error ⟨.endInString, cs⟩
  | _ + 1, []          => .error ⟨.endInString, []⟩
  | bound + 1, c :: cs =>
    if c = '"' then .ok ([], cs)
    else if c = '\\' then do
      let (x, cs) ← escape cs
      let (xs, cs) ← stringBody bound cs
      .ok (x :: xs, cs)
    else if c.toNat < 0x20 then .error ⟨.controlCharacter, cs⟩
    else do
      let (xs, cs) ← stringBody bound cs
      .ok (c :: xs, cs)

def readString (cs : List Char) : Scan Malformed (String × List Char) := do
  let (xs, cs) ← stringBody (cs.length + 1) cs
  .ok (String.ofList xs, cs)

def skipStringBody : Nat → List Char → Scan Malformed (List Char)
  | 0, cs              => .error ⟨.endInString, cs⟩
  | _ + 1, []          => .error ⟨.endInString, []⟩
  | bound + 1, c :: cs =>
    if c = '"' then .ok cs
    else if c = '\\' then do skipStringBody bound (← skipEscape cs)
    else if c.toNat < 0x20 then .error ⟨.controlCharacter, cs⟩
    else skipStringBody bound cs

def skipString (cs : List Char) : Scan Malformed (List Char) :=
  skipStringBody (cs.length + 1) cs

-- Only quotes, backslashes and control characters need an escape.
def printChar (c : Char) : List Char :=
  if c = '"' then ['\\', '"']
  else if c = '\\' then ['\\', '\\']
  else if c = '\x08' then ['\\', 'b']
  else if c = '\x0c' then ['\\', 'f']
  else if c = '\n' then ['\\', 'n']
  else if c = '\r' then ['\\', 'r']
  else if c = '\t' then ['\\', 't']
  else if c.toNat < 0x20 then
    ['\\', 'u', '0', '0'] ++ [Nat.digitChar (c.toNat / 16), Nat.digitChar (c.toNat % 16)]
  else [c]

def printString (s : String) : List Char :=
  '"' :: s.toList.flatMap printChar ++ ['"']

end CauldronCalls.Json
