import CauldronCalls.Json.Numeral
import CauldronCalls.Json.Text

/-!
Reading JSON text from left to right. The first fault met ends the reading. Besides whole values there are
readers for the pieces that a reader of one particular shape needs: what a value shows at its beginning, the
next item of a list, the next key of an object.
-/

namespace CauldronCalls.Json

def isBlank (c : Char) : Bool :=
  c = ' ' || c = '\n' || c = '\t' || c = '\r'

def skipBlanks (cs : List Char) : List Char :=
  cs.dropWhile isBlank

-- The remaining letters of a word whose first letter was read.
def word : List Char → List Char → Scan Malformed (List Char)
  | [], cs          => .ok cs
  | _ :: _, []      => .error ⟨.endInValue, []⟩
  | w :: ws, c :: cs => if c = w then word ws cs else .error ⟨.expectedWord, dropByte (c :: cs)⟩

-- Reads a value as far as its shape goes: a list or an object is left before its bracket.
def readShape (cs : List Char) : Scan Malformed (Shape × List Char) :=
  match skipBlanks cs with
  | []        => .error ⟨.endInValue, []⟩
  | 'n' :: cs => do .ok (.null, ← word ['u', 'l', 'l'] cs)
  | 't' :: cs => do .ok (.boolean true, ← word ['r', 'u', 'e'] cs)
  | 'f' :: cs => do .ok (.boolean false, ← word ['a', 'l', 's', 'e'] cs)
  | '"' :: cs => do
    let (s, cs) ← readString cs
    .ok (.string s, cs)
  | '-' :: cs => do
    let (n, cs) ← readNumber true cs
    .ok (.number n, cs)
  | '[' :: cs => .ok (.sequence, '[' :: cs)
  | '{' :: cs => .ok (.map, '{' :: cs)
  | c :: cs   =>
    if isDigit c then do
      let (n, cs) ← readNumber false (c :: cs)
      .ok (.number n, cs)
    else .error ⟨.expectedValue, c :: cs⟩

-- Whether a list goes on; then the text begins with its next item, and else with the closing bracket.
def nextItem (isFirst : Bool) (cs : List Char) : Scan Malformed (Bool × List Char) :=
  match skipBlanks cs with
  | []        => .error ⟨.endInList, []⟩
  | ']' :: cs => .ok (false, ']' :: cs)
  | c :: cs   =>
    if isFirst then .ok (true, c :: cs)
    else if c = ',' then
      match skipBlanks cs with
      | []        => .error ⟨.endInValue, []⟩
      | ']' :: cs => .error ⟨.trailingComma, ']' :: cs⟩
      | cs        => .ok (true, cs)
    else .error ⟨.expectedCommaOrBracket, c :: cs⟩

-- The closing bracket of a list of which enough was read.
def closeList (cs : List Char) : Scan Malformed (List Char) :=
  match skipBlanks cs with
  | []        => .error ⟨.endInList, []⟩
  | ']' :: cs => .ok cs
  | ',' :: cs =>
    match skipBlanks cs with
    | ']' :: cs => .error ⟨.trailingComma, ']' :: cs⟩
    | cs        => .error ⟨.trailingCharacters, cs⟩
  | cs        => .error ⟨.trailingCharacters, cs⟩

-- The next key of an object, if it goes on; else the text begins with the closing brace.
def nextKey (isFirst : Bool) (cs : List Char) : Scan Malformed (Option String × List Char) :=
  match skipBlanks cs with
  | []        => .error ⟨.endInObject, []⟩
  | '}' :: cs => .ok (none, '}' :: cs)
  | c :: cs   =>
    if isFirst then key (c :: cs)
    else if c = ',' then
      match skipBlanks cs with
      | []        => .error ⟨.endInValue, []⟩
      | '}' :: cs => .error ⟨.trailingComma, '}' :: cs⟩
      | cs        => key cs
    else .error ⟨.expectedCommaOrBrace, c :: cs⟩
where
  key : List Char → Scan Malformed (Option String × List Char)
    | '"' :: cs => do
      let (k, cs) ← readString cs
      .ok (some k, cs)
    | cs        => .error ⟨.keyNotString, cs⟩

def colon (cs : List Char) : Scan Malformed (List Char) :=
  match skipBlanks cs with
  | []        => .error ⟨.endInObject, []⟩
  | ':' :: cs => .ok cs
  | cs        => .error ⟨.expectedColon, cs⟩

-- Nothing but blanks may follow the value of a text.
def finish (cs : List Char) : Scan Malformed Unit :=
  match skipBlanks cs with
  | [] => .ok ()
  | cs => .error ⟨.trailingCharacters, cs⟩

-- Both bounds shrink with each call: the first exceeds twice the length of the text, the second is the number of
-- brackets that may still be opened.
mutual

def readValue : Nat → Nat → List Char → Scan Malformed (Json × List Char)
  | 0, _, cs             => .error ⟨.endInValue, cs⟩
  | bound + 1, depth, cs => do
    let (shape, cs) ← readShape cs
    match shape with
    | .null      => .ok (.null, cs)
    | .boolean b => .ok (.boolean b, cs)
    | .number n  => .ok (.number n, cs)
    | .string s  => .ok (.string s, cs)
    | .sequence  =>
      match depth with
      | 0         => .error ⟨.tooDeep, cs⟩
      | depth + 1 => do
        let (items, cs) ← readItems bound depth true (cs.drop 1)
        .ok (.array items, cs)
    | .map       =>
      match depth with
      | 0         => .error ⟨.tooDeep, cs⟩
      | depth + 1 => do
        let (entries, cs) ← readEntries bound depth true (cs.drop 1)
        .ok (.object entries, cs)

-- The items up to the closing bracket, which is read too.
def readItems : Nat → Nat → Bool → List Char → Scan Malformed (List Json × List Char)
  | 0, _, _, cs                   => .error ⟨.endInList, cs⟩
  | bound + 1, depth, isFirst, cs => do
    let (more, cs) ← nextItem isFirst cs
    if more then
      let (x, cs) ← readValue bound depth cs
      let (xs, cs) ← readItems bound depth false cs
      .ok (x :: xs, cs)
    else .ok ([], cs.drop 1)

def readEntries : Nat → Nat → Bool → List Char → Scan Malformed (List (String × Json) × List Char)
  | 0, _, _, cs                   => .error ⟨.endInObject, cs⟩
  | bound + 1, depth, isFirst, cs => do
    let (key?, cs) ← nextKey isFirst cs
    match key? with
    | none   => .ok ([], cs.drop 1)
    | some k => do
      let cs ← colon cs
      let (x, cs) ← readValue bound depth cs
      let (xs, cs) ← readEntries bound depth false cs
      .ok ((k, x) :: xs, cs)

end

def bound (cs : List Char) : Nat :=
  2 * cs.length + 2

end CauldronCalls.Json
