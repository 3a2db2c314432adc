import CauldronCalls.Json.Reader

/-!
Passing over a value that nobody reads. Its form is checked, but not whether numbers are in range and escapes
make up characters, and there is no limit to its depth.
-/

namespace CauldronCalls.Json

def skipKey (cs : List Char) : Scan Malformed (List Char) :=
  match skipBlanks cs with
  | []        => .error ⟨.endInObject, []⟩
  | '"' :: cs => do colon (← skipString cs)
  | cs        => .error ⟨.keyNotString, cs⟩

-- The bound exceeds twice the length of the text.
mutual

def skipValue : Nat → List Char → Scan Malformed (List Char)
  | 0, cs         => .error ⟨.endInValue, cs⟩
  | bound + 1, cs =>
    match skipBlanks cs with
    | []        => .error ⟨.endInValue, []⟩
    | 'n' :: cs => word ['u', 'l', 'l'] cs
    | 't' :: cs => word ['r', 'u', 'e'] cs
    | 'f' :: cs => word ['a', 'l', 's', 'e'] cs
    | '"' :: cs => skipString cs
    | '-' :: cs => skipNumber cs
    | '[' :: cs =>
      match skipBlanks cs with
      | []        => .error ⟨.endInList, []⟩
      | ']' :: cs => .ok cs
      | cs        => skipItems bound cs
    | '{' :: cs =>
      match skipBlanks cs with
      | []        => .error ⟨.endInObject, []⟩
      | '}' :: cs => .ok cs
      | cs        => skipEntries bound cs
    | c :: cs   => if isDigit c then skipNumber (c :: cs) else .error ⟨.expectedValue, c :: cs⟩

-- At least one item, and the closing bracket.
def skipItems : Nat → List Char → Scan Malformed (List Char)
  | 0, cs         => .error ⟨.endInList, cs⟩
  | bound + 1, cs => do
    let cs ← skipValue bound cs
    match skipBlanks cs with
    | []        => .error ⟨.endInList, []⟩
    | ']' :: cs => .ok cs
    | ',' :: cs => skipItems bound cs
    | cs        => .error ⟨.expectedCommaOrBracket, cs⟩

def skipEntries : Nat → List Char → Scan Malformed (List Char)
  | 0, cs         => .error ⟨.endInObject, cs⟩
  | bound + 1, cs => do
    let cs ← skipKey cs
    let cs ← skipValue bound cs
    match skipBlanks cs with
    | []        => .error ⟨.endInObject, []⟩
    | '}' :: cs => .ok cs
    | ',' :: cs => skipEntries bound cs
    | cs        => .error ⟨.expectedCommaOrBrace, cs⟩

end

def skip (cs : List Char) : Scan Malformed (List Char) :=
  skipValue (bound cs) cs

end CauldronCalls.Json
