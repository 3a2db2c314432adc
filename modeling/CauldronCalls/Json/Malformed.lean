/-!
Why a text is not JSON, and where its reader stopped.
-/

namespace CauldronCalls.Json

inductive Malformed where
  | endInList
  | endInObject
  | endInString
  | endInValue
  | expectedColon
  | expectedCommaOrBracket
  | expectedCommaOrBrace
  | expectedWord
  | expectedValue
  | invalidEscape
  | invalidNumber
  | numberOutOfRange
  | controlCharacter
  | keyNotString
  | loneSurrogate
  | unfinishedSurrogate
  | trailingComma
  | trailingCharacters
  | tooDeep
deriving DecidableEq, Repr

def Malformed.message : Malformed → String
  | endInList              => "EOF while parsing a list"
  | endInObject            => "EOF while parsing an object"
  | endInString            => "EOF while parsing a string"
  | endInValue             => "EOF while parsing a value"
  | expectedColon          => "expected `:`"
  | expectedCommaOrBracket => "expected `,` or `]`"
  | expectedCommaOrBrace   => "expected `,` or `\x7d`"
  | expectedWord           => "expected ident"
  | expectedValue          => "expected value"
  | invalidEscape          => "invalid escape"
  | invalidNumber          => "invalid number"
  | numberOutOfRange       => "number out of range"
  | controlCharacter       => "control character (\\u0000-\\u001F) found while parsing a string"
  | keyNotString           => "key must be a string"
  | loneSurrogate          => "lone leading surrogate in hex escape"
  | unfinishedSurrogate    => "unexpected end of hex escape"
  | trailingComma          => "trailing comma"
  | trailingCharacters     => "trailing characters"
  | tooDeep                => "recursion limit exceeded"

-- A cause, and the text from the place at which the reader stopped.
structure Failure (ε : Type) where
  cause : ε
  rest : List Char
deriving DecidableEq, Repr

def Failure.map {ε ε' : Type} (f : ε → ε') (e : Failure ε) : Failure ε' :=
  ⟨f e.cause, e.rest⟩

-- A reader answers a value with the text behind it, or a failure.
abbrev Scan (ε : Type) :=
  Except (Failure ε)

-- The reader takes single bytes, so that a failure at a longer character leaves it inside that character. The
-- character then stands for its remaining bytes, none of which means anything to a reader.
def dropByte : List Char → List Char
  | []      => []
  | c :: cs => if c.toNat < 128 then cs else c :: cs

def dropBytes : Nat → List Char → List Char
  | _, []      => []
  | n, c :: cs => if c.utf8Size ≤ n then dropBytes (n - c.utf8Size) cs else c :: cs

end CauldronCalls.Json
