import CauldronCalls.Json.Numeral
import CauldronCalls.Json.Text

/-!
Writing JSON values, on one line or with an indentation of two blanks for each level.
-/

namespace CauldronCalls.Json

mutual

def compact : Json → List Char
  | null           => ['n', 'u', 'l', 'l']
  | boolean true   => ['t', 'r', 'u', 'e']
  | boolean false  => ['f', 'a', 'l', 's', 'e']
  | number n       => printNumber n
  | string s       => printString s
  | array items    => '[' :: compactItems items ++ [']']
  | object entries => '{' :: compactEntries entries ++ ['}']

def compactItems : List Json → List Char
  | []      => []
  | [x]     => compact x
  | x :: xs => compact x ++ ',' :: compactItems xs

def compactEntries : List (String × Json) → List Char
  | []           => []
  | [(k, x)]     => printString k ++ ':' :: compact x
  | (k, x) :: xs => printString k ++ ':' :: compact x ++ ',' :: compactEntries xs

end

def newLine (level : Nat) : List Char :=
  '\n' :: List.replicate (2 * level) ' '

-- Each member of a list or an object stands on a line of its own; an empty one keeps its brackets together.
mutual

def pretty (level : Nat) : Json → List Char
  | array []       => ['[', ']']
  | object []      => ['{', '}']
  | array items    => '[' :: prettyItems (level + 1) items ++ newLine level ++ [']']
  | object entries => '{' :: prettyEntries (level + 1) entries ++ newLine level ++ ['}']
  | null           => ['n', 'u', 'l', 'l']
  | boolean true   => ['t', 'r', 'u', 'e']
  | boolean false  => ['f', 'a', 'l', 's', 'e']
  | number n       => printNumber n
  | string s       => printString s

def prettyItems (level : Nat) : List Json → List Char
  | []      => []
  | [x]     => newLine level ++ pretty level x
  | x :: xs => newLine level ++ pretty level x ++ ',' :: prettyItems level xs

def prettyEntries (level : Nat) : List (String × Json) → List Char
  | []           => []
  | [(k, x)]     => newLine level ++ printString k ++ ':' :: ' ' :: pretty level x
  | (k, x) :: xs => newLine level ++ printString k ++ ':' :: ' ' :: pretty level x ++ ',' :: prettyEntries level xs

end

def toText (x : Json) : String :=
  String.ofList x.compact

def toPrettyText (x : Json) : String :=
  String.ofList (x.pretty 0)

end CauldronCalls.Json
