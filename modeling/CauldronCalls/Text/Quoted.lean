import CauldronCalls.Text.Printable

/-!
Texts and characters in quotes, for error messages: every character that would not show as itself is escaped.
-/

namespace CauldronCalls.Text

-- Double quotes stand around a text, single quotes around a character; each escapes only its own kind.
inductive Quote where
  | double
  | single
deriving DecidableEq, Repr

def Quote.char : Quote → Char
  | double => '"'
  | single => '\''

def escapeCode (c : Char) : List Char :=
  '\\' :: 'u' :: '\x7b' :: Nat.toDigits 16 c.toNat ++ ['\x7d']

def escape (q : Quote) (c : Char) : List Char :=
  if c = '\x00' then ['\\', '0']
  else if c = '\t' then ['\\', 't']
  else if c = '\r' then ['\\', 'r']
  else if c = '\n' then ['\\', 'n']
  else if c = '\\' then ['\\', '\\']
  else if c = q.char then ['\\', c]
  else if isPrintable c then [c]
  else escapeCode c

def quote (q : Quote) (cs : List Char) : String :=
  String.ofList (q.char :: cs.flatMap (escape q) ++ [q.char])

-- A single byte is shown as the character with its code.
def quoteByte (b : UInt8) : String :=
  quote .single [Char.ofNat b.toNat]

end CauldronCalls.Text
