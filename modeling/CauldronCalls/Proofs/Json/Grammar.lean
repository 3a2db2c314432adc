import CauldronCalls.Json.Reader
import CauldronCalls.Proofs.Digit

/-!
The texts of a value, by the grammar of JSON and not by what a reader makes of them: blanks wherever they may stand,
strings with any of the escapes, and numbers in any notation, unless they are too large for a double.
-/

namespace CauldronCalls.Json

def Blank (cs : List Char) : Prop :=
  ∀ c ∈ cs, isBlank c

section Strings

-- Four hexadecimal digits.
def UnitText (n : Nat) (cs : List Char) : Prop :=
  ∃ v₁ v₂ v₃ v₄, cs.Forall₂ (IsDigitIn 16) [v₁, v₂, v₃, v₄] ∧ n = 4096 * v₁ + 256 * v₂ + 16 * v₃ + v₄

-- What may stand for a character between quotes. Only characters that fill two units need a pair of escapes.
inductive CharText : Char → List Char → Prop
  | plain {c : Char} (hc : 0x20 ≤ c.toNat) (hq : c ≠ '"') (hb : c ≠ '\\') : CharText c [c]
  | short {c l : Char} (h : simpleEscape? l = some c) : CharText c ['\\', l]
  | unit {c : Char} {ds : List Char} (h : UnitText c.toNat ds) : CharText c ('\\' :: 'u' :: ds)
  | pair {c : Char} {ds es : List Char} {high low : Nat} (hh : high < 0x400) (hl : low < 0x400)
      (hc : c.toNat = 0x10000 + 0x400 * high + low) (hd : UnitText (0xd800 + high) ds)
      (he : UnitText (0xdc00 + low) es) :
    CharText c ('\\' :: 'u' :: ds ++ '\\' :: 'u' :: es)

def StringText (s : String) (cs : List Char) : Prop :=
  ∃ ts, s.toList.Forall₂ CharText ts ∧ cs = '"' :: ts.flatten ++ ['"']

end Strings

section Numbers

def DigitsText (ds : List Char) : Prop :=
  ds ≠ [] ∧ ∀ d ∈ ds, isDigit d

-- No zero goes before other digits.
def WholeText (ds : List Char) : Prop :=
  (ds = ['0']) ∨ (DigitsText ds ∧ ds.head? ≠ some '0')

inductive FractionText : List Char → List Char → Prop
  | absent : FractionText [] []
  | point {ds : List Char} (h : DigitsText ds) : FractionText ds ('.' :: ds)

inductive SignText : Bool → List Char → Prop
  | absent : SignText true []
  | plus   : SignText true ['+']
  | minus  : SignText false ['-']

inductive ExponentText : Option (Bool × List Char) → List Char → Prop
  | absent : ExponentText none []
  | power {e : Char} {positive : Bool} {sign ds : List Char} (he : e ∈ ['e', 'E']) (hs : SignText positive sign)
      (hd : DigitsText ds) :
    ExponentText (some (positive, ds)) (e :: sign ++ ds)

structure NumeralText (n : Numeral) (cs : List Char) : Prop where
  whole : WholeText n.whole
  parts : ∃ fs es, FractionText n.fraction fs ∧ ExponentText n.exponent es ∧ cs = n.whole ++ fs ++ es

-- A number that is too large for a double has no value.
inductive NumberText : Number → List Char → Prop
  | plain {v : Number} {n : Numeral} {cs : List Char} (h : NumeralText n cs) (hv : n.value? false = some v) :
    NumberText v cs
  | minus {v : Number} {n : Numeral} {cs : List Char} (h : NumeralText n cs) (hv : n.value? true = some v) :
    NumberText v ('-' :: cs)

end Numbers

section Values

-- Texts with a comma between each two of them. Where there are none, blanks may stand.
inductive Listed : List (List Char) → List Char → Prop
  | empty {cs : List Char} (h : Blank cs) : Listed [] cs
  | last {t : List Char} : Listed [t] t
  | more {t u cs : List Char} {ts : List (List Char)} (h : Listed (u :: ts) cs) : Listed (t :: u :: ts) (t ++ ',' :: cs)

-- An entry of an object, with the text that spells its value.
structure Member where
  name : String
  value : Json
  text : List Char

def Member.entry (m : Member) : String × Json :=
  (m.name, m.value)

inductive Member.Text (m : Member) : List Char → Prop
  | mk {before name after : List Char} (hb : Blank before) (hn : StringText m.name name) (ha : Blank after) :
    m.Text (before ++ name ++ after ++ ':' :: m.text)

-- What stands between the braces of an object.
def MembersText (ms : List Member) (cs : List Char) : Prop :=
  ∃ ts, ms.Forall₂ Member.Text ts ∧ Listed ts cs

-- The text spells the value, and opens no more than `depth` brackets at once.
inductive Spells : Nat → Json → List Char → Prop
  | null {depth : Nat} : Spells depth .null ['n', 'u', 'l', 'l']
  | yes {depth : Nat} : Spells depth (.boolean true) ['t', 'r', 'u', 'e']
  | no {depth : Nat} : Spells depth (.boolean false) ['f', 'a', 'l', 's', 'e']
  | number {depth : Nat} {n : Number} {cs : List Char} (h : NumberText n cs) : Spells depth (.number n) cs
  | string {depth : Nat} {s : String} {cs : List Char} (h : StringText s cs) : Spells depth (.string s) cs
  | array {depth : Nat} {ps : List (Json × List Char)} {cs : List Char} (h : ∀ p ∈ ps, Spells depth p.1 p.2)
      (hl : Listed (ps.map Prod.snd) cs) :
    Spells (depth + 1) (.array (ps.map Prod.fst)) ('[' :: cs ++ [']'])
  | object {depth : Nat} {ms : List Member} {cs : List Char} (h : ∀ m ∈ ms, Spells depth m.value m.text)
      (hm : MembersText ms cs) :
    Spells (depth + 1) (.object (ms.map Member.entry)) ('{' :: cs ++ ['}'])
  | blanks {depth : Nat} {x : Json} {before cs after : List Char} (hb : Blank before) (h : Spells depth x cs)
      (ha : Blank after) :
    Spells depth x (before ++ cs ++ after)

end Values

end CauldronCalls.Json
