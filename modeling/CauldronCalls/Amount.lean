import CauldronCalls.Uint256

/-!
Amounts in signed slots: a literal, or what an earlier action put out. A small negative number, the sentinel,
stands for each of the two outputs that are kept.
-/

namespace CauldronCalls

-- The last two values that any action of a batch returned.
inductive OutputSlot where
  | one
  | two
deriving DecidableEq, Repr

namespace OutputSlot

def depth : OutputSlot → Nat
  | one => 1
  | two => 2

def sentinel (s : OutputSlot) : BitVec 256 :=
  BitVec.ofInt 256 (-s.depth)

end OutputSlot

inductive Amount where
  | literal (value : Uint256)
  | prior (slot : OutputSlot)
deriving DecidableEq

namespace Amount

-- The signed word of an amount. A literal from `2 ^ 255` on has none, since it would read as a negative
-- number and so might be taken for a sentinel.
def toSigned? : Amount → Option (BitVec 256)
  | literal v => if v.msb then none else some v
  | prior s   => some s.sentinel

-- How a signed word is read back where the two kept outputs are `value1` and `value2`.
def resolve (value1 value2 word : BitVec 256) : BitVec 256 :=
  if word = OutputSlot.one.sentinel then value1
  else if word = OutputSlot.two.sentinel then value2
  else word

end Amount

end CauldronCalls
