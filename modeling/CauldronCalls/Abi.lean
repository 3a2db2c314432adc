import CauldronCalls.Bytes

/-!
The standard layout of call data. A sequence has one 32-byte word in its head for each member: the member
itself, or the distance from the sequence's start to the block that holds it. The blocks follow the head in
order, without gaps.
-/

namespace CauldronCalls.Abi

inductive Item where
  | word (w : Bytes32)
  | block (bs : Bytes)
deriving DecidableEq

namespace Item

def tail : Item → Bytes
  | word _   => []
  | block bs => bs

-- The head's word, where the member's block starts `offset` bytes into the sequence.
def head (offset : Nat) : Item → Bytes
  | word w  => w.toList
  | block _ => Bytes.bigEndian 32 offset

@[simp]
theorem length_head (offset : Nat) (i : Item) : (i.head offset).length = 32 := by
  cases i <;> simp [head, FixedBytes.length_toList]

end Item

def heads : Nat → List Item → Bytes
  | _, []           => []
  | offset, i :: is => i.head offset ++ heads (offset + i.tail.length) is

def tails (is : List Item) : Bytes :=
  is.flatMap Item.tail

@[simp]
theorem length_heads (offset : Nat) (is : List Item) : (heads offset is).length = 32 * is.length := by
  induction is generalizing offset with
  | nil => rfl
  | cons i is ih => simp [heads, ih]; omega

-- The encoding of a sequence's members.
def sequence (is : List Item) : Bytes :=
  heads (32 * is.length) is ++ tails is

namespace Item

def bool (b : Bool) : Item :=
  word (FixedBytes.ofNat 32 b.toNat)

-- A length, the bytes, and zeros up to a whole word.
def bytes (bs : Bytes) : Item :=
  block (Bytes.bigEndian 32 bs.length ++ (bs ++ Bytes.padding bs.length))

-- A length and the members as a sequence of their own.
def array (is : List Item) : Item :=
  block (Bytes.bigEndian 32 is.length ++ sequence is)

end Item

end CauldronCalls.Abi
