/-!
Revisions of the cauldron contract. A later one understands every opcode of an earlier one.
-/

namespace CauldronCalls

inductive Version where
  | v1
  | v2
  | v3
  | v4
deriving DecidableEq, Repr

namespace Version

def all : List Version :=
  [v1, v2, v3, v4]

def rank : Version → Nat
  | v1 => 1
  | v2 => 2
  | v3 => 3
  | v4 => 4

def name : Version → String
  | v1 => "V1"
  | v2 => "V2"
  | v3 => "V3"
  | v4 => "V4"

instance : LE Version where
  le a b := a.rank ≤ b.rank

instance (a b : Version) : Decidable (a ≤ b) :=
  inferInstanceAs (Decidable (a.rank ≤ b.rank))

end Version

end CauldronCalls
