import CauldronCalls.Compiler
import CauldronCalls.Fault
import CauldronCalls.Wire.Cauldron
import CauldronCalls.Wire.Intent

/-!
Sessions: a compiler that can be aimed at another cauldron, and an approval that is remembered and put into
every intent compiled afterwards. A request that fails leaves the session as it was.
-/

namespace CauldronCalls

structure Session where
  compiler : Compiler
  approval : Option MasterContractApproval
deriving DecidableEq

namespace Session

inductive Request where
  | setCauldron (text : String)
  | setDirectBorrow (enabled : Bool)
  | sign (key : Option String) (draft : ApprovalDraft)
  | forget
  | compile (text : String)

inductive Answer where
  | cauldron (c : Cauldron)
  | directBorrow (enabled : Bool)
  | approval (a : Option MasterContractApproval)
  | call (c : Call)
deriving DecidableEq

def start (text : String) : Except Fault Session := do
  pure ⟨{ cauldron := ← Cauldron.wire.parseFrom .cauldron text }, none⟩

-- A remembered approval takes the place of the intent's own.
def prepare (s : Session) (i : Intent) : Intent :=
  { i with approval := s.approval <|> i.approval }

-- The session after a request that succeeds, and the answer. A new cauldron allows direct borrowing again.
def attempt (s : Session) : Request → Except Fault (Session × Answer)
  | .setCauldron text    => do
    let c ← Cauldron.wire.parseFrom .cauldron text
    pure ({ s with compiler := { cauldron := c } }, .cauldron c)
  | .setDirectBorrow b   =>
    .ok ({ s with compiler := { s.compiler with directBorrow := b } }, .directBorrow b)
  | .sign key draft      => do
    let (_, a) ← draft.sign key
    pure ({ s with approval := some a }, .approval (some a))
  | .forget              => .ok ({ s with approval := none }, .approval none)
  | .compile text        => do
    let i ← Intent.wire.parseFrom .intent text
    let call ← (s.compiler.compile (s.prepare i)).mapError .compile
    pure (s, .call call)

def step (s : Session) (r : Request) : Session × Except Fault Answer :=
  match s.attempt r with
  | .ok (s, a)   => (s, .ok a)
  | .error fault => (s, .error fault)

def run (s : Session) : List Request → List (Except Fault Answer)
  | []      => []
  | r :: rs =>
    let (s, a) := s.step r
    a :: s.run rs

end Session

end CauldronCalls
