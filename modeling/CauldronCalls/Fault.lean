import CauldronCalls.Approval
import CauldronCalls.CompileError
import CauldronCalls.Wire

/-!
All the ways in which a request can fail.
-/

namespace CauldronCalls

-- Which of a request's texts could not be read.
inductive Source where
  | cauldron
  | intent
  | text
  | kind
deriving DecidableEq, Repr

def Source.name : Source → String
  | cauldron => "cauldron"
  | intent   => "intent"
  | text     => "text"
  | kind     => "kind"

inductive Fault where
  | unreadable (source : Source) (error : ReadError)
  | key (fault : PrivateKey.Fault)
  | signing (error : SigningError)
  | compile (error : CompileError)
deriving DecidableEq

def Wire.parseFrom {α : Type} (w : Wire α) (source : Source) (s : String) : Except Fault α :=
  (w.parse s).mapError (.unreadable source)

-- Signs a draft with the key that a text spells. A bad key is reported before a foreign user.
def ApprovalDraft.sign (d : ApprovalDraft) (keyText : Option String) :
    Except Fault (ApprovalRequest × MasterContractApproval) := do
  let key ← (PrivateKey.ofText? keyText).mapError .key
  let request := d.request key
  let approval ← (request.sign key).mapError .signing
  pure (request, approval)

end CauldronCalls
