import CauldronCalls.Address

/-!
Assets that can be deposited: the chain's native currency or a token.
-/

namespace CauldronCalls

inductive Asset where
  | native
  | token (address : Address)
deriving DecidableEq

namespace Asset

-- The zero address in a token slot stands for the native currency.
def slot : Asset → Address
  | native  => Address.zero
  | token t => t

def isNative : Asset → Bool
  | native  => true
  | token _ => false

def text : Asset → String
  | native  => "ETH"
  | token t => t.checksummed

-- Why a text names no asset.
structure Unknown where
  text : String
  fault : Hex.Fault
deriving DecidableEq, Repr

def Unknown.message (u : Unknown) : String :=
  s!"invalid asset `{u.text}`: {u.fault.message}"

-- `eth` in any mixture of cases is the native currency; every other text must be an address.
def ofString (s : String) : Except Unknown Asset :=
  if s.toList.map Char.toLower = ['e', 't', 'h'] then .ok native
  else
    match Address.ofString s with
    | .ok t    => .ok (token t)
    | .error f => .error ⟨s, f⟩

end Asset

end CauldronCalls
