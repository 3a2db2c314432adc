import CauldronCalls.Address
import CauldronCalls.Version

/-!
Deployed cauldrons: what a compiled call is aimed at.
-/

namespace CauldronCalls

-- The interfaces that a cauldron's leverage swapper may have.
inductive SwapperKind where
  | simpleSwap
  | levSwapperV2
  | swapper
  | swapperWithExact
deriving DecidableEq, Repr

namespace SwapperKind

def all : List SwapperKind :=
  [simpleSwap, levSwapperV2, swapper, swapperWithExact]

-- The name in error texts.
def name : SwapperKind → String
  | simpleSwap       => "SimpleSwap"
  | levSwapperV2     => "LevSwapperV2"
  | swapper          => "Swapper"
  | swapperWithExact => "SwapperWithExact"

-- The name of the contract's interface, which descriptions of cauldrons use.
def interfaceName (k : SwapperKind) : String :=
  "I" ++ k.name

end SwapperKind

structure Swapper where
  address : Address
  kind : SwapperKind
deriving DecidableEq

structure Contract where
  address : Address
  version : Version
deriving DecidableEq

structure Cauldron where
  name : String
  chainId : UInt64
  id : UInt32
  contract : Contract
  leverageSwapper : Swapper
deriving DecidableEq

namespace Cauldron

def address (c : Cauldron) : Address :=
  c.contract.address

def version (c : Cauldron) : Version :=
  c.contract.version

end Cauldron

end CauldronCalls
