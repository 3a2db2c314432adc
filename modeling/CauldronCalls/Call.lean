import CauldronCalls.Action

/-!
Finished calls: a direct borrow, or a batch given as three parallel arrays.
-/

namespace CauldronCalls

-- The arguments of a batched call; the three lists run in step.
structure Batch where
  actions : List UInt8
  values : List Uint256
  datas : List Bytes
deriving DecidableEq

inductive Call where
  | borrow (recipient : Address) (amount : Uint256)
  | cook (batch : Batch)
deriving DecidableEq

-- The first four bytes of the Keccak-256 hash of a function's signature name it in call data.
namespace Selector

-- `borrow(address,uint256)`
def borrow : Bytes := [0x4b, 0x8a, 0x35, 0x29]

-- `cook(uint8[],uint256[],bytes[])`
def cook : Bytes := [0x65, 0x6f, 0x3d, 0x64]

-- `swap(address,uint256,uint256)`
def swap : Bytes := [0x9f, 0x1d, 0x0f, 0x59]

end Selector

namespace Batch

def items (b : Batch) : List Abi.Item := [
  .array (b.actions.map fun o => .word (FixedBytes.ofNat 32 o.toNat)),
  .array (b.values.map fun v => .word v.toWord),
  .array (b.datas.map Abi.Item.bytes)]

def ofActions (as : List Action) : Batch :=
  ⟨as.map (·.opcode), as.map (·.value), as.map (·.data)⟩

end Batch

namespace Call

def data : Call → Bytes
  | borrow recipient amount => Selector.borrow ++ Abi.sequence [.word recipient.toWord, .word amount.toWord]
  | cook batch              => Selector.cook ++ Abi.sequence batch.items

-- The native amount that the transaction must attach.
def value : Call → Uint256
  | borrow _ _ => 0
  | cook batch => batch.values.foldl Uint256.saturatingAdd 0

def isDirect : Call → Bool
  | borrow _ _ => true
  | cook _     => false

def actionCount : Call → Nat
  | borrow _ _ => 1
  | cook batch => batch.actions.length

def kind : Call → String
  | borrow _ _ => "borrow"
  | cook _     => "cook"

-- A batch is refused if its three lists are not equally long.
def ofBatch (b : Batch) : Except CompileError Call :=
  if b.actions.length = b.values.length ∧ b.values.length = b.datas.length then .ok (cook b)
  else .error (.outOfStep b.actions.length b.values.length b.datas.length)

def ofActions : List Action → Except CompileError Call
  | [] => .error .emptyIntent
  | as => ofBatch (Batch.ofActions as)

end Call

end CauldronCalls
