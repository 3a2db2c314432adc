import CauldronCalls.Builder

/-!
Compiling intents for one cauldron.
-/

namespace CauldronCalls

structure Compiler where
  cauldron : Cauldron
  -- Whether an intent that only borrows becomes a direct call.
  directBorrow : Bool := true
deriving DecidableEq

namespace Compiler

-- The batch of an intent: all its parts, in order, up to the first that fails.
def batch (c : Compiler) (i : Intent) : Except CompileError Call :=
  match (Builder.empty c.cauldron).pushGroups (i.groups c.cauldron.leverageSwapper) with
  | (_, .error e) => .error e
  | (b, .ok ())   => b.finish

def compile (c : Compiler) (i : Intent) : Except CompileError Call :=
  if i.isEmpty then .error .emptyIntent
  else
    match i.borrowOnly?, c.directBorrow with
    | some b, true => .ok (.borrow (b.recipient.getD i.sender) b.amount)
    | _, _         => c.batch i

end Compiler

end CauldronCalls
