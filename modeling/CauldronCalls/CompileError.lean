import CauldronCalls.Argument
import CauldronCalls.Catalog
import CauldronCalls.Cauldron

/-!
Why an intent, or one of its actions, has no call.
-/

namespace CauldronCalls

-- How arguments fail to fit a schema.
inductive Misfit where
  | count (expected got : Nat)
  | oversizedLiteral (param : String)
  | shape (param : String) (type : ParamType) (got : Argument.Shape)
deriving DecidableEq, Repr

def Misfit.message : Misfit → String
  | count expected got     => s!"expected {expected} arguments, got {got}"
  | oversizedLiteral param => s!"`{param}` literal does not fit int256"
  | shape param type got   => s!"`{param}` expects {type.name}, got {got.name}"

inductive CompileError where
  | argumentMismatch (action : ActionKind) (reason : Misfit)
  | emptyIntent
  | unsupportedSwapper (kind : SwapperKind)
  | unsupportedVersion (action : ActionKind) (required actual : Version)
  | outOfStep (actions values datas : Nat)
deriving DecidableEq, Repr

def CompileError.message : CompileError → String
  | argumentMismatch action reason            => s!"argument mismatch for {action.name}: {reason.message}"
  | emptyIntent                               => "intent has no sub-intent to compile"
  | unsupportedSwapper kind                   => s!"no call encoder for swapper kind {kind.name}"
  | unsupportedVersion action required actual =>
    s!"{action.name} requires cauldron {required.name} or later, target is {actual.name}"
  | outOfStep actions values datas            =>
    s!"cook arrays out of step: {actions} actions, {values} values, {datas} datas"

end CauldronCalls
