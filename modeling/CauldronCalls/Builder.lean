import CauldronCalls.Step

/-!
The growing list of bound actions of one batch. A step is refused, and nothing is added for it, when the
target cauldron is too old for its action or its arguments do not fit.
-/

namespace CauldronCalls

structure Builder where
  cauldron : Cauldron
  actions : List Action

namespace Builder

def empty (c : Cauldron) : Builder :=
  ⟨c, []⟩

-- The revision is looked at before the arguments.
def bound (b : Builder) (s : Step) : Except CompileError Action :=
  if s.descriptor.minVersion ≤ b.cauldron.version then s.descriptor.bind s.value s.args
  else .error (.unsupportedVersion s.descriptor.kind s.descriptor.minVersion b.cauldron.version)

-- Appends the steps one after the other up to the first that is refused. What was appended before it stays.
def pushAll (b : Builder) : List Step → Builder × Except CompileError Unit
  | []      => (b, .ok ())
  | s :: ss =>
    match b.bound s with
    | .error e => (b, .error e)
    | .ok a    => pushAll { b with actions := b.actions ++ [a] } ss

-- A group that has no steps because of an error appends nothing.
def pushGroup (b : Builder) : Except CompileError (List Step) → Builder × Except CompileError Unit
  | .error e => (b, .error e)
  | .ok ss   => b.pushAll ss

def pushGroups (b : Builder) : List (Except CompileError (List Step)) → Builder × Except CompileError Unit
  | []      => (b, .ok ())
  | g :: gs =>
    match b.pushGroup g with
    | (b, .error e) => (b, .error e)
    | (b, .ok ())   => b.pushGroups gs

def finish (b : Builder) : Except CompileError Call :=
  Call.ofActions b.actions

-- The ways in which a batch is made longer by hand: an action of the catalog, or the group of a part.
inductive Request where
  | push             (kind : ActionKind) (value : Uint256) (args : List Argument)
  | approval         (a : MasterContractApproval)
  | addCollateral    (sender : Address) (a : AddCollateral)
  | removeCollateral (sender : Address) (r : RemoveCollateral)
  | leverage         (sender : Address) (swapper : Swapper) (l : Leverage)
deriving DecidableEq

def Request.group : Request → Except CompileError (List Step)
  | push k v as          => .ok [⟨k.descriptor, v, as⟩]
  | approval a           => .ok a.steps
  | addCollateral s a    => .ok (a.steps s)
  | removeCollateral s r => .ok (r.steps s)
  | leverage s w l       => l.steps s w

def serve (b : Builder) (r : Request) : Builder × Except CompileError Unit :=
  b.pushGroup r.group

-- A request that fails does not keep the later ones from being served.
def run (b : Builder) : List Request → Builder
  | []      => b
  | r :: rs => (b.serve r).1.run rs

end Builder

end CauldronCalls
