import CauldronCalls.CommandLine.Command
import CauldronCalls.CommandLine.Files
import CauldronCalls.Compiler
import CauldronCalls.Fault
import CauldronCalls.Wire.Catalog
import CauldronCalls.Wire.Cauldron
import CauldronCalls.Wire.Intent

/-!
Running a command: what it prints and the code it ends with.
-/

namespace CauldronCalls.CommandLine

structure Outcome where
  code : UInt32
  output : String
  errors : String
deriving DecidableEq, Repr

-- What went wrong, and why, where there is more to say.
structure Report where
  context : String
  cause : Option String
deriving DecidableEq, Repr

-- Every line of a cause is indented.
def Report.text (r : Report) : String :=
  match r.cause with
  | none       => s!"Error: {r.context}\n"
  | some cause => s!"Error: {r.context}\n\nCaused by:\n    " ++ "\n    ".intercalate (cause.splitOn "\n") ++ "\n"

def Outcome.ofResult : Except Report Json → Outcome
  | .ok x    => ⟨0, x.toPrettyText ++ "\n", ""⟩
  | .error r => ⟨1, "", r.text⟩

def usageError : Outcome :=
  ⟨2, "", "usage: (compile | catalog | sign-approval) [OPTIONS]\n"⟩

def readText (files : Files) (context : String) (path : String) : Except Report String :=
  (files path).mapError fun f => ⟨s!"{context} {path}", some f.message⟩

def readWire {α : Type} (files : Files) (w : Wire α) (path : String) : Except Report α := do
  let text ← readText files "failed reading" path
  (w.parse text).mapError fun e => ⟨s!"failed parsing JSON in {path}", some e.message⟩

-- The keys are in alphabetical order.
def callJson (c : Cauldron) (call : Call) : Json :=
  .object [
    ("data", .string (Hex.encode call.data)),
    ("kind", .string call.kind),
    ("to", .string c.address.lower),
    ("value", .string call.value.decimal)]

-- The cauldron is read before the intent.
def compile (files : Files) (cauldron intent : String) (forceBatch : Bool) : Except Report Json := do
  let c ← readWire files Cauldron.wire cauldron
  let i ← readWire files Intent.wire intent
  let compiler : Compiler := { cauldron := c, directBorrow := !forceBatch }
  let call ← (compiler.compile i).mapError fun e => ⟨s!"failed compiling {intent}", some e.message⟩
  pure (callJson c call)

def keyText (files : Files) : KeySource → Except Report (Option String)
  | .none      => .ok none
  | .file path => some <$> readText files "failed reading key file" path
  | .text key  => .ok (some key)

def report : Fault → Report
  | .unreadable _ e => ⟨e.message, none⟩
  | .key f          => ⟨f.message, f.cause?⟩
  | .signing e      => ⟨"failed signing approval", some e.message⟩
  | .compile e      => ⟨e.message, none⟩

def signApproval (files : Files) (key : KeySource) (draft : ApprovalDraft) : Except Report Json := do
  let text ← keyText files key
  let (_, approval) ← (draft.sign text).mapError report
  pure (MasterContractApproval.record.wire.encode approval)

def Command.run (files : Files) : Command → Outcome
  | compile cauldron intent forceBatch =>
    Outcome.ofResult (CommandLine.compile files cauldron intent forceBatch)
  | catalog                            => Outcome.ofResult (.ok catalogJson)
  | signApproval key draft             => Outcome.ofResult (CommandLine.signApproval files key draft)

-- The outcome of a whole command line.
def run (env : Environment) (files : Files) (args : List String) : Outcome :=
  match Command.ofArgs? env args with
  | some command => command.run files
  | none         => usageError

end CauldronCalls.CommandLine
