import CauldronCalls.Approval
import CauldronCalls.CommandLine.Options
import CauldronCalls.Uint256.Literal

/-!
The commands and what their arguments mean. Arguments that mean nothing are a usage error, about which nothing
more is said here.
-/

namespace CauldronCalls.CommandLine

inductive KeySource where
  | none
  | file (path : String)
  | text (key : String)
deriving DecidableEq

inductive Command where
  | compile (cauldron intent : String) (forceBatch : Bool)
  | catalog
  | signApproval (key : KeySource) (draft : ApprovalDraft)
deriving DecidableEq

-- The value of an environment variable, if it is set.
abbrev Environment :=
  String → Option String

namespace Command

-- What is given on the command line goes before the environment.
def value? (g : Given) (env : Environment) (name setting : String) : Option String :=
  g.value? name <|> env setting

-- A path may not be empty.
def path? (s : String) : Option String :=
  if s.isEmpty then none else some s

-- A decimal number below `2 ^ 64`, which a plus sign may precede.
def uint64? (s : String) : Option UInt64 :=
  let ds := match s.toList with
    | '+' :: ds => ds
    | ds        => ds
  if ds.isEmpty || !ds.all Char.isDigit then none
  else
    let n := ds.foldl (fun n d => 10 * n + (d.toNat - 48)) 0
    if n < UInt64.size then some (UInt64.ofNat n) else none

def address? (s : String) : Option Address :=
  (Address.ofString s).toOption

-- The meaning of an optional value: nothing is wrong with its absence.
def optional? {α : Type} (parse? : String → Option α) : Option String → Option (Option α)
  | none   => some none
  | some s => (parse? s).map some

-- Two sources of the key exclude each other, wherever they come from.
def keySource? (path key : Option String) : Option KeySource :=
  match path, key with
  | some _, some _ => none
  | some p, none   => (path? p).map .file
  | none, some k   => some (.text k)
  | none, none     => some .none

def compile? (env : Environment) (args : List String) : Option Command := do
  let g ← Given.ofArgs? ⟨["cauldron", "intent"], ["force-batch"]⟩ Given.empty args
  let cauldron ← path? (← value? g env "cauldron" "COOK_CAULDRON")
  let intent ← path? (← value? g env "intent" "COOK_INTENT")
  some (.compile cauldron intent (g.switches.contains "force-batch"))

def signApproval? (env : Environment) (args : List String) : Option Command := do
  let known : Known :=
    ⟨["key-path", "private-key", "user", "master-contract", "bentobox", "chain-id", "nonce"], ["revoke"]⟩
  let g ← Given.ofArgs? known Given.empty args
  let key ← keySource? (value? g env "key-path" "COOK_PRIVATE_KEY_PATH")
    (value? g env "private-key" "COOK_PRIVATE_KEY")
  let user ← optional? address? (g.value? "user")
  let masterContract ← address? (← g.value? "master-contract")
  let bentobox ← address? (← g.value? "bentobox")
  let chainId ← optional? uint64? (g.value? "chain-id")
  let nonce ← optional? Uint256.parse? (g.value? "nonce")
  some (.signApproval key
    ⟨chainId.getD 1, bentobox, user, masterContract, !g.switches.contains "revoke", nonce.getD 0⟩)

-- The command that the arguments name, unless they are a usage error.
def ofArgs? (env : Environment) : List String → Option Command
  | "compile" :: args       => compile? env args
  | "catalog" :: args       => do
    let _ ← Given.ofArgs? ⟨[], []⟩ Given.empty args
    some .catalog
  | "sign-approval" :: args => signApproval? env args
  | _                       => none

-- The files that a command reads.
def paths : Command → List String
  | compile cauldron intent _      => [cauldron, intent]
  | catalog                        => []
  | signApproval (.file path) _    => [path]
  | signApproval _ _               => []

end Command

end CauldronCalls.CommandLine
