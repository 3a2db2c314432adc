/-!
Options of a command: `--name value` or `--name=value` in any order, and switches without a value. Nothing else
may stand between them, and none may be given twice.
-/

namespace CauldronCalls.CommandLine

-- The names that a command knows.
structure Known where
  options : List String
  switches : List String

-- What was given: options with their values, and switches.
structure Given where
  options : List (String × String)
  switches : List String

namespace Given

def empty : Given :=
  ⟨[], []⟩

def addOption? (g : Given) (name value : String) : Option Given :=
  if g.options.any (·.1 == name) then none else some { g with options := (name, value) :: g.options }

def addSwitch? (g : Given) (name : String) : Option Given :=
  if g.switches.contains name then none else some { g with switches := name :: g.switches }

def value? (g : Given) (name : String) : Option String :=
  g.options.lookup name

end Given

-- A value that is an argument of its own may not look like an option; a single dash does not.
def isValue (arg : String) : Bool :=
  arg == "-" || !arg.startsWith "-"

-- The name of an option and the value after its equals sign, if it has one.
def splitName (cs : List Char) : String × Option String :=
  match cs.span (· != '=') with
  | (name, [])         => (String.ofList name, none)
  | (name, _ :: value) => (String.ofList name, some (String.ofList value))

-- Reads the arguments from left to right; nothing is answered if any is out of place.
def Given.ofArgs? (known : Known) : Given → List String → Option Given
  | g, []          => some g
  | g, arg :: args =>
    match arg.toList with
    | ['-', '-']      => if args.isEmpty then some g else none
    | '-' :: '-' :: cs =>
      let (name, value?) := splitName cs
      if known.switches.contains name then
        if value?.isSome then none else do ofArgs? known (← g.addSwitch? name) args
      else if known.options.contains name then
        match value?, args with
        | some value, args         => do ofArgs? known (← g.addOption? name value) args
        | none, []                 => none
        | none, value :: args      =>
          if isValue value then do ofArgs? known (← g.addOption? name value) args else none
      else none
    | _               => none

end CauldronCalls.CommandLine
