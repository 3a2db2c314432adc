import CauldronCalls.CommandLine.Run

/-!
The program: it gathers the environment and the files that a command names, and prints its outcome.
-/

namespace CauldronCalls.CommandLine

def fileFault : IO.Error → FileFault
  | .noFileOrDirectory ..   => .notFound
  | .permissionDenied ..    => .permissionDenied
  | .inappropriateType ..   => .isADirectory
  | e                       => .other (toString e)

def readFile (path : String) : IO (Except FileFault String) := do
  try
    let bytes ← IO.FS.readBinFile path
    match String.fromUTF8? bytes with
    | some text => pure (.ok text)
    | none      => pure (.error .notText)
  catch e => pure (.error (fileFault e))

def settingNames : List String :=
  ["COOK_CAULDRON", "COOK_INTENT", "COOK_PRIVATE_KEY_PATH", "COOK_PRIVATE_KEY"]

end CauldronCalls.CommandLine

open CauldronCalls CommandLine in
def main (args : List String) : IO UInt32 := do
  let settings ← settingNames.mapM fun name => do pure (name, ← IO.getEnv name)
  let env : Environment := fun name => (settings.lookup name).join
  let outcome ←
    match Command.ofArgs? env args with
    | none         => pure usageError
    | some command => do
      let texts ← command.paths.mapM fun path => do pure (path, ← readFile path)
      pure (command.run fun path => (texts.lookup path).getD (.error .notFound))
  (← IO.getStdout).putStr outcome.output
  (← IO.getStderr).putStr outcome.errors
  pure outcome.code
