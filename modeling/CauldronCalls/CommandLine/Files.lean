/-!
Reading files: the faults that can be met, and directories given as a table of their files.
-/

namespace CauldronCalls.CommandLine

inductive FileFault where
  | notFound
  | permissionDenied
  | notADirectory
  | isADirectory
  | notText
  | other (message : String)
deriving DecidableEq, Repr

def FileFault.message : FileFault → String
  | notFound         => "No such file or directory (os error 2)"
  | permissionDenied => "Permission denied (os error 13)"
  | notADirectory    => "Not a directory (os error 20)"
  | isADirectory     => "Is a directory (os error 21)"
  | notText          => "stream did not contain valid UTF-8"
  | other message    => message

-- The text of the file at a path.
abbrev Files :=
  String → Except FileFault String

namespace Files

-- The names that a path consists of; single dots and repeated slashes mean nothing.
def names (path : String) : List String :=
  (path.splitOn "/").filter fun n => n != "" && n != "."

-- A path that ends in a slash or a dot can only lead to a directory.
def wantsDirectory (path : String) : Bool :=
  match (path.splitOn "/").getLast? with
  | some n => n == "" || n == "."
  | none   => false

def isBelow (shorter longer : List String) : Bool :=
  shorter.length < longer.length && shorter == longer.take shorter.length

-- The directory that holds just the given files, each under its relative path.
def ofTable (table : List (String × String)) : Files := fun path =>
  let wanted := names path
  let inside := table.map fun (p, text) => (names p, text)
  if path.startsWith "/" then .error (if wanted.isEmpty then .isADirectory else .notFound)
  else
    match inside.lookup wanted with
    | some text => if wantsDirectory path then .error .notADirectory else .ok text
    | none      =>
      if path.isEmpty then .error .notFound
      else if inside.any fun (p, _) => isBelow p wanted then .error .notADirectory
      else if wanted.isEmpty || inside.any fun (p, _) => isBelow wanted p then .error .isADirectory
      else .error .notFound

end Files

end CauldronCalls.CommandLine
