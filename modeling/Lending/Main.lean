import Lending.CommandLine.Commands

/-!
# The program

Reads the files that a command needs and prints what it gives. A path that is no readable file is
taken for a directory; the names of the files below it are then read from standard input, one a
line, as a search for files prints them.
-/

namespace Lending.CommandLine

/-- The text of a file, if it can be read. -/
def readFile? (path : String) : IO (Option String) := do
  try
    return some (← IO.FS.readFile path)
  catch _ =>
    return none

/-- The files among the given paths. -/
def readFiles (paths : List String) : IO (List (String × String)) :=
  paths.filterMapM fun path => do
    return (← readFile? path).map fun text => (path, text)

/-- The lines of a stream up to its end. -/
partial def readLines (stream : IO.FS.Stream) : IO (List String) := do
  let line ← stream.getLine
  if line.isEmpty then return []
  return line.trimAsciiEnd.toString :: (← readLines stream)

/-- The paths that a command may read, as far as they are known beforehand. -/
def Command.paths : Command → List String
  | .check options => settingsFile :: options.searchPath :: options.config.toList
  | .run path => [path]
  | .explain _ => []
  | .version => []

/-- Whether a command looks for files below a path. -/
def Command.needsListing (command : Command) (known : List (String × String)) : Bool :=
  match command with
  | .check options => !known.any fun file => file.1 == options.searchPath
  | _ => false

/-- Shown when the arguments make no sense. -/
def usage : String :=
  String.join [
    "Usage: lexborrow [-v] check [PATH] [--format text|json] [--mode MODE] [--config FILE] ",
    "[--eval]\n",
    "       lexborrow [-v] run PATH\n",
    "       lexborrow [-v] explain KIND\n"]

end Lending.CommandLine

open Lending Lending.CommandLine in
/-- Carries out the command that the arguments ask for. -/
def main (arguments : List String) : IO UInt32 := do
  match CommandLine.parse? false arguments with
  | none =>
      IO.eprint usage
      return 2
  | some command =>
      let known ← readFiles command.paths
      let listed ←
        if command.needsListing known then readFiles (← readLines (← IO.getStdin)) else pure []
      let tree := Tree.ofFiles (known ++ listed)
      let directory := toString (← IO.currentDir)
      let ending := execute tree.resolve? directory 1 command
      IO.print ending.stdout
      IO.eprint ending.stderr
      return UInt32.ofNat ending.status
