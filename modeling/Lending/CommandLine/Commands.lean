import Lending.CommandLine.Settings
import Lending.Datum.Json.Printer
import Lending.Diagnostic.Encode
import Lending.Diagnostic.Report
import Lending.Diagnostic.Snippet
import Lending.Session

/-!
# Commands

What each command prints and how it ends. A command sees files through a function from paths to
what stands there, so it is a pure function of its arguments and the files.
-/

namespace Lending.CommandLine

/-- A piece of output, to one of the two streams. -/
inductive Output where
  | out (text : String)
  | err (text : String)
deriving DecidableEq, Repr, Inhabited

/-- How a command ends: what it printed, and the message of its failure if it failed. -/
structure Ending where
  output : List Output := []
  failure : Option String := none
deriving DecidableEq, Repr, Inhabited

namespace Ending

/-- A failure before anything was printed. -/
def fail (message : String) : Ending :=
  { failure := some message }

/-- The text on the standard output. -/
def stdout (ending : Ending) : String :=
  String.join (ending.output.map fun
    | .out text => text
    | .err _ => "")

/-- The text on the standard error, where a failure comes last. -/
def stderr (ending : Ending) : String :=
  String.join (ending.output.map fun
    | .out _ => ""
    | .err text => text) ++
  (match ending.failure with
  | some message => s!"Error: {message}\n"
  | none => "")

/-- The exit status. -/
def status (ending : Ending) : Nat :=
  if ending.failure.isSome then 1 else 0

end Ending

/-- The diagnostics of a program, each with a snippet if possible and else as text. -/
def violations (program : Program) (outcome : Outcome) : List Output :=
  outcome.diagnostics.map fun diagnostic =>
    match program.snippet? diagnostic with
    | some snippet => .err (snippet ++ "\n")
    | none => .err (program.reportBlock diagnostic)

/-- What evaluation saw, or why it stopped. -/
def evaluation (outcome : Outcome) : List Output :=
  match outcome.evaluation with
  | some (.ok trace) =>
      trace.map fun observation => .out s!"    read {observation.render}\n"
  | some (.error error) => [.err s!"    ✗ {error.message}\n"]
  | none => []

/-- The results of a check as text. -/
def textResults (mode : Mode) (programs : List Program) (outcomes : List Outcome) : List Output :=
  let failed := outcomes.countP fun outcome => !outcome.isClean
  [.out s!"Checking {programs.length} programs ({mode.keyword} mode)\n"] ++
  (programs.zip outcomes).flatMap (fun (program, outcome) =>
    [.out s!"\n  Checking: {outcome.name}\n"] ++
    (if outcome.isClean then [.out "    ✓ No borrow violations\n"]
    else violations program outcome) ++
    evaluation outcome) ++
  [.out "\n"] ++
  (if failed = 0 then [.out "Success: No errors found\n"]
  else [.err s!"Failed: {failed} of {outcomes.length} programs have violations\n"])

/-- The result of one file as a record. -/
def resultDatum (path : String) (outcome : Outcome) : Datum :=
  let (observations, error) := match outcome.evaluation with
    | some (.ok trace) => (Datum.list (trace.map Observation.toDatum), Datum.null)
    | some (.error error) => (.null, .text error.message)
    | none => (.null, .null)
  .record [
    ("diagnostics", .list (outcome.diagnostics.map Diagnostic.toDatum)),
    ("evaluation_error", error),
    ("observations", observations),
    ("path", .text path),
    ("program", .text outcome.name)]

/-- The results of a check as JSON. -/
def jsonResults (paths : List String) (outcomes : List Outcome) : List Output :=
  let results := (paths.zip outcomes).map fun (path, outcome) => resultDatum path outcome
  [.out (Json.pretty (.list results) ++ "\n")]

/-- Loads files in order, up to the first that cannot be loaded. -/
def loadAll : List (String × Tree) → Except LoadError (List Program)
  | [] => .ok []
  | (path, tree) :: rest => do
      let program ← Program.load path (some tree)
      let programs ← loadAll rest
      return program :: programs

/-- Checks the programs at a path. -/
def check (files : String → Option Tree) (directory : String) (workers : Nat)
    (options : CheckOptions) : Ending :=
  match Settings.discover files directory options.config with
  | .error error => .fail error.message
  | .ok settings =>
      let mode := options.mode.getD settings.mode
      let path := options.searchPath
      match findPrograms path (files path) with
      | .error error => .fail error.message
      | .ok [] => .fail s!"No program files found in {path}"
      | .ok found =>
          match loadAll found with
          | .error error => .fail error.message
          | .ok programs =>
              let session : Session := { mode, evaluate := options.evaluate }
              let outcomes := session.checkBatch workers programs
              let total := outcomes.foldl (fun total outcome => total + outcome.diagnostics.length) 0
              { output := match options.format.getD settings.format with
                  | .text => textResults mode programs outcomes
                  | .json => jsonResults (found.map (·.1)) outcomes
                failure := if total = 0 then none
                  else some s!"Check failed with {total} borrow violations" }

/-- Checks the program at a path, and evaluates it if it is clean. -/
def run (files : String → Option Tree) (path : String) : Ending :=
  match Program.load path (files path) with
  | .error error => .fail error.message
  | .ok program =>
      let outcome := Session.check { evaluate := true } program
      let start := [.out s!"Running {program.displayName}\n"]
      if outcome.isClean then
        { output := start ++ evaluation outcome
          failure := match outcome.evaluation with
            | some (.error error) => some s!"Evaluation failed: {error.message}"
            | _ => none }
      else
        let count := outcome.diagnostics.length
        { output := start ++ violations program outcome
          failure := some s!"{outcome.name} has {count} borrow violations; not evaluating" }

/-- Explains a kind of violation. -/
def explain (text : String) : Ending :=
  match ViolationKind.parse text with
  | .ok kind =>
      { output := [.out s!"{kind.name} [{kind.code}]\n\n{kind.explanation}\n"] }
  | .error message =>
      let known := ", ".intercalate (ViolationKind.all.map ViolationKind.name)
      .fail s!"{message}; known kinds: {known}"

/-- Carries out a command. Paths are looked up in `files`, and `directory` is the name of the
working directory. -/
def execute (files : String → Option Tree) (directory : String) (workers : Nat) :
    Command → Ending
  | .check options => check files directory workers options
  | .run path => run files path
  | .explain kind => explain kind
  | .version => { output := [.out "lexborrow 0.1.0\n"] }

end Lending.CommandLine
