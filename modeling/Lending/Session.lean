import Lending.Checker
import Lending.Evaluation

/-!
# Sessions

Checks programs under common settings and, if asked to, evaluates those that are clean. Many
programs are split into runs of equal length, one for each worker, and the outcomes are joined in
the order of the programs.
-/

namespace Lending

/-- What came of checking one program. -/
structure Outcome where
  name : String
  diagnostics : List Diagnostic
  /-- What evaluation gave; only for clean programs, and only when asked for. -/
  evaluation : Option (Except EvalError (List Observation))

/-- Whether nothing was reported. -/
def Outcome.isClean (outcome : Outcome) : Bool :=
  outcome.diagnostics.isEmpty

/-- The settings under which programs are checked. -/
structure Session where
  mode : Mode := .lexical
  evaluate : Bool := false
deriving DecidableEq, Repr, Inhabited

namespace Session

/-- Checks one program. -/
def check (session : Session) (program : Program) : Outcome :=
  let diagnostics := program.analyze session.mode
  { name := program.displayName
    diagnostics
    evaluation := if session.evaluate && diagnostics.isEmpty then some program.run else none }

/-- Collects the list into runs of `size` elements, the last of which may be shorter. The open
run is given in reverse, and has room for `room` more elements. -/
def chunksFrom {α : Type} (size : Nat) (run : List α) (room : Nat) : List α → List (List α)
  | [] => if run.isEmpty then [] else [run.reverse]
  | item :: rest =>
      match room with
      | 0 => run.reverse :: chunksFrom size [item] (size - 1) rest
      | room + 1 => chunksFrom size (item :: run) room rest

/-- The list in runs of `size` elements, the last of which may be shorter. -/
def chunks {α : Type} (size : Nat) (items : List α) : List (List α) :=
  chunksFrom size [] size items

/-- The length of the runs when `count` programs are shared among at most `workers`. -/
def chunkSize (workers count : Nat) : Nat :=
  let used := min workers count
  (count + used - 1) / used

/-- Checks many programs, each worker one run of them. -/
def checkBatch (session : Session) (workers : Nat) (programs : List Program) : List Outcome :=
  if programs.isEmpty then []
  else (chunks (chunkSize workers programs.length) programs).flatMap fun run =>
    run.map session.check

end Session

end Lending
