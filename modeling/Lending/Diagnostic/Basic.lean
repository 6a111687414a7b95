import Lending.Diagnostic.Kind
import Lending.Mode
import Lending.Validation

/-!
# Diagnostics

What the checker reports: a violation, and the place in the program where it was found.
-/

namespace Lending

/-- How the owner touched a binding. -/
inductive Access where
  | read
  | write
deriving DecidableEq, Repr, Inhabited

namespace Access

/-- The accesses. -/
def all : List Access := [.read, .write]

/-- The access as it is written as data. -/
def keyword : Access → String
  | .read => "read"
  | .write => "write"

/-- The access as a verb in messages. -/
def verb : Access → String
  | .read => "read"
  | .write => "assign to"

end Access

/-- What went wrong. -/
inductive Violation where
  /-- A loan was refused because of the loans that are out. A read that borrows for itself has no
  reference. -/
  | exclusivity (binding : String) (requested : BorrowKind) (reference : Option String)
      (held : BorrowKind) (holders : List String)
  /-- The owner touched a binding that it has lent out. -/
  | ownerAccess (binding : String) (access : Access) (held : BorrowKind) (holders : List String)
  /-- An assignment to a binding, or a rebind of a reference, that is not mutable. -/
  | immutableAssignment (name : String)
  /-- A binding was destroyed while references still held it. -/
  | danglingReferent (binding : String) (references : List String)
  /-- The mode is not implemented. -/
  | unsupportedMode (mode : Mode)
  /-- The program is not valid. -/
  | malformedProgram (error : ProgramError)
deriving DecidableEq, Repr, Inhabited

/-- The names between backticks with commas between them, or a phrase for none. -/
def quoteNames (names : List String) : String :=
  if names.isEmpty then "a temporary borrow"
  else ", ".intercalate (names.map fun name => s!"`{name}`")

namespace Violation

/-- The category of the violation. -/
def kind : Violation → ViolationKind
  | .exclusivity .. => .exclusivity
  | .ownerAccess .. => .ownerAccess
  | .immutableAssignment .. => .immutableAssignment
  | .danglingReferent .. => .danglingReferent
  | .unsupportedMode .. => .unsupportedMode
  | .malformedProgram .. => .malformedProgram

/-- The violation in words. -/
def message : Violation → String
  | .exclusivity binding requested reference held holders =>
      let asker := match reference with
        | some name => s!" for `{name}`"
        | none => ""
      s!"cannot borrow `{binding}` as {requested.keyword}{asker} because it is " ++
        s!"{held.heldPhrase} by {quoteNames holders}"
  | .ownerAccess binding access held holders =>
      s!"cannot {access.verb} `{binding}` because it is {held.heldPhrase} by {quoteNames holders}"
  | .immutableAssignment name =>
      s!"cannot assign to `{name}` because it is not declared mutable"
  | .danglingReferent binding references =>
      s!"`{binding}` is destroyed while still borrowed by {quoteNames references}"
  | .unsupportedMode mode => s!"borrow mode `{mode.keyword}` is not supported"
  | .malformedProgram error => s!"malformed program: {error.defect.message}"

/-- What the user can do about it. -/
def help : Violation → String
  | .exclusivity binding _ _ _ _ =>
      s!"a borrow lasts until the end of the scope that declared it; close that scope before " ++
        s!"borrowing `{binding}` again"
  | .ownerAccess binding _ _ _ =>
      s!"`{binding}` is unavailable to its owner until every conflicting reference goes out of scope"
  | .immutableAssignment name => s!"declare `{name}` as mutable to allow reassigning it"
  | .danglingReferent binding _ =>
      s!"declare `{binding}` before the references that borrow it, or end their scope earlier"
  | .unsupportedMode _ => "only `lexical` borrow checking is implemented"
  | .malformedProgram _ =>
      "fix the program's structure; borrow analysis only runs on well-formed programs"

/-- A short note for the statement in a source snippet. -/
def label : Violation → String
  | .exclusivity _ requested _ _ _ => s!"{requested.keyword} borrow rejected here"
  | .ownerAccess _ access _ _ => s!"{access.verb} while borrowed"
  | .immutableAssignment _ => "assignment to immutable owner"
  | .danglingReferent binding _ => s!"`{binding}` destroyed here"
  | .unsupportedMode _ => "unsupported mode"
  | .malformedProgram _ => "malformed statement"

/-- The names involved, the main one first. -/
def identifiers : Violation → List String
  | .exclusivity binding _ reference _ holders => binding :: (reference.toList ++ holders)
  | .ownerAccess binding _ _ holders => binding :: holders
  | .immutableAssignment name => [name]
  | .danglingReferent binding references => binding :: references
  | .unsupportedMode _ => []
  | .malformedProgram error => error.defect.name?.toList

end Violation

/-- A violation and its place. Only a mode that is not supported concerns no statement. -/
structure Diagnostic where
  violation : Violation
  position : Option Position
deriving DecidableEq, Repr, Inhabited

end Lending
