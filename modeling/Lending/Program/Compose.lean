import Lending.Program.Basic

/-!
# Composing programs

Building a program statement by statement. Each function appends one statement or sets one
property, so that a program reads as a chain of calls.
-/

namespace Lending.Program

/-- Gives the program a name. -/
def named (program : Program) (name : String) : Program :=
  { program with name := some name }

/-- Attaches the source text. -/
def withSource (program : Program) (path text : String) : Program :=
  { program with source := some { path, text } }

/-- Appends an action without a span. -/
def push (program : Program) (action : Action) : Program :=
  { program with statements := program.statements ++ [{ action }] }

/-- The list with `f` applied to its last element. -/
def modifyLast {α : Type} (f : α → α) : List α → List α
  | [] => []
  | [last] => [f last]
  | first :: rest => first :: modifyLast f rest

/-- Attaches a span to the last statement, if there is one. -/
def spanned (program : Program) (span : FileSpan) : Program :=
  { program with
    statements := modifyLast (fun statement => { statement with span := some span })
      program.statements }

/-- Declares a binding with the default value type. -/
def declare (program : Program) (name : String) (isMutable : Bool) (init : Option Expr) : Program :=
  program.push (.declareBinding name isMutable Action.defaultTag init)

/-- Declares an immutable binding with a literal value. -/
def binding (program : Program) (name : String) (value : Word) : Program :=
  program.declare name false (some (.int value))

/-- Declares a mutable binding with a literal value. -/
def bindingMut (program : Program) (name : String) (value : Word) : Program :=
  program.declare name true (some (.int value))

/-- Declares a reference. -/
def reference (program : Program) (name : String) (kind : BorrowKind) (isMutable : Bool)
    (target : String) : Program :=
  program.push (.declareReference name kind isMutable target)

/-- Declares a shared reference that cannot be rebound. -/
def sharedRef (program : Program) (name target : String) : Program :=
  program.reference name .shared false target

/-- Declares an exclusive reference that cannot be rebound. -/
def exclusiveRef (program : Program) (name target : String) : Program :=
  program.reference name .exclusive false target

/-- Points a reference at another binding. -/
def rebind (program : Program) (name target : String) : Program :=
  program.push (.rebindReference name target)

/-- Assigns to a binding. -/
def assign (program : Program) (name : String) (value : Expr) : Program :=
  program.push (.assignBinding name value)

/-- Assigns through a reference. -/
def assignThrough (program : Program) (reference : String) (value : Expr) : Program :=
  program.push (.assignThrough reference value)

/-- Reads a binding. -/
def read (program : Program) (name : String) : Program :=
  program.push (.readBinding name)

/-- Reads through a reference. -/
def readDeref (program : Program) (reference : String) : Program :=
  program.push (.readThrough (.deref reference))

/-- Reads a binding through a loan for this read only. -/
def readBorrowed (program : Program) (name : String) : Program :=
  program.push (.readThrough (.borrow name))

/-- Enters a scope. -/
def enter (program : Program) : Program :=
  program.push .enterScope

/-- Exits a scope. -/
def exit (program : Program) : Program :=
  program.push .exitScope

end Lending.Program
