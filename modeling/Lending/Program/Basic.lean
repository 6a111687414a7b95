import Lending.Program.Expr
import Lending.Source

/-!
# Programs

A program is a flat list of statements. Blocks are marked by statements that enter and exit a
scope; the whole program stands in one more scope, which closes after the last statement.
-/

namespace Lending

/-- How a reference borrows its target, and what a loan grants. -/
inductive BorrowKind where
  /-- Reads only; any number may hold the same binding. -/
  | shared
  /-- Reads and writes; shuts out every other access. -/
  | exclusive
deriving DecidableEq, Repr, Inhabited

namespace BorrowKind

/-- The kinds, in the order in which they are listed to users. -/
def all : List BorrowKind := [.shared, .exclusive]

/-- The kind in program files and in messages. -/
def keyword : BorrowKind → String
  | .shared => "shared"
  | .exclusive => "exclusive"

/-- The borrow operator, up to the name of the target. -/
def sigil : BorrowKind → String
  | .shared => "&"
  | .exclusive => "&mut "

/-- Whether the kind shuts out every other access. -/
def isExclusive : BorrowKind → Bool
  | .shared => false
  | .exclusive => true

/-- What is said of a binding that is lent out in this way. -/
def heldPhrase : BorrowKind → String
  | .shared => "borrowed as shared"
  | .exclusive => "exclusively borrowed"

end BorrowKind

/-- How a read reaches its binding. -/
inductive AccessPath where
  /-- Through an existing reference. -/
  | deref (name : String)
  /-- Through a shared loan that lasts for this read only. -/
  | borrow (name : String)
deriving DecidableEq, Repr, Inhabited

namespace AccessPath

/-- The name in the path. -/
def name : AccessPath → String
  | .deref name => name
  | .borrow name => name

/-- The path as it is written in a listing. -/
def render : AccessPath → String
  | .deref name => "*" ++ name
  | .borrow name => "&" ++ name

end AccessPath

/-- What a statement does. -/
inductive Action where
  | declareBinding (name : String) (isMutable : Bool) (tag : String) (init : Option Expr)
  | declareReference (name : String) (kind : BorrowKind) (isMutable : Bool) (target : String)
  | rebindReference (name target : String)
  | assignBinding (name : String) (value : Expr)
  | assignThrough (reference : String) (value : Expr)
  | readBinding (name : String)
  | readThrough (path : AccessPath)
  | enterScope
  | exitScope
deriving DecidableEq, Repr, Inhabited

namespace Action

/-- The value type that a binding has when none is given. It is shown and never looked at. -/
def defaultTag : String := "i32"

/-- The name that the action declares. -/
def declaredName : Action → Option String
  | .declareBinding name _ _ _ => some name
  | .declareReference name _ _ _ => some name
  | _ => none

/-- The expression that the action evaluates. -/
def value : Action → Option Expr
  | .declareBinding _ _ _ init => init
  | .assignBinding _ value => some value
  | .assignThrough _ value => some value
  | _ => none

/-- The path of a read through a reference. -/
def path : Action → Option AccessPath
  | .readThrough path => some path
  | _ => none

/-- The word that marks a declaration as mutable. -/
def mutableMark (isMutable : Bool) : String :=
  if isMutable then "mut " else ""

/-- The action in a line of text. -/
def render : Action → String
  | .declareBinding name isMutable tag init =>
      "let " ++ mutableMark isMutable ++ name ++ ": " ++ tag ++
        (match init with
        | some expr => " = " ++ expr.render
        | none => "")
  | .declareReference name kind isMutable target =>
      "let " ++ mutableMark isMutable ++ name ++ " = " ++ kind.sigil ++ target
  | .rebindReference name target => "rebind " ++ name ++ " -> " ++ target
  | .assignBinding name value => name ++ " = " ++ value.render
  | .assignThrough reference value => "*" ++ reference ++ " = " ++ value.render
  | .readBinding name => "read " ++ name
  | .readThrough path => "read " ++ path.render
  | .enterScope => "\x7b"
  | .exitScope => "\x7d"

end Action

/-- An action with the place in the source that it came from. -/
structure Statement where
  action : Action
  span : Option FileSpan := none
deriving DecidableEq, Repr, Inhabited

/-- The source text that the spans of a program point into. -/
structure SourceText where
  path : String
  text : String
deriving DecidableEq, Repr, Inhabited

/-- A program with its optional name and source. -/
structure Program where
  name : Option String := none
  source : Option SourceText := none
  statements : List Statement := []
deriving DecidableEq, Repr, Inhabited

namespace Program

/-- The place of the statement at `index`, or the end of the program past the last one. -/
def position (program : Program) (index : Nat) : Position :=
  match program.statements[index]? with
  | some statement => .statement index statement.span
  | none => .atEnd program.statements.length

/-- The name used in reports: the program's own, else the path of its source. -/
def displayName (program : Program) : String :=
  match program.name, program.source with
  | some name, _ => name
  | none, some source => source.path
  | none, none => "<program>"

/-- The actions of the program in order. -/
def actions (program : Program) : List Action :=
  program.statements.map (·.action)

/-- The text padded with spaces on the left to `width` characters. -/
def padLeft (width : Nat) (text : String) : String :=
  String.ofList (List.replicate (width - text.length) ' ') ++ text

/-- The lines of a listing from statement `index` on, at nesting depth `depth`. -/
def listingLines : List Action → Nat → Nat → List String
  | [], _, _ => []
  | action :: rest, index, depth =>
      let shown := if action = .exitScope then depth - 1 else depth
      let next := if action = .enterScope then shown + 1 else shown
      (padLeft 3 (toString index) ++ "  " ++ String.ofList (List.replicate (4 * shown) ' ') ++
          action.render ++ "\n") ::
        listingLines rest (index + 1) next

/-- The program as numbered lines, indented by scope. -/
def listing (program : Program) : String :=
  String.join (listingLines program.actions 0 0)

/-- The program made of the first `count` statements, without name and source. -/
def take (program : Program) (count : Nat) : Program :=
  { statements := program.statements.take count }

end Program

end Lending
