import Lending.Program.Basic
import Lending.Scopes
import Lending.Text.Blank
import Lending.Text.EditDistance

/-!
# Validation

Resolves every name of a program lexically and checks that it names the right sort of entity.
Loans play no part here. A program with a defect is not checked any further.
-/

namespace Lending

/-- A way in which a statement breaks the static rules. -/
inductive Defect where
  /-- The name is declared in no open scope; names close to it are suggested. -/
  | unknownName (name : String) (suggestions : List String)
  /-- A reference is needed, and the name is a binding. -/
  | notAReference (name : String)
  /-- A binding is needed, and the name is a reference. -/
  | notABinding (name : String)
  /-- An assignment through a shared reference. -/
  | writeThroughShared (name : String)
  /-- A scope exit without a scope to exit. -/
  | unbalancedScope
  /-- A blank name. -/
  | emptyIdentifier
deriving DecidableEq, Repr, Inhabited

namespace Defect

/-- The defect in words. -/
def message : Defect → String
  | .unknownName name _ => s!"cannot find `{name}` in this scope"
  | .notAReference name => s!"`{name}` is a binding, not a reference"
  | .notABinding name => s!"`{name}` is a reference; only bindings can be used here"
  | .writeThroughShared name => s!"cannot assign through `{name}`, which is a shared reference"
  | .unbalancedScope => "scope exit without a matching scope entry"
  | .emptyIdentifier => "identifiers must not be empty"

/-- The name that the defect is about. -/
def name? : Defect → Option String
  | .unknownName name _ => some name
  | .notAReference name => some name
  | .notABinding name => some name
  | .writeThroughShared name => some name
  | .unbalancedScope => none
  | .emptyIdentifier => none

end Defect

/-- A defect and the index of the statement that has it. -/
structure ProgramError where
  index : Nat
  defect : Defect
deriving DecidableEq, Repr, Inhabited

namespace Validation

/-- What a name is declared as. -/
inductive Declared where
  | binding
  | reference (kind : BorrowKind)
deriving DecidableEq, Repr, Inhabited

/-- What a use of a name needs it to be. -/
inductive Expected where
  | binding
  | reference
deriving DecidableEq, Repr, Inhabited

/-- The declarations in force between two statements. -/
abbrev Names := Scopes Declared

/-! ## Suggestions -/

/-- The largest edit distance at which a name is suggested. -/
def maxDistance : Nat := 2

/-- The largest number of suggestions. -/
def maxSuggestions : Nat := 3

/-- The order of suggestions: nearer names first, and names equally near by their text. -/
def suggestsBefore (left right : String × Nat) : Bool :=
  if left.2 = right.2 then decide (left.1 ≤ right.1) else decide (left.2 < right.2)

/-- The list without those elements that repeat the one before them. -/
def dropRepeats : List String → List String
  | [] => []
  | [name] => [name]
  | first :: second :: rest =>
      if first = second then dropRepeats (second :: rest)
      else first :: dropRepeats (second :: rest)

/-- The best of some candidates for `name`, which may come in any order and more than once. -/
def closest (candidates : List String) (name : String) : List String :=
  let near := (candidates.map fun candidate => (candidate, Text.editDistance name candidate)).filter
    fun candidate => decide (candidate.2 ≤ maxDistance)
  (dropRepeats ((near.mergeSort suggestsBefore).map (·.1))).take maxSuggestions

/-- The names in the open scopes that are closest to `name`. -/
def suggestions (names : Names) (name : String) : List String :=
  closest names.names name

/-! ## Statements -/

/-- The defects of using `name` where `expected` is needed. -/
def use (names : Names) (name : String) (expected : Expected) : List Defect :=
  if Text.isBlank name then [.emptyIdentifier]
  else match names.lookup name, expected with
    | none, _ => [.unknownName name (suggestions names name)]
    | some (.reference _), .binding => [.notABinding name]
    | some .binding, .reference => [.notAReference name]
    | some .binding, .binding => []
    | some (.reference _), .reference => []

/-- The defects of the names in an expression, in order. -/
def useAll (names : Names) (expr : Expr) : List Defect :=
  expr.names.flatMap fun mention =>
    use names mention.name (if mention.isDeref then .reference else .binding)

/-- The defects of assigning through a reference. -/
def useToWrite (names : Names) (reference : String) : List Defect :=
  match use names reference .reference, names.lookup reference with
  | [], some (.reference .shared) => [.writeThroughShared reference]
  | defects, _ => defects

/-- Declares a name. A blank name is a defect and is not declared. -/
def declare (names : Names) (name : String) (declared : Declared) : Names × List Defect :=
  if Text.isBlank name then (names, [.emptyIdentifier])
  else (names.declare name declared, [])

/-- Takes one statement: the declarations in force after it, and its defects in order. -/
def step (names : Names) : Action → Names × List Defect
  | .declareBinding name _ _ init =>
      let found := match init with
        | some expr => useAll names expr
        | none => []
      let (after, blank) := declare names name .binding
      (after, found ++ blank)
  | .declareReference name kind _ target =>
      let (after, blank) := declare names name (.reference kind)
      (after, use names target .binding ++ blank)
  | .rebindReference name target =>
      (names, use names name .reference ++ use names target .binding)
  | .assignBinding name value => (names, useAll names value ++ use names name .binding)
  | .assignThrough reference value =>
      (names, useAll names value ++ useToWrite names reference)
  | .readBinding name => (names, use names name .binding)
  | .readThrough (.deref name) => (names, use names name .reference)
  | .readThrough (.borrow name) => (names, use names name .binding)
  | .enterScope => (names.enter, [])
  | .exitScope =>
      match names.exit? with
      | some (_, outer) => (outer, [])
      | none => (names, [.unbalancedScope])

/-- The errors of the statements from `index` on. -/
def errorsFrom (names : Names) (index : Nat) : List Action → List ProgramError
  | [] => []
  | action :: rest =>
      let (after, defects) := step names action
      defects.map (fun defect => { index, defect }) ++ errorsFrom after (index + 1) rest

/-- The declarations in force after the given statements. -/
def namesAfter (names : Names) (actions : List Action) : Names :=
  actions.foldl (fun names action => (step names action).1) names

end Validation

/-- The errors of a program, in the order of its statements. A program without errors is valid. -/
def Program.errors (program : Program) : List ProgramError :=
  Validation.errorsFrom .root 0 program.actions

/-- Whether the program keeps the static rules. -/
def Program.isValid (program : Program) : Bool :=
  program.errors.isEmpty

end Lending
