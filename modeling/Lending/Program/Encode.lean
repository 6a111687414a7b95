import Lending.Datum.Basic
import Lending.Program.Basic

/-!
# Programs as data

The form in which programs and positions are written to files. The members of each record stand
in alphabetical order, and a member whose value is absent is left out.
-/

namespace Lending

/-- A member that is left out when there is no value. -/
def Fields.present (name : String) : Option Datum → Fields
  | some value => [(name, value)]
  | none => []

/-- The span as a record of offsets. -/
def FileSpan.toDatum (span : FileSpan) : Datum :=
  .record [
    ("end", .nat span.span.stop.toNat),
    ("file", .nat span.file.toNat),
    ("start", .nat span.span.start.toNat)]

/-- The position as a record; the mark of the end of the program is written only when set. -/
def Position.toDatum (position : Position) : Datum :=
  .record (
    (if position.endOfProgram then [("end_of_program", .bool true)] else []) ++
    [("index", .nat position.index)] ++
    Fields.present "span" (position.span.map FileSpan.toDatum))

/-- The expression as a record with one member, named for its form. -/
def Expr.toDatum : Expr → Datum
  | .int value => .record [("int", .int value.val)]
  | .var name => .record [("var", .text name)]
  | .deref name => .record [("deref", .text name)]
  | .binary op lhs rhs =>
      .record [("binary", .record [
        ("lhs", lhs.toDatum), ("op", .text op.keyword), ("rhs", rhs.toDatum)])]

/-- The path as a record with one member, named for its form. -/
def AccessPath.toDatum : AccessPath → Datum
  | .deref name => .record [("deref", .text name)]
  | .borrow name => .record [("borrow", .text name)]

namespace Action

/-- The action as the value of the member `op`. -/
def keyword : Action → String
  | .declareBinding .. => "declare_binding"
  | .declareReference .. => "declare_reference"
  | .rebindReference .. => "rebind_reference"
  | .assignBinding .. => "assign_binding"
  | .assignThrough .. => "assign_through_reference"
  | .readBinding .. => "read_binding"
  | .readThrough .. => "read_through_reference"
  | .enterScope => "enter_scope"
  | .exitScope => "exit_scope"

/-- The members of a statement with this action, among which `span` stands in its place. -/
def toFields (action : Action) (span : Fields) : Fields :=
  let op := ("op", .text action.keyword)
  match action with
  | .declareBinding name isMutable tag init =>
      Fields.present "init" (init.map Expr.toDatum) ++
        [("mutable", .bool isMutable), ("name", .text name), op] ++ span ++ [("ty", .text tag)]
  | .declareReference name kind isMutable target =>
      [("kind", .text kind.keyword), ("mutable", .bool isMutable), ("name", .text name), op] ++
        span ++ [("target", .text target)]
  | .rebindReference name target =>
      [("name", .text name), op] ++ span ++ [("target", .text target)]
  | .assignBinding name value =>
      [("name", .text name), op] ++ span ++ [("value", value.toDatum)]
  | .assignThrough reference value =>
      [op, ("reference", .text reference)] ++ span ++ [("value", value.toDatum)]
  | .readBinding name => [("name", .text name), op] ++ span
  | .readThrough path => [op, ("path", path.toDatum)] ++ span
  | .enterScope => op :: span
  | .exitScope => op :: span

end Action

/-- The statement as a record. -/
def Statement.toDatum (statement : Statement) : Datum :=
  .record (statement.action.toFields
    (Fields.present "span" (statement.span.map FileSpan.toDatum)))

/-- The source text as a record. -/
def SourceText.toDatum (source : SourceText) : Datum :=
  .record [("path", .text source.path), ("text", .text source.text)]

/-- The program as a record. -/
def Program.toDatum (program : Program) : Datum :=
  .record (
    Fields.present "name" (program.name.map .text) ++
    Fields.present "source" (program.source.map SourceText.toDatum) ++
    [("statements", .list (program.statements.map Statement.toDatum))])

end Lending
