import Lending.Datum.Basic
import Lending.Mode
import Lending.Program.Basic

/-!
# Programs from data

Gives data the shape of programs. Members with unknown names are passed over; a known member may
not be repeated. A record that is not taken up as a whole may also be a list of its values.

A statement and a span are taken up as a whole before they are given a shape, so nothing inside
them may be unreadable, not even under an unknown name.
-/

namespace Lending

/-- A word. -/
def Datum.word? : Datum → Option Word
  | .int value => Word.ofInt? value
  | _ => none

/-- A span: a record of offsets, in file 0 unless another is given. -/
def FileSpan.ofDatum? (datum : Datum) : Option FileSpan := do
  guard datum.readable
  let fields ← datum.fields?
  let file ← fields.optional "file" 0 Datum.uint32?
  let start ← fields.required "start" Datum.uint32?
  let stop ← fields.required "end" Datum.uint32?
  return { file, span := { start, stop } }

/-- A position. -/
def Position.ofDatum? (dialect : Dialect) (datum : Datum) : Option Position := do
  let fields ← dialect.fields? ["index", "span", "end_of_program"] datum
  let index ← fields.required "index" Datum.index?
  let span ← fields.optional "span" none (Datum.nullable? FileSpan.ofDatum?)
  let endOfProgram ← fields.optional "end_of_program" false Datum.bool?
  return { index, span, endOfProgram }

/-- A record whose only member says how loans end; without it they end lexically. -/
def Mode.ofSettings? (dialect : Dialect) (datum : Datum) : Option Mode := do
  let fields ← dialect.fields? ["mode"] datum
  fields.optional "mode" .lexical fun value => do
    Mode.ofKeyword? (← dialect.choice? value)

/-- An arithmetic operator. -/
def BinOp.ofDatum? (dialect : Dialect) (datum : Datum) : Option BinOp := do
  let keyword ← dialect.choice? datum
  BinOp.all.find? fun op => op.keyword == keyword

/-- A kind of loan. -/
def BorrowKind.ofDatum? (dialect : Dialect) (datum : Datum) : Option BorrowKind := do
  let keyword ← dialect.choice? datum
  BorrowKind.all.find? fun kind => kind.keyword == keyword

/-- The values of a record are smaller than the record. -/
theorem Dialect.sizeOf_lt_of_fields? {dialect : Dialect} {names : List String} {datum : Datum}
    {fields : Fields} (shaped : dialect.fields? names datum = some fields) {name : String}
    {value : Datum} (member : value ∈ fields.values name) : sizeOf value < sizeOf datum := by
  have stands := Fields.mem_of_mem_values member
  cases datum with
  | list items =>
      simp only [Dialect.fields?] at shaped
      split at shaped
      · simp only [Option.some.injEq] at shaped
        subst shaped
        have := List.sizeOf_lt_of_mem (List.of_mem_zip stands).2
        simp only [Datum.list.sizeOf_spec]
        omega
      · contradiction
  | record members =>
      simp only [Dialect.fields?, Datum.fields?, Option.some.injEq] at shaped
      subst shaped
      have := List.sizeOf_lt_of_mem stands
      simp only [Datum.record.sizeOf_spec, Prod.mk.sizeOf_spec] at this ⊢
      omega
  | moment literal =>
      simp only [Dialect.fields?, Datum.fields?, Option.some.injEq] at shaped
      subst shaped
      contradiction
  | _ => simp [Dialect.fields?, Datum.fields?] at shaped

/-- An expression: a record with exactly one member, named for its form. -/
def Expr.ofDatum? (dialect : Dialect) (datum : Datum) : Option Expr :=
  match datum with
  | .record [(form, content)] =>
      if form = "int" then content.word?.map .int
      else if form = "var" then content.text?.map .var
      else if form = "deref" then content.text?.map .deref
      else if form = "binary" then
        match _shaped : dialect.fields? ["op", "lhs", "rhs"] content with
        | none => none
        | some fields =>
            match _leftRead : fields.values "lhs", _rightRead : fields.values "rhs" with
            | [left], [right] => do
                let op ← fields.required "op" (BinOp.ofDatum? dialect)
                let lhs ← Expr.ofDatum? dialect left
                let rhs ← Expr.ofDatum? dialect right
                return .binary op lhs rhs
            | _, _ => none
      else none
  | _ => none
termination_by sizeOf datum
decreasing_by
  · have := Dialect.sizeOf_lt_of_fields? _shaped (_leftRead ▸ List.mem_singleton_self left)
    simp only [Datum.record.sizeOf_spec, List.cons.sizeOf_spec, Prod.mk.sizeOf_spec]
    omega
  · have := Dialect.sizeOf_lt_of_fields? _shaped (_rightRead ▸ List.mem_singleton_self right)
    simp only [Datum.record.sizeOf_spec, List.cons.sizeOf_spec, Prod.mk.sizeOf_spec]
    omega

/-- An access path: a record with exactly one member, named for its form. -/
def AccessPath.ofDatum? : Datum → Option AccessPath
  | .record [(form, content)] =>
      if form = "deref" then content.text?.map .deref
      else if form = "borrow" then content.text?.map .borrow
      else none
  | _ => none

/-- The values of the member `op`. -/
def Action.keywords : List String :=
  ["declare_binding", "declare_reference", "rebind_reference", "assign_binding",
    "assign_through_reference", "read_binding", "read_through_reference", "enter_scope",
    "exit_scope"]

/-- The action of a statement: the member `op` says which, and the other members it needs follow. -/
def Action.ofFields? (dialect : Dialect) (fields : Fields) : Option Action := do
  let name := fields.required "name" Datum.text?
  let target := fields.required "target" Datum.text?
  let value := fields.required "value" (Expr.ofDatum? .held)
  let isMutable := fields.optional "mutable" false Datum.bool?
  match ← fields.required "op" (dialect.form? Action.keywords) with
  | "declare_binding" =>
      let tag ← fields.optional "ty" Action.defaultTag Datum.text?
      let init ← fields.optional "init" none (Datum.nullable? (Expr.ofDatum? .held))
      return .declareBinding (← name) (← isMutable) tag init
  | "declare_reference" =>
      let kind ← fields.required "kind" (BorrowKind.ofDatum? .held)
      return .declareReference (← name) kind (← isMutable) (← target)
  | "rebind_reference" => return .rebindReference (← name) (← target)
  | "assign_binding" => return .assignBinding (← name) (← value)
  | "assign_through_reference" =>
      let reference ← fields.required "reference" Datum.text?
      return .assignThrough reference (← value)
  | "read_binding" => return .readBinding (← name)
  | "read_through_reference" =>
      let path ← fields.required "path" AccessPath.ofDatum?
      return .readThrough path
  | "enter_scope" => return .enterScope
  | "exit_scope" => return .exitScope
  | _ => none

/-- A statement. -/
def Statement.ofDatum? (dialect : Dialect) (datum : Datum) : Option Statement := do
  guard datum.readable
  let fields ← datum.fields?
  let action ← Action.ofFields? dialect fields
  let span ← fields.optional "span" none (Datum.nullable? FileSpan.ofDatum?)
  return { action, span }

/-- A source text. -/
def SourceText.ofDatum? (dialect : Dialect) (datum : Datum) : Option SourceText := do
  let fields ← dialect.fields? ["path", "text"] datum
  let path ← fields.required "path" Datum.text?
  let text ← fields.required "text" Datum.text?
  return { path, text }

/-- A program. -/
def Program.ofDatum? (dialect : Dialect) (datum : Datum) : Option Program := do
  let fields ← dialect.fields? ["name", "source", "statements"] datum
  let name ← fields.optional "name" none (Datum.nullable? Datum.text?)
  let source ← fields.optional "source" none (Datum.nullable? (SourceText.ofDatum? dialect))
  let statements ← fields.optional "statements" [] fun value => do
    (← value.items?).mapM (Statement.ofDatum? dialect)
  return { name, source, statements }

end Lending
