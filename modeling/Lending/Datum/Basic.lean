/-!
# Data

What a JSON or TOML text says, before it is given a meaning: scalars, lists and records. The
members of a record keep their order and may repeat a name; whoever reads the record decides
what a repeated name means.

A text can hold values that are well formed and still cannot be taken up, such as a numeral too
large for a double. They are kept as `unreadable`, so that a reader may pass over them but never
read them.
-/

namespace Lending

/-- A value in a data file. -/
inductive Datum where
  | null
  | bool (value : Bool)
  | int (value : Int)
  /-- A number that is no integer, as it was written; no field takes one. -/
  | real (literal : String)
  /-- A date or a time, as it was written; no field takes one. -/
  | moment (literal : String)
  | text (value : String)
  | list (items : List Datum)
  | record (fields : List (String × Datum))
  /-- A well-formed value that cannot be taken up. -/
  | unreadable
deriving Inhabited

/-- The members of a record, in the order in which they stand in the text. -/
abbrev Fields := List (String × Datum)

namespace Datum

mutual

/-- Whether nothing inside the datum is unreadable. -/
def readable : Datum → Bool
  | .unreadable => false
  | .list items => readableItems items
  | .record fields => readableFields fields
  | _ => true

/-- Whether every item is readable. -/
def readableItems : List Datum → Bool
  | [] => true
  | item :: rest => item.readable && readableItems rest

/-- Whether every member is readable. -/
def readableFields : List (String × Datum) → Bool
  | [] => true
  | (_, value) :: rest => value.readable && readableFields rest

end

/-- The members of a datum that is read as a record. A date or time counts as a record without
any member. -/
def fields? : Datum → Option Fields
  | .record fields => some fields
  | .moment _ => some []
  | _ => none

/-- The text of a datum. -/
def text? : Datum → Option String
  | .text value => some value
  | _ => none

/-- The truth value of a datum. -/
def bool? : Datum → Option Bool
  | .bool value => some value
  | _ => none

/-- The integer of a datum, if it lies in the closed range. -/
def intIn? (low high : Int) : Datum → Option Int
  | .int value => if low ≤ value ∧ value ≤ high then some value else none
  | _ => none

/-- An unsigned integer of 32 bits. -/
def uint32? (datum : Datum) : Option UInt32 :=
  (datum.intIn? 0 4294967295).map fun value => UInt32.ofNat value.toNat

/-- An unsigned integer of 64 bits. -/
def index? (datum : Datum) : Option Nat :=
  (datum.intIn? 0 18446744073709551615).map Int.toNat

/-- The items of a list. -/
def items? : Datum → Option (List Datum)
  | .list items => some items
  | _ => none

/-- Reads a value that may be null. -/
def nullable? {α : Type} (read : Datum → Option α) : Datum → Option (Option α)
  | .null => some none
  | datum => (read datum).map some

/-- A text, or null when there is none. -/
def ofText? : Option String → Datum
  | some value => .text value
  | none => .null

/-- A natural number. -/
def nat (value : Nat) : Datum :=
  .int (value : Int)

/-- A list of texts. -/
def texts (values : List String) : Datum :=
  .list (values.map .text)

end Datum

namespace Fields

/-- The values of the members with the given name. -/
def values (fields : Fields) (name : String) : List Datum :=
  (fields.filter fun field => field.1 == name).map (·.2)

/-- Reads a member that must occur exactly once. -/
def required {α : Type} (fields : Fields) (name : String) (read : Datum → Option α) : Option α :=
  match fields.values name with
  | [value] => read value
  | _ => none

/-- Reads a member that may be left out, and may not be repeated. -/
def optional {α : Type} (fields : Fields) (name : String) (absent : α)
    (read : Datum → Option α) : Option α :=
  match fields.values name with
  | [] => some absent
  | [value] => read value
  | _ => none

theorem mem_of_mem_values {fields : Fields} {name : String} {value : Datum}
    (member : value ∈ fields.values name) : (name, value) ∈ fields := by
  simp only [values, List.mem_map, List.mem_filter, beq_iff_eq] at member
  obtain ⟨⟨key, found⟩, ⟨stands, rfl⟩, rfl⟩ := member
  exact stands

end Fields

/-- The places where text formats differ in how they give a shape to their data. -/
structure Dialect where
  /-- What may stand under the name of a choice that carries no value. -/
  isUnit : Datum → Bool
  /-- Whether a list that stands for a record may have more items than the record has fields. -/
  allowsSurplus : Bool
  /-- Whether the member that names the form of a record may hold the place of the name instead. -/
  numbersForms : Bool

namespace Dialect

/-- JSON as it is read directly: null stands for no value. -/
def json : Dialect where
  isUnit
    | .null => true
    | _ => false
  allowsSurplus := false
  numbersForms := true

/-- Data that were taken up as a whole before they are given a shape: an empty record stands for
no value, and so does null. -/
def held : Dialect where
  isUnit
    | .null => true
    | .record [] => true
    | _ => false
  allowsSurplus := false
  numbersForms := false

/-- TOML as it is read directly: an empty table or an empty array stands for no value. -/
def toml : Dialect where
  isUnit
    | .record [] => true
    | .list [] => true
    | _ => false
  allowsSurplus := true
  numbersForms := false

/-- The name of a choice without a value: either the bare name, or a record with that one member. -/
def choice? (dialect : Dialect) : Datum → Option String
  | .text name => some name
  | .record [(name, value)] => if dialect.isUnit value then some name else none
  | _ => none

/-- The form of a record, out of `names`, as one of its members says it: by the name, or by its
place among the names, counted from 0. -/
def form? (dialect : Dialect) (names : List String) : Datum → Option String
  | .text name => names.find? (· == name)
  | .int place => if dialect.numbersForms && decide (0 ≤ place) then names[place.toNat]? else none
  | _ => none

/-- The members of a record, which may also be given as the list of its values in the order of
`names`. Items may be missing at the end of the list. -/
def fields? (dialect : Dialect) (names : List String) : Datum → Option Fields
  | .list items =>
      if dialect.allowsSurplus || items.length ≤ names.length then some (names.zip items) else none
  | datum => datum.fields?

end Dialect

end Lending
