import Lending.Program.Basic

/-!
# Loans

Which references hold which bindings. A binding is free, or lent out shared to one or more
holders, or lent out exclusively to one. Holders are listed in the order in which they came.
-/

namespace Lending

/-- The number of a binding within one analysis. -/
abbrev BindingId := Nat

/-- The number of a reference within one analysis. -/
abbrev ReferenceId := Nat

/-- Who holds a loan. -/
inductive Holder where
  | reference (id : ReferenceId)
  /-- A read that borrows for the length of one statement. -/
  | temporary
deriving DecidableEq, Repr, Inhabited

/-- The reference that holds a loan. -/
def Holder.reference? : Holder → Option ReferenceId
  | .reference id => some id
  | .temporary => none

/-- The loans of one binding. -/
inductive LoanState where
  | free
  | sharedBy (holders : List Holder)
  | exclusiveBy (holder : Holder)
deriving DecidableEq, Repr, Inhabited

namespace LoanState

/-- The kind of the loans, none when the binding is free. -/
def kind? : LoanState → Option BorrowKind
  | .free => none
  | .sharedBy _ => some .shared
  | .exclusiveBy _ => some .exclusive

/-- The holders in the order in which they came. -/
def holders : LoanState → List Holder
  | .free => []
  | .sharedBy holders => holders
  | .exclusiveBy holder => [holder]

/-- Whether there is no loan. -/
def isFree : LoanState → Bool
  | .free => true
  | _ => false

/-- The references among the holders. -/
def references (state : LoanState) : List ReferenceId :=
  state.holders.filterMap Holder.reference?

/-- A shared loan to one more holder, refused while an exclusive loan is out. Who holds a shared
loan already keeps its place. -/
def lendShared (state : LoanState) (holder : Holder) : Option LoanState :=
  match state with
  | .free => some (.sharedBy [holder])
  | .sharedBy holders =>
      some (.sharedBy (if holder ∈ holders then holders else holders ++ [holder]))
  | .exclusiveBy _ => none

/-- An exclusive loan, refused while any loan is out, also one to the same holder. -/
def lendExclusive (state : LoanState) (holder : Holder) : Option LoanState :=
  match state with
  | .free => some (.exclusiveBy holder)
  | _ => none

/-- A loan of the given kind. -/
def lend (state : LoanState) (holder : Holder) : BorrowKind → Option LoanState
  | .shared => state.lendShared holder
  | .exclusive => state.lendExclusive holder

/-- The state once `holder` gives back what it holds. -/
def giveBack (state : LoanState) (holder : Holder) : LoanState :=
  match state with
  | .free => .free
  | .sharedBy holders =>
      match holders.filter fun held => held != holder with
      | [] => .free
      | left => .sharedBy left
  | .exclusiveBy held => if held = holder then .free else state

end LoanState

/-- Why a loan was refused: what was asked for, and what is out. -/
structure Conflict where
  requested : BorrowKind
  held : BorrowKind
  holders : List Holder
deriving DecidableEq, Repr, Inhabited

/-- The conflict of a request with the loans that are out. -/
def Conflict.against (requested : BorrowKind) (state : LoanState) : Conflict where
  requested
  held := state.kind?.getD .shared
  holders := state.holders

/-- The loans of all bindings that are tracked. -/
structure LoanTable where
  entries : List (BindingId × LoanState) := []
deriving DecidableEq, Repr, Inhabited

namespace LoanTable

/-- The entries with the one of `binding` set to `state`, in its place or behind all others. -/
def putEntry (binding : BindingId) (state : LoanState) :
    List (BindingId × LoanState) → List (BindingId × LoanState)
  | [] => [(binding, state)]
  | (other, kept) :: rest =>
      if other = binding then (binding, state) :: rest
      else (other, kept) :: putEntry binding state rest

/-- The entry of a tracked binding. -/
def find? (table : LoanTable) (binding : BindingId) : Option LoanState :=
  table.entries.lookup binding

/-- The loans of a binding; one that is not tracked is free. -/
def state (table : LoanTable) (binding : BindingId) : LoanState :=
  (table.find? binding).getD .free

/-- Sets the loans of a binding. -/
def put (table : LoanTable) (binding : BindingId) (state : LoanState) : LoanTable :=
  { entries := putEntry binding state table.entries }

/-- Starts to track a binding, without any loan. -/
def register (table : LoanTable) (binding : BindingId) : LoanTable :=
  table.put binding .free

/-- Stops tracking a binding. -/
def remove (table : LoanTable) (binding : BindingId) : LoanTable :=
  { entries := table.entries.filter fun entry => entry.1 != binding }

/-- Lends a binding. A refusal leaves the table as it was. -/
def acquire (table : LoanTable) (binding : BindingId) (holder : Holder) (kind : BorrowKind) :
    Except Conflict LoanTable :=
  let state := table.state binding
  match state.lend holder kind with
  | some lent => .ok (table.put binding lent)
  | none => .error (.against kind state)

/-- Gives back what `holder` holds of a binding, and says whether it held anything. -/
def release (table : LoanTable) (binding : BindingId) (holder : Holder) : Bool × LoanTable :=
  match table.find? binding with
  | none => (false, table)
  | some state => (decide (holder ∈ state.holders), table.put binding (state.giveBack holder))

/-- The references that hold a binding. -/
def liveReferences (table : LoanTable) (binding : BindingId) : List ReferenceId :=
  (table.state binding).references

end LoanTable

end Lending
