import Lending.Diagnostic.Basic
import Lending.Loans

/-!
# The checker

Walks the statements of a valid program from front to back and keeps track of who holds what. A
reference holds its target from its declaration, or from its last rebind, until its scope is left
or its name is declared again in the same scope. Every violation is reported, and the walk goes on.

Entities are numbered in the order of their declaration, so two declarations of one name are two
entities.
-/

namespace Lending

/-- A binding as the checker sees it. -/
structure Binding where
  name : String
  isMutable : Bool
deriving DecidableEq, Repr, Inhabited

/-- What has become of a reference. -/
inductive Status where
  /-- It holds a loan of its target. -/
  | live
  /-- Its last request was refused. -/
  | rejected
  /-- Its target was destroyed while it held it. -/
  | dangling
  /-- It was destroyed or shadowed. -/
  | ended
deriving DecidableEq, Repr, Inhabited

/-- A reference as the checker sees it. -/
structure Reference where
  name : String
  kind : BorrowKind
  isMutable : Bool
  target : BindingId
  status : Status
deriving DecidableEq, Repr, Inhabited

/-- What a name stands for. -/
inductive Entity where
  | binding (id : BindingId)
  | reference (id : ReferenceId)
deriving DecidableEq, Repr, Inhabited

namespace Checker

/-- What is known between two statements. -/
structure State where
  scopes : Scopes Entity := .root
  loans : LoanTable := {}
  bindings : Array Binding := #[]
  references : Array Reference := #[]
deriving DecidableEq, Repr, Inhabited

/-- A state together with the violations found on the way to it. -/
abbrev Checked := State × List Violation

namespace State

/-! ## Names -/

/-- The binding that a name stands for. -/
def binding? (state : State) (name : String) : Option BindingId :=
  match state.scopes.lookup name with
  | some (.binding id) => some id
  | _ => none

/-- The reference that a name stands for. -/
def reference? (state : State) (name : String) : Option ReferenceId :=
  match state.scopes.lookup name with
  | some (.reference id) => some id
  | _ => none

/-- The name that a binding was declared with. -/
def bindingName (state : State) (id : BindingId) : String :=
  (state.bindings[id]?.map (·.name)).getD ""

/-- The name that a reference was declared with. -/
def referenceName (state : State) (id : ReferenceId) : String :=
  (state.references[id]?.map (·.name)).getD ""

/-- The names of the references among the holders. -/
def holderNames (state : State) (holders : List Holder) : List String :=
  (holders.filterMap Holder.reference?).map state.referenceName

/-! ## Accesses by the owner -/

/-- The violations of an access to a binding by its owner. Shared loans leave reads open. -/
def ownerAccess (state : State) (id : BindingId) (access : Access) : List Violation :=
  let loans := state.loans.state id
  match loans.kind?, access with
  | none, _ => []
  | some .shared, .read => []
  | some held, _ =>
      [.ownerAccess (state.bindingName id) access held (state.holderNames loans.holders)]

/-- The violations of the reads in an expression. Reads of `target`, which the statement is about
to assign, are left to the check of that assignment. Reads through references are always open. -/
def exprReads (state : State) (expr : Expr) (target : Option BindingId) : List Violation :=
  expr.names.flatMap fun mention =>
    if mention.isDeref then []
    else match state.binding? mention.name with
      | some id => if some id = target then [] else state.ownerAccess id .read
      | none => []

/-! ## Loans -/

/-- The violation of a refused loan. -/
def conflict (state : State) (id : BindingId) (reference : Option ReferenceId)
    (conflict : Conflict) : Violation :=
  .exclusivity (state.bindingName id) conflict.requested (reference.map state.referenceName)
    conflict.held (state.holderNames conflict.holders)

/-- Sets what has become of a reference. -/
def setStatus (state : State) (id : ReferenceId) (status : Status) : State :=
  { state with
    references := state.references.modify id fun reference => { reference with status } }

/-- Asks for the loan that a reference needs of its target. -/
def acquire (state : State) (id : ReferenceId) : Checked :=
  match state.references[id]? with
  | none => (state, [])
  | some reference =>
      match state.loans.acquire reference.target (.reference id) reference.kind with
      | .ok loans => ({ state with loans }.setStatus id .live, [])
      | .error refusal =>
          (state.setStatus id .rejected, [state.conflict reference.target (some id) refusal])

/-- Ends a reference, which gives back what it holds. -/
def endReference (state : State) (id : ReferenceId) : State :=
  match state.references[id]? with
  | none => state
  | some reference =>
      let loans :=
        if reference.status = .live then
          (state.loans.release reference.target (.reference id)).2
        else state.loans
      { state with loans }.setStatus id .ended

/-- Points a reference at another binding: the old loan is given back before the new one is asked
for. A reference that is not mutable keeps its target. -/
def rebind (state : State) (id : ReferenceId) (target : BindingId) : Checked :=
  match state.references[id]? with
  | none => (state, [])
  | some reference =>
      if reference.isMutable then
        let loans :=
          if reference.status = .live then
            (state.loans.release reference.target (.reference id)).2
          else state.loans
        let references := state.references.modify id fun reference => { reference with target }
        acquire { state with loans, references } id
      else (state, [.immutableAssignment reference.name])

/-- Reads a binding through a loan that is given back at once. -/
def temporaryRead (state : State) (id : BindingId) : Checked :=
  match state.loans.acquire id .temporary .shared with
  | .ok loans => ({ state with loans := (loans.release id .temporary).2 }, [])
  | .error refusal => (state, [state.conflict id none refusal])

/-! ## Declarations and destruction -/

/-- Declares a name in the innermost scope. A reference of the same name there ends. -/
def declare (state : State) (name : String) (entity : Entity) : State :=
  let shadowed := state.scopes.lookupInner name
  let state := { state with scopes := state.scopes.declare name entity }
  match shadowed with
  | some (.reference id) => state.endReference id
  | _ => state

/-- Declares a binding. -/
def declareBinding (state : State) (name : String) (isMutable : Bool) : State :=
  let id := state.bindings.size
  { state with
    bindings := state.bindings.push { name, isMutable }
    loans := state.loans.register id }.declare name (.binding id)

/-- Declares a reference, which asks for its loan before its name is visible. -/
def declareReference (state : State) (name : String) (kind : BorrowKind) (isMutable : Bool)
    (target : BindingId) : Checked :=
  let id := state.references.size
  let added := { state with
    references := state.references.push { name, kind, isMutable, target, status := .live } }
  let (acquired, violations) := added.acquire id
  (acquired.declare name (.reference id), violations)

/-- Destroys an entity. References that still hold a binding when it is destroyed dangle. -/
def destroy (state : State) (entity : Entity) : Checked :=
  match entity with
  | .reference id => (state.endReference id, [])
  | .binding id =>
      let holders := state.loans.liveReferences id
      let left := holders.foldl (fun state holder => state.setStatus holder .dangling) state
      ({ left with loans := left.loans.remove id },
        if holders.isEmpty then []
        else [.danglingReferent (state.bindingName id) (holders.map state.referenceName)])

/-- Destroys entities one after the other. -/
def destroyAll (state : State) : List Entity → Checked
  | [] => (state, [])
  | entity :: rest =>
      let (after, violations) := state.destroy entity
      let (final, more) := after.destroyAll rest
      (final, violations ++ more)

/-! ## Statements -/

/-- Takes one statement. -/
def step (state : State) : Action → Checked
  | .declareBinding name isMutable _ init =>
      let violations := match init with
        | some expr => state.exprReads expr none
        | none => []
      (state.declareBinding name isMutable, violations)
  | .declareReference name kind isMutable target =>
      match state.binding? target with
      | some id => state.declareReference name kind isMutable id
      | none => (state, [])
  | .rebindReference name target =>
      match state.reference? name, state.binding? target with
      | some reference, some binding => state.rebind reference binding
      | _, _ => (state, [])
  | .assignBinding name value =>
      match state.binding? name with
      | some id =>
          let isMutable := (state.bindings[id]?.map (·.isMutable)).getD true
          (state, state.exprReads value (some id) ++ state.ownerAccess id .write ++
            if isMutable then [] else [.immutableAssignment name])
      | none => (state, [])
  | .assignThrough _ value => (state, state.exprReads value none)
  | .readBinding name =>
      match state.binding? name with
      | some id => (state, state.ownerAccess id .read)
      | none => (state, [])
  | .readThrough (.deref _) => (state, [])
  | .readThrough (.borrow name) =>
      match state.binding? name with
      | some id => state.temporaryRead id
      | none => (state, [])
  | .enterScope => ({ state with scopes := state.scopes.enter }, [])
  | .exitScope =>
      match state.scopes.exit? with
      | some (entities, scopes) => { state with scopes }.destroyAll entities
      | none => (state, [])

/-- Closes all scopes that are still open. -/
def finish (state : State) : Checked :=
  let (entities, scopes) := state.scopes.finish
  { state with scopes }.destroyAll entities

end State

/-- The state after the given statements. -/
def stateAfter (state : State) (actions : List Action) : State :=
  actions.foldl (fun state action => (state.step action).1) state

/-- The diagnostics of the statements from `index` on, and of the end of the program. -/
def diagnosticsFrom (state : State) (index : Nat) : List Statement → List Diagnostic
  | [] =>
      state.finish.2.map fun violation =>
        { violation, position := some (.atEnd index) }
  | statement :: rest =>
      let (after, violations) := state.step statement.action
      violations.map (fun violation =>
          { violation, position := some (.statement index statement.span) }) ++
        diagnosticsFrom after (index + 1) rest

/-- The diagnostics of a program that is known to be valid. -/
def walk (program : Program) : List Diagnostic :=
  diagnosticsFrom {} 0 program.statements

end Checker

/-- The diagnostics of a program, in the order of its statements. A mode that is not implemented is
refused at once, and a program that is not valid is not walked. -/
def Program.analyze (program : Program) (mode : Mode) : List Diagnostic :=
  match mode with
  | .nonLexical => [{ violation := .unsupportedMode mode, position := none }]
  | .lexical =>
      match program.errors with
      | [] => Checker.walk program
      | errors => errors.map fun error =>
          { violation := .malformedProgram error, position := some (program.position error.index) }

end Lending
