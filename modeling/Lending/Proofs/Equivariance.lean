import Lending.Proofs.Coherence
import Lending.Proofs.Renaming
import Mathlib.Logic.Equiv.Basic

/-!
# What is reported does not depend on names

The checker follows a renaming as validation and evaluation do: from a renamed state a renamed
statement leads to the renamed state and reports the renamed violations (`State.step_rename`). With
that, all three say of a renamed program what they say of the program, renamed
(`Program.reports_equivariant`).

Violations show the names that bindings and references were declared with, and the checker shows the
empty name for an entity that it does not know. So the state has to be coherent: all that it shows
is then known (`State.bindingName_rename`, `State.holderNames_rename`).
-/

namespace Lending

section Definitions

variable (f : Renaming)

def Violation.rename : Violation → Violation
  | .exclusivity binding requested reference held holders =>
      .exclusivity (f binding) requested (reference.map f) held (holders.map f)
  | .ownerAccess binding access held holders => .ownerAccess (f binding) access held (holders.map f)
  | .immutableAssignment name => .immutableAssignment (f name)
  | .danglingReferent binding references => .danglingReferent (f binding) (references.map f)
  | .unsupportedMode mode => .unsupportedMode mode
  | .malformedProgram error => .malformedProgram (error.rename f)

/-- The diagnostic with the names of its violation renamed, in its place. -/
def Diagnostic.rename (diagnostic : Diagnostic) : Diagnostic :=
  { diagnostic with violation := diagnostic.violation.rename f }

def Binding.rename (binding : Binding) : Binding :=
  { binding with name := f binding.name }

def Reference.rename (reference : Reference) : Reference :=
  { reference with name := f reference.name }

end Definitions

namespace Checker

variable {f : Renaming}

namespace State

def rename (f : Renaming) (state : State) : State :=
  { state with
    scopes := state.scopes.rename f
    bindings := state.bindings.map (Binding.rename f)
    references := state.references.map (Reference.rename f) }

theorem rename_init : rename f {} = {} := by
  simp [rename, Scopes.rename, Scopes.root, Scopes.renameFrame]

/-- What a statement leads to, renamed. -/
def renameChecked (f : Renaming) (checked : Checked) : Checked :=
  (checked.1.rename f, checked.2.map (Violation.rename f))

variable (state : State)

/-! ## Names -/

theorem binding?_rename (name : String) :
    (state.rename f).binding? (f name) = state.binding? name := by
  simp only [binding?, rename, Scopes.lookup_rename]

theorem reference?_rename (name : String) :
    (state.rename f).reference? (f name) = state.reference? name := by
  simp only [reference?, rename, Scopes.lookup_rename]

theorem bindings_rename (id : BindingId) :
    (state.rename f).bindings[id]? = state.bindings[id]?.map (Binding.rename f) :=
  Array.getElem?_map ..

theorem references_rename (id : ReferenceId) :
    (state.rename f).references[id]? = state.references[id]?.map (Reference.rename f) :=
  Array.getElem?_map ..

theorem bindingName_rename {id : BindingId} (known : id < state.bindings.size) :
    (state.rename f).bindingName id = f (state.bindingName id) := by
  simp [bindingName, bindings_rename, Array.getElem?_eq_getElem known, Binding.rename]

theorem referenceName_rename {id : ReferenceId} (known : id < state.references.size) :
    (state.rename f).referenceName id = f (state.referenceName id) := by
  simp [referenceName, references_rename, Array.getElem?_eq_getElem known, Reference.rename]

/-- Whoever holds a binding is known. -/
def HoldersKnown : Prop :=
  ∀ {binding id}, .reference id ∈ (state.loans.state binding).holders → id < state.references.size

variable {state}

/-- A refusal names those who hold the binding. -/
theorem HoldersKnown.of_refusal (holders : state.HoldersKnown) {binding : BindingId}
    {holder : Holder} {kind : BorrowKind} {refusal : Conflict}
    (refused : state.loans.acquire binding holder kind = .error refusal) {id : ReferenceId}
    (held : .reference id ∈ refusal.holders) : id < state.references.size := by
  unfold LoanTable.acquire at refused
  dsimp only at refused
  split at refused
  · exact absurd refused (by simp)
  · rw [← Except.error.inj refused] at held
    exact holders held

theorem holdersKnown_of_records {ledger : Ledger} (records : state.loans.Records ledger)
    (known : ∀ id loan, ledger id = some loan → id < state.references.size) :
    state.HoldersKnown := by
  intro binding id holds
  obtain ⟨kind, entered⟩ := (records.holder_iff id binding).mp holds
  exact known id _ entered

theorem lt_size_of_ledger {id : ReferenceId} {loan : BindingId × BorrowKind}
    (entered : state.ledger id = some loan) : id < state.references.size := by
  obtain ⟨reference, found, -⟩ := Option.bind_eq_some_iff.mp entered
  exact (Array.getElem?_eq_some_iff.mp found).1

theorem lt_size_of_mem_entities {closing : List (Frame Entity)} {destroyed : List Entity}
    (invariant : Invariant state closing destroyed) {id : BindingId}
    (pending : .binding id ∈ entities (closing ++ state.scopes.frames)) :
    id < state.bindings.size := by
  obtain ⟨frame, inside, name, there⟩ := mem_entities.mp pending
  obtain ⟨binding, found, -⟩ := Option.map_eq_some_iff.mp (invariant.binding_named inside there)
  exact (Array.getElem?_eq_some_iff.mp found).1

theorem lt_size_of_binding? (coherent : Coherent state) {name : String} {id : BindingId}
    (found : state.binding? name = some id) : id < state.bindings.size := by
  have tracked := coherent.isSome_find?_of_binding? found
  exact lt_size_of_mem_entities coherent ((coherent.tracked_iff id).mp tracked).1

theorem holdersKnown {closing : List (Frame Entity)} {destroyed : List Entity}
    (invariant : Invariant state closing destroyed) : state.HoldersKnown :=
  holdersKnown_of_records invariant.records fun _ _ => lt_size_of_ledger

theorem holderNames_rename {holders : List Holder}
    (known : ∀ {id}, .reference id ∈ holders → id < state.references.size) :
    (state.rename f).holderNames holders = (state.holderNames holders).map f := by
  simp only [holderNames, List.map_map]
  apply List.map_congr_left
  intro id there
  exact state.referenceName_rename (known (mem_filterMap_reference?.mp there))

/-! ## Accesses -/

theorem ownerAccess_rename (holders : state.HoldersKnown) {id : BindingId}
    (known : id < state.bindings.size) (access : Access) :
    (state.rename f).ownerAccess id access =
      (state.ownerAccess id access).map (Violation.rename f) := by
  have named : (state.rename f).holderNames (state.loans.state id).holders = _ :=
    holderNames_rename holders
  have loans : (state.rename f).loans = state.loans := rfl
  simp only [ownerAccess, loans, bindingName_rename state known, named]
  cases (state.loans.state id).kind? with
  | none => rfl
  | some kind => cases kind <;> cases access <;> rfl

theorem exprReads_rename (coherent : Coherent state) (expr : Expr) (target : Option BindingId) :
    (state.rename f).exprReads (expr.rename f) target =
      (state.exprReads expr target).map (Violation.rename f) := by
  simp only [exprReads, Expr.names_rename, List.flatMap_map, List.map_flatMap]
  apply List.flatMap_congr
  intro mention _
  simp only [NameUse.rename, binding?_rename]
  split
  · rfl
  · cases found : state.binding? mention.name with
    | none => rfl
    | some id =>
        simp only
        split
        · rfl
        · exact ownerAccess_rename (holdersKnown coherent) (lt_size_of_binding? coherent found) _

/-! ## Loans -/

theorem setStatus_rename (state : State) (id : ReferenceId) (status : Status) :
    (state.rename f).setStatus id status = (state.setStatus id status).rename f := by
  simp only [setStatus, rename, mk.injEq, true_and]
  exact modify_map state.references (fun _ => by rfl) id

theorem conflict_rename {id : BindingId} {reference : Option ReferenceId} {refusal : Conflict}
    (binding : id < state.bindings.size) (asker : ∀ id ∈ reference, id < state.references.size)
    (holders : ∀ {id}, .reference id ∈ refusal.holders → id < state.references.size) :
    (state.rename f).conflict id reference refusal =
      (state.conflict id reference refusal).rename f := by
  simp only [conflict, Violation.rename, bindingName_rename state binding,
    holderNames_rename holders]
  cases reference with
  | none => rfl
  | some id => simp only [Option.map_some, referenceName_rename state (asker id rfl)]

theorem acquire_rename (holders : state.HoldersKnown) {id : ReferenceId}
    (target : ∀ reference, state.references[id]? = some reference →
      reference.target < state.bindings.size) :
    (state.rename f).acquire id = renameChecked f (state.acquire id) := by
  have loans : (state.rename f).loans = state.loans := rfl
  cases found : state.references[id]? with
  | none => simp [acquire, references_rename, found, renameChecked]
  | some reference =>
      simp only [acquire, references_rename, found, Option.map_some, loans, Reference.rename]
      cases asked : state.loans.acquire reference.target (.reference id) reference.kind with
      | ok loans =>
          have granted := setStatus_rename (f := f) { state with loans } id .live
          exact congrArg (fun after => (after, [])) granted
      | error refusal =>
          have asker : ∀ other ∈ some id, other < state.references.size := by
            rintro _ ⟨⟩
            exact (Array.getElem?_eq_some_iff.mp found).1
          have named := conflict_rename (f := f) (target reference found) asker
            (holders.of_refusal asked)
          simp only [named, setStatus_rename]
          rfl

theorem endReference_rename (state : State) (id : ReferenceId) :
    (state.rename f).endReference id = (state.endReference id).rename f := by
  simp only [endReference, references_rename]
  cases state.references[id]? with
  | none => rfl
  | some reference =>
      let loans :=
        if reference.status = .live then
          (state.loans.release reference.target (.reference id)).2
        else state.loans
      exact setStatus_rename { state with loans } id .ended

theorem retarget_rename (id : ReferenceId) (reference : Reference) (target : BindingId) :
    (state.rename f).retarget id (reference.rename f) target =
      (state.retarget id reference target).rename f := by
  simp only [retarget, rename, mk.injEq, true_and]
  exact ⟨rfl, modify_map state.references (fun _ => by rfl) id⟩

theorem rebind_rename (coherent : Coherent state) (id : ReferenceId) {target : BindingId}
    (known : target < state.bindings.size) :
    (state.rename f).rebind id target = renameChecked f (state.rebind id target) := by
  cases found : state.references[id]? with
  | none => simp [rebind, references_rename, found, renameChecked]
  | some reference =>
      have found' : (state.rename f).references[id]? = some (reference.rename f) := by
        rw [references_rename, found, Option.map_some]
      cases isMutable : reference.isMutable with
      | false =>
          rw [rebind_of_not_isMutable found isMutable, rebind_of_not_isMutable found' isMutable]
          rfl
      | true =>
          rw [rebind_of_isMutable found isMutable, rebind_of_isMutable found' isMutable,
            retarget_rename]
          have size : (state.retarget id reference target).references.size =
              state.references.size := Array.size_modify
          refine acquire_rename ?_ ?_
          -- In between the reference holds nothing, and all others hold what they held.
          · refine holdersKnown_of_records (records_retarget coherent.records found target) ?_
            rw [update_ledger_retarget, size]
            intro other loan entered
            by_cases same : other = id
            · rw [same, Function.update_self] at entered
              exact absurd entered (by simp)
            · rw [Function.update_of_ne same] at entered
              exact lt_size_of_ledger entered
          · intro moved here
            rw [getElem?_retarget, if_pos rfl, found, Option.map_some] at here
            rw [← Option.some.inj here]
            exact known

theorem temporaryRead_rename (holders : state.HoldersKnown) {id : BindingId}
    (known : id < state.bindings.size) :
    (state.rename f).temporaryRead id = renameChecked f (state.temporaryRead id) := by
  have loans : (state.rename f).loans = state.loans := rfl
  simp only [temporaryRead, loans]
  cases asked : state.loans.acquire id .temporary .shared with
  | ok loans => rfl
  | error refusal =>
      have asker : ∀ other ∈ none, other < state.references.size := by simp
      have named := conflict_rename (f := f) known asker (holders.of_refusal asked)
      simp only [named]
      rfl

/-! ## Declarations and destruction -/

theorem declare_rename (state : State) (name : String) (entity : Entity) :
    (state.rename f).declare (f name) entity = (state.declare name entity).rename f := by
  have declared : ({ state.rename f with
      scopes := (state.rename f).scopes.declare (f name) entity } : State) =
      rename f { state with scopes := state.scopes.declare name entity } := by
    simp only [rename, Scopes.rename_declare]
  simp only [declare, declared]
  rw [show (state.rename f).scopes = state.scopes.rename f from rfl, Scopes.lookupInner_rename]
  split
  · exact endReference_rename _ _
  · rfl

theorem declareBinding_rename (name : String) (isMutable : Bool) :
    (state.rename f).declareBinding (f name) isMutable =
      (state.declareBinding name isMutable).rename f := by
  unfold declareBinding
  dsimp only
  rw [← declare_rename]
  simp only [rename, Array.size_map, Array.map_push]
  rfl

theorem addReference_rename (name : String) (kind : BorrowKind) (isMutable : Bool)
    (target : BindingId) :
    (state.rename f).addReference (f name) kind isMutable target =
      (state.addReference name kind isMutable target).rename f := by
  simp only [addReference, rename, Array.map_push]
  rfl

theorem declareReference_rename (coherent : Coherent state) (name : String) (kind : BorrowKind)
    (isMutable : Bool) {target : BindingId} (known : target < state.bindings.size) :
    (state.rename f).declareReference (f name) kind isMutable target =
      renameChecked f (state.declareReference name kind isMutable target) := by
  have size : (state.rename f).references.size = state.references.size := Array.size_map
  -- The reference is known before it asks, so there is one more to know and nobody new holds.
  have holders : (state.addReference name kind isMutable target).HoldersKnown := by
    intro binding id holds
    have before : id < state.references.size := holdersKnown coherent holds
    show id < (state.references.push _).size
    rw [Array.size_push]
    omega
  rw [declareReference_eq, declareReference_eq, size, addReference_rename,
    acquire_rename holders]
  · exact congrArg (fun after => (after, _)) (declare_rename _ name _)
  · intro reference found
    rw [getElem?_addReference, if_pos rfl] at found
    rw [← Option.some.inj found]
    exact known

theorem foldl_setStatus_rename (status : Status) (holders : List ReferenceId) :
    holders.foldl (fun state holder => state.setStatus holder status) (state.rename f) =
      (holders.foldl (fun state holder => state.setStatus holder status) state).rename f := by
  induction holders generalizing state with
  | nil => rfl
  | cons holder rest ih => rw [List.foldl_cons, List.foldl_cons, setStatus_rename, ih]

theorem destroy_rename {closing : List (Frame Entity)} {destroyed : List Entity}
    (invariant : Invariant state closing destroyed) {entity : Entity}
    (pending : entity ∈ entities closing) :
    (state.rename f).destroy entity = renameChecked f (state.destroy entity) := by
  cases entity with
  | reference id => exact congrArg (fun after => (after, [])) (endReference_rename state id)
  | binding id =>
      have known : id < state.bindings.size := by
        refine lt_size_of_mem_entities invariant ?_
        rw [entities, List.flatMap_append]
        exact List.mem_append_left _ pending
      have names : (state.loans.liveReferences id).map (state.rename f).referenceName =
          ((state.loans.liveReferences id).map state.referenceName).map f :=
        holderNames_rename (holdersKnown invariant)
      have loans : (state.rename f).loans = state.loans := rfl
      simp only [destroy, renameChecked, loans, foldl_setStatus_rename,
        bindingName_rename state known, names]
      refine congrArg₂ Prod.mk rfl ?_
      split <;> rfl

theorem destroyAll_rename {closing : List (Frame Entity)} {destroyed : List Entity}
    (invariant : Invariant state closing destroyed) (gone : List Entity)
    (pending : ∀ entity ∈ gone, entity ∈ entities closing) :
    (state.rename f).destroyAll gone = renameChecked f (state.destroyAll gone) := by
  induction gone generalizing state destroyed with
  | nil => rfl
  | cons entity rest ih =>
      have first := pending entity List.mem_cons_self
      have later := ih (invariant.destroy first)
        fun other there => pending other (List.mem_cons_of_mem _ there)
      simp only [destroyAll, destroy_rename invariant first, renameChecked, List.map_append]
      rw [later]
      rfl

/-! ## Statements -/

/-- Closing frames destroys the same entities in the same order. -/
theorem close_rename (coherent : Coherent state) {inner outer : List (Frame Entity)}
    (stack : state.scopes.frames = inner ++ outer) :
    ({ state.rename f with scopes := Scopes.rename f { frames := outer } } : State).destroyAll
        (entities inner) =
      renameChecked f (destroyAll { state with scopes := { frames := outer } } (entities inner)) :=
  destroyAll_rename (coherent.close stack) (entities inner) fun _ there => there

/-- **The checker follows a renaming**, statement by statement. -/
theorem step_rename (coherent : Coherent state) (action : Action) :
    (state.rename f).step (action.rename f) = renameChecked f (state.step action) := by
  cases action with
  | declareBinding name isMutable tag init =>
      simp only [Action.rename, step, declareBinding_rename]
      cases init with
      | none => rfl
      | some expr =>
          exact congrArg (fun violations => (_, violations)) (exprReads_rename coherent expr none)
  | declareReference name kind isMutable target =>
      simp only [Action.rename, step, binding?_rename]
      cases found : state.binding? target with
      | none => rfl
      | some id =>
          exact declareReference_rename coherent name kind isMutable
            (lt_size_of_binding? coherent found)
  | rebindReference name target =>
      simp only [Action.rename, step, binding?_rename, reference?_rename]
      cases state.reference? name with
      | none => rfl
      | some reference =>
          cases found : state.binding? target with
          | none => rfl
          | some binding =>
              exact rebind_rename coherent reference (lt_size_of_binding? coherent found)
  | assignBinding name value =>
      simp only [Action.rename, step, binding?_rename]
      cases found : state.binding? name with
      | none => rfl
      | some id =>
          have known := lt_size_of_binding? coherent found
          simp only [exprReads_rename coherent, ownerAccess_rename (holdersKnown coherent) known,
            bindings_rename, Option.map_map, renameChecked, List.map_append]
          refine congrArg (Prod.mk _) (congrArg (List.append _) ?_)
          show (if (state.bindings[id]?.map (·.isMutable)).getD true then _ else _) = _
          split <;> rfl
  | assignThrough reference value =>
      exact congrArg (fun violations => (_, violations)) (exprReads_rename coherent value none)
  | readBinding name =>
      simp only [Action.rename, step, binding?_rename]
      cases found : state.binding? name with
      | none => rfl
      | some id =>
          exact congrArg (fun violations => (_, violations))
            (ownerAccess_rename (holdersKnown coherent) (lt_size_of_binding? coherent found) _)
  | readThrough path =>
      cases path with
      | deref name => rfl
      | borrow name =>
          simp only [Action.rename, AccessPath.rename, step, binding?_rename]
          cases found : state.binding? name with
          | none => rfl
          | some id =>
              exact temporaryRead_rename (holdersKnown coherent)
                (lt_size_of_binding? coherent found)
  | enterScope => rfl
  | exitScope =>
      have scopes : (state.rename f).scopes = state.scopes.rename f := rfl
      simp only [Action.rename, step, scopes, Scopes.exit?_rename]
      cases found : state.scopes.exit? with
      | none => rfl
      | some closed =>
          obtain ⟨frame, next, outer, stack, rfl⟩ := Scopes.frames_of_exit? found
          have both := close_rename (f := f) coherent
            (show state.scopes.frames = [frame] ++ next :: outer from stack)
          rw [entities, List.flatMap_singleton] at both
          exact both

theorem finish_rename (coherent : Coherent state) :
    (state.rename f).finish = renameChecked f state.finish := by
  have scopes : (state.rename f).scopes = state.scopes.rename f := rfl
  simp only [finish, scopes, Scopes.finish_rename]
  exact close_rename coherent (List.append_nil _).symm

end State

/-- **Walks follow a renaming.** -/
theorem diagnosticsFrom_rename {state : State} (coherent : Coherent state) (index : Nat)
    (statements : List Statement) :
    diagnosticsFrom (state.rename f) index (statements.map (Statement.rename f)) =
      (diagnosticsFrom state index statements).map (Diagnostic.rename f) := by
  induction statements generalizing state index with
  | nil =>
      simp only [List.map_nil, diagnosticsFrom, State.finish_rename coherent, State.renameChecked,
        List.map_map]
      rfl
  | cons statement rest ih =>
      have taken : (state.rename f).step (statement.rename f).action = _ :=
        State.step_rename coherent statement.action
      simp only [List.map_cons, diagnosticsFrom, taken, State.renameChecked, List.map_append,
        List.map_map, ih (coherent.step statement.action)]
      rfl

end Checker

/-- **Names do not matter.** A renamed program has the same errors up to suggestions, the same
diagnostics if it is valid, and the same run, all with the names of the identifiers renamed and with
the same positions, indexes and values. -/
theorem Program.reports_equivariant (f : Renaming) (program : Program) :
    (program.rename f).errors.map ProgramError.bare =
      program.errors.map (fun error => (error.rename f).bare) ∧
    (program.errors = [] → ∀ mode, (program.rename f).analyze mode =
      (program.analyze mode).map (Diagnostic.rename f)) ∧
    (program.rename f).run = renameOutcome f program.actions program.run := by
  have errors : (program.rename f).errors.map ProgramError.bare =
      program.errors.map fun error => (error.rename f).bare := by
    rw [Program.errors, Program.actions_rename]
    exact Validation.errorsFrom_rename .root 0 program.actions
  refine ⟨errors, ?_, ?_⟩
  · intro valid mode
    cases mode with
    | nonLexical => rfl
    | lexical =>
        rw [valid, List.map_nil, List.map_eq_nil_iff] at errors
        rw [analyze_of_valid errors, analyze_of_valid valid]
        have walk := Checker.diagnosticsFrom_rename (f := f) Checker.coherent_init 0
          program.statements
        rw [Checker.State.rename_init] at walk
        exact walk
  · have start : Evaluation.machineAfter {} [] = .ok {} := rfl
    have run := Evaluation.runFrom_rename (f := f) start program.actions
    rw [Evaluation.Machine.rename_init, ← Program.actions_rename] at run
    exact run

/-- Exchanges two names that are not blank. -/
def Renaming.exchange (left right : String)
    (visible : Text.isBlank left = false ∧ Text.isBlank right = false) : Renaming where
  apply := Equiv.swap left right
  injective := (Equiv.swap left right).injective
  isBlank_apply := by
    intro name
    rw [Equiv.swap_apply_def]
    split
    · rename_i same
      rw [same, visible.1, visible.2]
    · split
      · rename_i same
        rw [same, visible.1, visible.2]
      · rfl

/-- `let mut *r = 0; let r = &mut *r; read *r; read *r; let q = &*r;` where the binding is called
`*r` and only the second read goes through `r`. -/
def starred : Program where
  statements := [
    { action := .declareBinding "*r" true "i64" (some (.int default)) },
    { action := .declareReference "r" .exclusive false "*r" },
    { action := .readBinding "*r" },
    { action := .readThrough (.deref "r") },
    { action := .declareReference "q" .shared false "*r" }]

/-- Both reads show `*r`, but once as the binding and once as the reference behind a star. -/
theorem Program.reports_equivariant_starred :
    let f := Renaming.exchange "r" "*r" (by decide)
    starred.errors = [] ∧
    (starred.rename f).analyze .lexical = (starred.analyze .lexical).map (Diagnostic.rename f) ∧
    (starred.rename f).run = renameOutcome f starred.actions starred.run ∧
    starred.run.toOption.map (fun trace => trace.map (·.name)) = some ["*r", "*r"] ∧
    (starred.rename f).run.toOption.map (fun trace => trace.map (·.name)) = some ["r", "**r"] := by
  intro f
  have valid : starred.errors = [] := by decide
  obtain ⟨-, diagnostics, run⟩ := Program.reports_equivariant f starred
  exact ⟨valid, diagnostics valid .lexical, run, by decide, by decide⟩

end Lending
