import Lending.Proofs.Footprint
import Lending.Proofs.Simulation

/-!
# Isolation of what is lent out

Neither validation nor the checker looks at values, but together they keep the value of a binding
that is lent out from everything except its holders:

* **routes** — a slot is reached by the name of its binding, or through a reference. A statement
  that passes without a report does not read what is lent out exclusively under its own name, nor
  write what is lent out at all, and what it reaches through a reference is lent to that reference
  (`Permitted`);
* **writes** — so the value of a binding that is lent out shared does not change, and that of one
  lent out exclusively changes only through its holder (`lent_values_protected`);
* **reads** — and a statement that does not follow the holder of an exclusive loan does the same
  whatever the value is (`exclusive_values_unseen`).
-/

namespace Lending

open Checker Evaluation

/-! ## Accesses without a report -/

namespace Checker

variable {state : State} {id : BindingId}

theorem State.ownerAccess_eq_nil_iff {access : Access} :
    state.ownerAccess id access = [] ↔
      (state.loans.state id).kind? = none ∨
        (state.loans.state id).kind? = some .shared ∧ access = .read := by
  cases lent : (state.loans.state id).kind? with
  | none => simp [State.ownerAccess, lent]
  | some kind => cases kind <;> cases access <;> simp [State.ownerAccess, lent]

/-- The reads of an expression that are checked. -/
theorem State.ownerAccess_of_exprReads {expr : Expr} {target : Option BindingId}
    (silent : state.exprReads expr target = []) {mention : NameUse} (read : mention ∈ expr.names)
    (direct : mention.isDeref = false) (found : state.binding? mention.name = some id)
    (different : some id ≠ target) : state.ownerAccess id .read = [] := by
  have checked := List.flatMap_eq_nil_iff.mp silent mention read
  simp only [direct, Bool.false_eq_true, if_false, found, if_neg different] at checked
  exact checked

/-- A read that borrows for itself is refused while an exclusive loan is out. -/
theorem State.not_exclusive_of_temporaryRead (silent : (state.temporaryRead id).2 = []) :
    (state.loans.state id).kind? ≠ some .exclusive := by
  intro exclusive
  obtain ⟨holder, lent⟩ := LoanState.exists_holder_of_kind? exclusive
  have refused : state.loans.acquire id .temporary .shared =
      .error (.against .shared (.exclusiveBy holder)) := by
    simp only [LoanTable.acquire, lent, LoanState.lend, LoanState.lendShared]
  simp only [State.temporaryRead, refused] at silent
  exact absurd silent (by simp)

end Checker

/-! ## Statements that pass -/

/-- A statement to which neither validation nor the checker object, before which nothing was
reported, and the states in which they and the machine meet it. -/
structure Permitted (names : Validation.Names) (state : State) (machine : Machine)
    (action : Action) : Prop where
  coherent : Coherent state
  agrees : Agrees [] state machine
  names_eq : names = state.scopes.map state.declaredAs
  accepted : (Validation.step names action).2 = []
  silent : (state.step action).2 = []

variable {names : Validation.Names} {state : State} {machine : Machine} {action : Action}

theorem Program.permitted {program : Program} {index : Nat} (valid : program.errors = [])
    (clean : program.CleanThrough index) (here : program.actions[index]? = some action)
    (reached : machineAfter {} (program.actions.take index) = .ok machine) :
    Permitted (Validation.namesAfter .root (program.actions.take index))
      (stateAfter {} (program.actions.take index)) machine action := by
  have through := program.errorsFrom_take valid (index + 1)
  have none := clean.violations_eq_nil valid
  rw [take_succ_of_getElem? here] at through none
  rw [violationsAfter_snoc, List.append_eq_nil_iff] at none
  obtain ⟨before, accepted⟩ := Validation.defects_eq_nil through
  have agrees := agrees_run reached
  rw [none.1] at agrees
  exact ⟨coherent_stateAfter _, agrees, Validation.scopes_eq_map before, accepted, none.2⟩

/-- An assignment to a binding finds it free. -/
theorem Permitted.free_of_assignBinding {name : String} {value : Expr}
    (permitted : Permitted names state machine (.assignBinding name value)) :
    ∃ id, state.binding? name = some id ∧ (state.loans.state id).kind? = none := by
  obtain ⟨id, found⟩ := Validation.exists_binding?_of_use permitted.names_eq
    (List.append_eq_nil_iff.mp permitted.accepted).2
  have silent := permitted.silent
  simp only [State.step, found, List.append_eq_nil_iff] at silent
  rcases State.ownerAccess_eq_nil_iff.mp silent.1.2 with free | ⟨-, impossible⟩
  · exact ⟨id, found, free⟩
  · exact absurd impossible (by simp)

/-- What is read under its own name is not lent out exclusively. -/
theorem Permitted.not_exclusive_of_read (permitted : Permitted names state machine action)
    {mention : NameUse} (read : mention ∈ action.reads) (direct : mention.isDeref = false)
    {id : BindingId} (found : state.binding? mention.name = some id) :
    (state.loans.state id).kind? ≠ some .exclusive := by
  have silent := permitted.silent
  have shared : state.ownerAccess id .read = [] →
      (state.loans.state id).kind? ≠ some .exclusive := by
    intro none
    rcases State.ownerAccess_eq_nil_iff.mp none with free | ⟨shared, -⟩
    · simp [free]
    · simp [shared]
  cases action with
  | declareBinding name isMutable tag init =>
      cases init with
      | none => exact absurd read (by simp [Action.reads])
      | some expr =>
          exact shared (State.ownerAccess_of_exprReads silent read direct found (by simp))
  | assignBinding name value =>
      obtain ⟨target, assigned, free⟩ := permitted.free_of_assignBinding
      simp only [State.step, assigned, List.append_eq_nil_iff] at silent
      by_cases same : id = target
      · -- The read of the target itself is not checked, but the write of it is.
        rw [same, free]
        simp
      · exact shared (State.ownerAccess_of_exprReads silent.1.1 read direct found
          (by simpa using same))
  | assignThrough reference value =>
      exact shared (State.ownerAccess_of_exprReads silent read direct found (by simp))
  | readBinding name =>
      rw [List.mem_singleton.mp read] at found
      simp only [State.step, found] at silent
      exact shared silent
  | readThrough path =>
      cases path with
      | deref name =>
          rw [List.mem_singleton.mp read] at direct
          exact absurd direct (by simp)
      | borrow name =>
          rw [List.mem_singleton.mp read] at found
          simp only [State.step, found] at silent
          exact State.not_exclusive_of_temporaryRead silent
  | declareReference | rebindReference | enterScope | exitScope =>
      exact absurd read (by simp [Action.reads])

/-- What is reached through a reference is lent to it. -/
theorem Permitted.ledger_of_derefSlot (permitted : Permitted names state machine action)
    {name : String} {slot : Nat} (led : machine.derefSlot name = .ok slot) :
    ∃ id kind, state.reference? name = some id ∧ state.ledger id = some (slot, kind) := by
  obtain ⟨id, meaning, points, -⟩ := Machine.derefSlot_eq_ok_iff.mp led
  have found :=
    permitted.agrees.referenceId_eq_ok_iff.mp (Machine.referenceId_eq_ok_iff.mpr meaning)
  rcases permitted.agrees.blamed_or_ledger permitted.coherent found with
    ⟨violation, impossible, -⟩ | ⟨target, kind, points', entry⟩
  · exact absurd impossible (by simp)
  · obtain rfl : slot = target := Option.some.inj (points.symm.trans points')
    exact ⟨id, kind, found, entry⟩

/-- An exclusive loan has one holder. -/
theorem Permitted.holder_eq (permitted : Permitted names state machine action)
    {binding : BindingId} {id other : ReferenceId} {kind : BorrowKind}
    (lent : state.loans.state binding = .exclusiveBy (.reference id))
    (entry : state.ledger other = some (binding, kind)) : other = id := by
  have held := (permitted.coherent.records.holder_iff other binding).mpr ⟨kind, entry⟩
  rw [lent, LoanState.holders, List.mem_singleton] at held
  exact Holder.reference.inj held

/-- A reference that is assigned through holds an exclusive loan. -/
theorem Permitted.exclusive_of_assignThrough {name : String} {value : Expr}
    (permitted : Permitted names state machine (.assignThrough name value)) {id : ReferenceId}
    (found : state.reference? name = some id) {binding : BindingId} {kind : BorrowKind}
    (entry : state.ledger id = some (binding, kind)) : kind = .exclusive := by
  obtain ⟨reference, known, -, -, rfl⟩ := State.ledger_eq_some_iff.mp entry
  exact Validation.kind_of_useToWrite permitted.names_eq
    (List.append_eq_nil_iff.mp permitted.accepted).2 found known

/-! ## Writes -/

/-- What a statement writes is free, or lent out exclusively to the reference that it writes
through. -/
theorem Permitted.of_write (permitted : Permitted names state machine action) {mention : NameUse}
    (written : mention ∈ action.writes) {binding : BindingId}
    (led : machine.reach mention = .ok binding) :
    (state.loans.state binding).kind? = none ∨
      ∃ name value id, action = .assignThrough name value ∧ state.reference? name = some id ∧
        state.ledger id = some (binding, .exclusive) := by
  cases action with
  | assignBinding name value =>
      rw [List.mem_singleton.mp written] at led
      obtain ⟨id, found, free⟩ := permitted.free_of_assignBinding
      have found' := permitted.agrees.bindingSlot_eq_ok_iff.mp led
      obtain rfl : id = binding := Option.some.inj (found.symm.trans found')
      exact .inl free
  | assignThrough name value =>
      rw [List.mem_singleton.mp written] at led
      obtain ⟨id, kind, found, entry⟩ := permitted.ledger_of_derefSlot led
      obtain rfl := permitted.exclusive_of_assignThrough found entry
      exact .inr ⟨name, value, id, rfl, found, entry⟩
  | declareBinding | declareReference | rebindReference | readBinding | readThrough | enterScope
  | exitScope => exact absurd written (by simp [Action.writes])

/-- A statement that changes the value of a binding that is lent out assigns it through a reference
that holds it exclusively. -/
theorem Permitted.assignThrough_of_valueAt_ne (permitted : Permitted names state machine action)
    {after : Machine} {reading : Option Reading}
    (stepped : machine.step action = .ok (after, reading)) {binding : BindingId} {kind : BorrowKind}
    (lent : (state.loans.state binding).kind? = some kind)
    (changed : after.valueAt binding ≠ machine.valueAt binding) :
    ∃ name value id, action = .assignThrough name value ∧ state.reference? name = some id ∧
      state.ledger id = some (binding, .exclusive) := by
  by_contra other
  have bound := Machine.lt_size_of_isAlive (permitted.agrees.isAlive_of_kind? lent)
  refine changed (Machine.valueAt_of_step stepped bound (fun mention written led => ?_))
  rcases permitted.of_write written led with free | through
  · rw [free] at lent
    exact absurd lent (by simp)
  · exact other through

/-- **Values that are lent out are protected.** Let nothing be reported at the statements of a
valid program up to some statement, and let them all succeed. A binding that is lent out before the
last of them has a live slot then. If it is lent out shared, the statement leaves its value alone;
if it is lent out exclusively, the statement changes its value only by an assignment through a name
that means the holder. It makes no difference whether the names of holder and binding are hidden. -/
theorem Program.lent_values_protected {program : Program} {index : Nat} {before after : Machine}
    {state : State} (valid : program.errors = []) (clean : program.CleanThrough index)
    (walked : stateAfter {} (program.actions.take index) = state)
    (reached : machineAfter {} (program.actions.take index) = .ok before)
    (passed : machineAfter {} (program.actions.take (index + 1)) = .ok after)
    (binding : BindingId) :
    (∀ holders, state.loans.state binding = .sharedBy holders →
      before.isAlive binding = true ∧ after.valueAt binding = before.valueAt binding) ∧
    ∀ id, state.loans.state binding = .exclusiveBy (.reference id) →
      before.isAlive binding = true ∧
      (after.valueAt binding ≠ before.valueAt binding →
        ∃ name value, program.actions[index]? = some (.assignThrough name value) ∧
          state.reference? name = some id) := by
  have alive : ∀ {kind}, (state.loans.state binding).kind? = some kind →
      before.isAlive binding = true := by
    rw [← walked]
    exact (agrees_run reached).isAlive_of_kind?
  cases here : program.actions[index]? with
  | none =>
      -- Past the end of the program nothing is done.
      obtain rfl : before = after := by
        rw [List.take_add_one, here, Option.toList_none, List.append_nil, reached] at passed
        exact Except.ok.inj passed
      refine ⟨fun holders lent => ⟨alive (by rw [lent]; rfl), rfl⟩, fun id lent => ?_⟩
      exact ⟨alive (by rw [lent]; rfl), fun changed => absurd rfl changed⟩
  | some action =>
      have permitted := Program.permitted valid clean here reached
      rw [take_succ_of_getElem? here] at passed
      obtain ⟨before', reading, reached', stepped⟩ := machineAfter_snoc_eq_ok_iff.mp passed
      obtain rfl : before = before' := Except.ok.inj (reached.symm.trans reached')
      rw [walked] at permitted
      constructor
      · intro holders lent
        have shared : (state.loans.state binding).kind? = some .shared := by rw [lent]; rfl
        refine ⟨alive shared, ?_⟩
        by_contra changed
        obtain ⟨name, value, id, -, -, entry⟩ :=
          permitted.assignThrough_of_valueAt_ne stepped shared changed
        rw [permitted.coherent.records.kind?_eq entry] at shared
        exact absurd shared (by simp)
      · intro id lent
        have exclusive : (state.loans.state binding).kind? = some .exclusive := by rw [lent]; rfl
        refine ⟨alive exclusive, fun changed => ?_⟩
        obtain ⟨name, value, id', rfl, found, entry⟩ :=
          permitted.assignThrough_of_valueAt_ne stepped exclusive changed
        obtain rfl : id' = id := permitted.holder_eq lent entry
        exact ⟨name, value, rfl, found⟩

/-- `let mut a = 1; let r = &mut a; { let mut a = 2; a = a + 1; *r = 5; }`: inside the scope the
name of the binding that `r` holds is hidden. -/
def hiddenOwner : Program where
  statements := [
    { action := .declareBinding "a" true "i64" (some (.int ⟨1, by decide, by decide⟩)) },
    { action := .declareReference "r" .exclusive false "a" },
    { action := .enterScope },
    { action := .declareBinding "a" true "i64" (some (.int ⟨2, by decide, by decide⟩)) },
    { action := .assignBinding "a" (.binary .add (.var "a") (.int ⟨1, by decide, by decide⟩)) },
    { action := .assignThrough "r" (.int ⟨5, by decide, by decide⟩) },
    { action := .exitScope }]

/-- The write through `r` changes the hidden binding, and `r` is its holder. -/
theorem Program.lent_values_protected_hiddenOwner :
    ∃ before after, machineAfter {} (hiddenOwner.actions.take 5) = .ok before ∧
      machineAfter {} (hiddenOwner.actions.take 6) = .ok after ∧
      (stateAfter {} (hiddenOwner.actions.take 5)).loans.state 0 = .exclusiveBy (.reference 0) ∧
      after.valueAt 0 ≠ before.valueAt 0 ∧
      ∃ name value, hiddenOwner.actions[5]? = some (.assignThrough name value) ∧
        (stateAfter {} (hiddenOwner.actions.take 5)).reference? name = some 0 := by
  have valid : hiddenOwner.errors = [] := by decide
  have clean : hiddenOwner.CleanThrough 5 := Program.cleanThrough_of_analyze (by decide) 5
  have lent : (stateAfter {} (hiddenOwner.actions.take 5)).loans.state 0 =
      .exclusiveBy (.reference 0) := by decide
  refine ⟨_, _, rfl, rfl, lent, by decide, ?_⟩
  exact ((Program.lent_values_protected valid clean rfl rfl rfl 0).2 0 lent).2 (by decide)

/-! ## Reads -/

/-- Nothing that a statement reads or writes leads to a binding that is lent out exclusively, unless
the statement follows the holder. -/
theorem Permitted.reach_ne (permitted : Permitted names state machine action)
    {binding : BindingId} {id : ReferenceId}
    (lent : state.loans.state binding = .exclusiveBy (.reference id))
    (apart : ∀ name ∈ action.dereferences, state.reference? name ≠ some id) {mention : NameUse}
    (used : mention ∈ action.reads ++ action.writes) : machine.reach mention ≠ .ok binding := by
  intro led
  have exclusive : (state.loans.state binding).kind? = some .exclusive := by rw [lent]; rfl
  cases direct : mention.isDeref with
  | true =>
      -- Through a reference: what it leads to is lent to it, so it is the one holder.
      have followed : mention.name ∈ action.dereferences :=
        List.mem_map_of_mem (List.mem_filter.mpr ⟨used, direct⟩)
      rw [Machine.reach, if_pos direct] at led
      obtain ⟨other, kind, found, entry⟩ := permitted.ledger_of_derefSlot led
      obtain rfl : other = id := permitted.holder_eq lent entry
      exact apart _ followed found
  | false =>
      -- Under its own name: the checker would have reported the access.
      have led' := led
      rw [Machine.reach, if_neg (by simp [direct])] at led'
      have found := permitted.agrees.bindingSlot_eq_ok_iff.mp led'
      rcases List.mem_append.mp used with read | written
      · exact permitted.not_exclusive_of_read read direct found exclusive
      · rcases permitted.of_write written led with free | ⟨name, value, other, rfl, -, -⟩
        · rw [free] at exclusive
          exact absurd exclusive (by simp)
        · rw [List.mem_singleton.mp written] at direct
          exact absurd direct (by simp)

/-- **Values that are lent out exclusively are not seen.** Let nothing be reported at the statements
of a valid program up to some statement, and let those before it succeed. If a binding is lent out
exclusively then, and the statement follows no reference that is its holder, the statement does the
same whatever value the binding has: it fails with the same fault, or it reads the same and leaves
machines that differ in the value of the binding only, which is as it was in each of them. -/
theorem Program.exclusive_values_unseen {program : Program} {index : Nat} {action : Action}
    {machine : Machine} {state : State} {binding : BindingId} {id : ReferenceId}
    (valid : program.errors = []) (clean : program.CleanThrough index)
    (here : program.actions[index]? = some action)
    (walked : stateAfter {} (program.actions.take index) = state)
    (reached : machineAfter {} (program.actions.take index) = .ok machine)
    (lent : state.loans.state binding = .exclusiveBy (.reference id))
    (apart : ∀ name ∈ action.dereferences, state.reference? name ≠ some id)
    (value : Option Word) :
    (machine.withValue binding value).valueAt binding = some value ∧
    match machine.step action with
    | .error fault => (machine.withValue binding value).step action = .error fault
    | .ok (after, reading) =>
        (machine.withValue binding value).step action =
          .ok (after.withValue binding value, reading) ∧
        after.valueAt binding = machine.valueAt binding ∧
        (after.withValue binding value).valueAt binding = some value := by
  have permitted := Program.permitted valid clean here reached
  rw [walked] at permitted
  have exclusive : (state.loans.state binding).kind? = some .exclusive := by rw [lent]; rfl
  have bound := Machine.lt_size_of_isAlive (permitted.agrees.isAlive_of_kind? exclusive)
  have same := Machine.step_withValue value bound
    (fun mention used => permitted.reach_ne lent apart used)
  have replaced : ∀ {other : Machine}, other.valueAt binding = machine.valueAt binding →
      (other.withValue binding value).valueAt binding = some value := by
    intro other equal
    rw [Machine.valueAt_withValue, equal, Machine.valueAt, Array.getElem?_eq_getElem bound]
    rfl
  refine ⟨replaced rfl, ?_⟩
  cases stepped : machine.step action with
  | error fault =>
      rw [stepped] at same
      exact same
  | ok result =>
      obtain ⟨after, reading⟩ := result
      rw [stepped] at same
      have kept := Machine.valueAt_of_step stepped bound (fun mention written =>
        permitted.reach_ne lent apart (List.mem_append_right _ written))
      exact ⟨same, kept, replaced kept⟩

/-- The assignment to the inner binding does the same when the hidden one has no value at all. -/
theorem Program.exclusive_values_unseen_hiddenOwner :
    ∃ action machine after, hiddenOwner.actions[4]? = some action ∧
      machineAfter {} (hiddenOwner.actions.take 4) = .ok machine ∧
      (stateAfter {} (hiddenOwner.actions.take 4)).loans.state 0 = .exclusiveBy (.reference 0) ∧
      machine.step action = .ok (after, none) ∧
      (machine.withValue 0 none).step action = .ok (after.withValue 0 none, none) ∧
      after.valueAt 0 = machine.valueAt 0 ∧ (after.withValue 0 none).valueAt 0 = some none := by
  have valid : hiddenOwner.errors = [] := by decide
  have clean : hiddenOwner.CleanThrough 4 := Program.cleanThrough_of_analyze (by decide) 4
  have lent : (stateAfter {} (hiddenOwner.actions.take 4)).loans.state 0 =
      .exclusiveBy (.reference 0) := by decide
  refine ⟨_, _, _, rfl, rfl, lent, rfl, ?_⟩
  exact (Program.exclusive_values_unseen valid clean rfl rfl rfl lent (by decide) none).2

end Lending
