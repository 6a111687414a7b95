import Lending.Checker
import Lending.Proofs.Loans

/-!
# Laws of the checker's operations

The invariants of the checker read three things off its references: the loan that each of them holds
(`ledger`), its name together with whether it has ended (`standing`), and what never changes about
it (`identity`). For each operation there is one lemma that says what becomes of every reference,
one for each of the views, and one that the loan table still records the ledger (`Records`). What an
operation leaves alone (the scopes, the bindings, which bindings are tracked) is said next to it.
-/

namespace Lending.Checker

namespace State

/-! ## Names -/

theorem binding?_eq_some_iff {state : State} {name : String} {id : BindingId} :
    state.binding? name = some id ↔ state.scopes.lookup name = some (.binding id) := by
  unfold binding?
  split
  · rename_i other meaning
    rw [meaning, Option.some.injEq, Option.some.injEq, Entity.binding.injEq]
  · rename_i other
    exact ⟨fun found => absurd found (by simp), fun meaning => absurd meaning (other id)⟩

theorem reference?_eq_some_iff {state : State} {name : String} {id : ReferenceId} :
    state.reference? name = some id ↔ state.scopes.lookup name = some (.reference id) := by
  unfold reference?
  split
  · rename_i other meaning
    rw [meaning, Option.some.injEq, Option.some.injEq, Entity.reference.injEq]
  · rename_i other
    exact ⟨fun found => absurd found (by simp), fun meaning => absurd meaning (other id)⟩

/-! ## Views of the references -/

/-- The loans by reference: a live reference holds its target. -/
def ledger (state : State) : Ledger := fun id =>
  state.references[id]?.bind fun reference =>
    if reference.status = .live then some (reference.target, reference.kind) else none

/-- The name of a reference, and whether it has ended. -/
def standing (state : State) (id : ReferenceId) : Option (String × Bool) :=
  state.references[id]?.map fun reference => (reference.name, decide (reference.status = .ended))

/-- What a reference keeps as long as it is known: its name, its kind and whether it is mutable. -/
def identity (state : State) (id : ReferenceId) : Option (String × BorrowKind × Bool) :=
  state.references[id]?.map fun reference => (reference.name, reference.kind, reference.isMutable)

theorem ledger_eq_some_iff {state : State} {id : ReferenceId} {binding : BindingId}
    {kind : BorrowKind} :
    state.ledger id = some (binding, kind) ↔
      ∃ reference, state.references[id]? = some reference ∧ reference.status = .live ∧
        reference.target = binding ∧ reference.kind = kind := by
  simp only [ledger, Option.bind_eq_some_iff]
  constructor
  · rintro ⟨reference, found, entry⟩
    split at entry
    · rename_i live
      rw [Option.some.injEq, Prod.mk.injEq] at entry
      exact ⟨reference, found, live, entry.1, entry.2⟩
    · exact absurd entry (by simp)
  · rintro ⟨reference, found, live, rfl, rfl⟩
    exact ⟨reference, found, by rw [if_pos live]⟩

theorem standing_eq_some_iff {state : State} {id : ReferenceId} {name : String} {ended : Bool} :
    state.standing id = some (name, ended) ↔
      ∃ reference, state.references[id]? = some reference ∧ reference.name = name ∧
        decide (reference.status = .ended) = ended := by
  simp only [standing, Option.map_eq_some_iff, Prod.mk.injEq]

theorem identity_eq_none_iff {state : State} {id : ReferenceId} :
    state.identity id = none ↔ state.references.size ≤ id := by
  rw [identity, Option.map_eq_none_iff, Array.getElem?_eq_none_iff]

/-- As long as no reference becomes known, their number stays. -/
theorem size_eq_of_identity {state after : State}
    (same : ∀ id, after.identity id = state.identity id) :
    after.references.size = state.references.size := by
  have known : ∀ id, after.references.size ≤ id ↔ state.references.size ≤ id := by
    intro id
    rw [← identity_eq_none_iff, ← identity_eq_none_iff, same]
  -- The size of either array is the first number without an identity.
  have first := known after.references.size
  have second := known state.references.size
  omega

/-! ### Setting a status -/

theorem getElem?_setStatus (state : State) (id other : ReferenceId) (status : Status) :
    (state.setStatus id status).references[other]? =
      if other = id then state.references[id]?.map fun reference => { reference with status }
      else state.references[other]? :=
  getElem?_modify_ite state.references id other _

theorem standing_setStatus (state : State) (id other : ReferenceId) (status : Status) :
    (state.setStatus id status).standing other =
      if other = id then (state.standing id).map fun known => (known.1, decide (status = .ended))
      else state.standing other := by
  simp only [standing, getElem?_setStatus]
  split
  · cases state.references[id]? <;> rfl
  · rfl

@[simp]
theorem identity_setStatus (state : State) (id other : ReferenceId) (status : Status) :
    (state.setStatus id status).identity other = state.identity other :=
  map_getElem?_modify state.references (fun _ => by rfl) id other

/-- A status other than live takes the loan away. -/
theorem ledger_setStatus {status : Status} (lost : status ≠ .live) (state : State)
    (id : ReferenceId) :
    (state.setStatus id status).ledger = Function.update state.ledger id none := by
  funext other
  simp only [ledger, getElem?_setStatus]
  by_cases same : other = id
  · subst same
    rw [if_pos rfl, Function.update_self]
    cases state.references[other]? with
    | none => rfl
    | some reference => simp [lost]
  · rw [if_neg same, Function.update_of_ne same]
    rfl

theorem ledger_setStatus_live {state : State} {id : ReferenceId} {reference : Reference}
    (found : state.references[id]? = some reference) :
    (state.setStatus id .live).ledger =
      Function.update state.ledger id (some (reference.target, reference.kind)) := by
  funext other
  simp only [ledger, getElem?_setStatus]
  by_cases same : other = id
  · subst same
    rw [if_pos rfl, Function.update_self, found]
    simp
  · rw [if_neg same, Function.update_of_ne same]
    rfl

/-! ### Ending a reference -/

@[simp]
theorem endReference_scopes (state : State) (id : ReferenceId) :
    (state.endReference id).scopes = state.scopes := by
  unfold endReference
  split <;> rfl

@[simp]
theorem endReference_bindings (state : State) (id : ReferenceId) :
    (state.endReference id).bindings = state.bindings := by
  unfold endReference
  split <;> rfl

theorem isSome_find?_endReference (state : State) (id : ReferenceId) (binding : BindingId) :
    ((state.endReference id).loans.find? binding).isSome =
      (state.loans.find? binding).isSome := by
  unfold endReference
  split
  · rfl
  · rename_i reference _
    show (LoanTable.find? (if reference.status = .live then _ else _) binding).isSome = _
    split
    · exact state.loans.isSome_find?_release _ _ _
    · rfl

theorem getElem?_endReference (state : State) (id other : ReferenceId) :
    (state.endReference id).references[other]? =
      if other = id then
        state.references[id]?.map fun reference => { reference with status := .ended }
      else state.references[other]? := by
  unfold endReference
  split
  · rename_i missing
    split
    · rename_i same
      rw [same, missing]
      rfl
    · rfl
  · exact getElem?_setStatus _ id other .ended

theorem standing_endReference (state : State) (id other : ReferenceId) :
    (state.endReference id).standing other =
      if other = id then (state.standing id).map fun known => (known.1, true)
      else state.standing other := by
  simp only [standing, getElem?_endReference]
  split
  · cases state.references[id]? <;> rfl
  · rfl

@[simp]
theorem identity_endReference (state : State) (id other : ReferenceId) :
    (state.endReference id).identity other = state.identity other := by
  unfold endReference
  split
  · rfl
  · exact identity_setStatus _ id other .ended

/-- The loan of a reference that is no longer live, or never was, is out of the books. -/
theorem update_ledger_of_not_live {state : State} {id : ReferenceId} {reference : Reference}
    (found : state.references[id]? = some reference) (lost : reference.status ≠ .live) :
    Function.update state.ledger id none = state.ledger := by
  rw [Function.update_eq_self_iff]
  simp [ledger, found, lost]

/-- The table once a reference has given back what it holds, if anything. -/
theorem records_release {state : State} (records : state.loans.Records state.ledger)
    {id : ReferenceId} {reference : Reference}
    (found : state.references[id]? = some reference) :
    (if reference.status = .live then
        (state.loans.release reference.target (.reference id)).2
      else state.loans).Records (Function.update state.ledger id none) := by
  split
  · rename_i live
    exact records.release (ledger_eq_some_iff.mpr ⟨reference, found, live, rfl, rfl⟩)
  · rename_i lost
    rw [update_ledger_of_not_live found lost]
    exact records

theorem records_endReference {state : State} (records : state.loans.Records state.ledger)
    (id : ReferenceId) :
    (state.endReference id).loans.Records (state.endReference id).ledger := by
  unfold endReference
  split
  · exact records
  · rename_i reference found
    rw [ledger_setStatus (by decide)]
    exact records_release records found

/-! ### Asking for a loan -/

@[simp]
theorem acquire_scopes (state : State) (id : ReferenceId) :
    (state.acquire id).1.scopes = state.scopes := by
  unfold acquire
  split
  · rfl
  · split <;> rfl

@[simp]
theorem acquire_bindings (state : State) (id : ReferenceId) :
    (state.acquire id).1.bindings = state.bindings := by
  unfold acquire
  split
  · rfl
  · split <;> rfl

/-- A reference that has asked for a loan has not ended, whatever the answer. -/
theorem standing_acquire (state : State) (id other : ReferenceId) :
    (state.acquire id).1.standing other =
      if other = id then (state.standing id).map fun known => (known.1, false)
      else state.standing other := by
  unfold acquire
  split
  · rename_i missing
    split
    · rename_i same
      simp [standing, same, missing]
    · rfl
  · split
    · exact standing_setStatus _ id other .live
    · exact standing_setStatus _ id other .rejected

@[simp]
theorem identity_acquire (state : State) (id other : ReferenceId) :
    (state.acquire id).1.identity other = state.identity other := by
  unfold acquire
  split
  · rfl
  · split
    · exact identity_setStatus _ id other .live
    · exact identity_setStatus _ id other .rejected

/-- Asking for a loan of a tracked binding neither adds nor drops an entry. -/
theorem isSome_find?_acquire {state : State} {id : ReferenceId} {reference : Reference}
    (found : state.references[id]? = some reference)
    (tracked : (state.loans.find? reference.target).isSome) (binding : BindingId) :
    ((state.acquire id).1.loans.find? binding).isSome = (state.loans.find? binding).isSome := by
  unfold acquire
  rw [found]
  dsimp only
  split
  · rename_i loans granted
    obtain ⟨lent, -, rfl⟩ := LoanTable.acquire_eq_ok_iff.mp granted
    show ((state.loans.put reference.target lent).find? binding).isSome = _
    rw [LoanTable.find?_put]
    split
    · rename_i same
      rw [same, tracked]
      rfl
    · rfl
  · rfl

/-- After a request the table records the loan if and only if it was granted. Before it the books
must not have a loan of the reference, though it may be marked as live. -/
theorem records_acquire {state : State} {id : ReferenceId}
    (records : state.loans.Records (Function.update state.ledger id none)) :
    (state.acquire id).1.loans.Records (state.acquire id).1.ledger := by
  unfold acquire
  split
  · rename_i missing
    have unheld : state.ledger id = none := by simp [ledger, missing]
    rw [← unheld, Function.update_eq_self] at records
    exact records
  · rename_i reference found
    split
    · rename_i loans granted
      have lent : ({ state with loans } : State).references[id]? = some reference := found
      -- The ledger without the reference is the one to which the new loan is added.
      have recorded := records.acquire (Function.update_self ..) granted
      rw [Function.update_idem] at recorded
      show loans.Records (({ state with loans } : State).setStatus id .live).ledger
      rw [ledger_setStatus_live lent]
      exact recorded
    · rw [ledger_setStatus (by decide)]
      exact records

/-! ### Rebinding -/

/-- The state between the two halves of a rebind: the old loan is given back, and the reference
points to the new target without holding it. -/
def retarget (state : State) (id : ReferenceId) (reference : Reference) (target : BindingId) :
    State :=
  { state with
    loans :=
      if reference.status = .live then
        (state.loans.release reference.target (.reference id)).2
      else state.loans
    references := state.references.modify id fun reference => { reference with target } }

theorem rebind_of_isMutable {state : State} {id : ReferenceId} {reference : Reference}
    (found : state.references[id]? = some reference) (isMutable : reference.isMutable = true)
    (target : BindingId) :
    state.rebind id target = (state.retarget id reference target).acquire id := by
  simp only [rebind, found, isMutable, if_true, retarget]

theorem rebind_of_not_isMutable {state : State} {id : ReferenceId} {reference : Reference}
    (found : state.references[id]? = some reference) (fixed : reference.isMutable = false)
    (target : BindingId) :
    state.rebind id target = (state, [.immutableAssignment reference.name]) := by
  simp [rebind, found, fixed]

theorem getElem?_retarget (state : State) (id other : ReferenceId) (reference : Reference)
    (target : BindingId) :
    (state.retarget id reference target).references[other]? =
      if other = id then state.references[id]?.map fun reference => { reference with target }
      else state.references[other]? :=
  getElem?_modify_ite state.references id other _

theorem standing_retarget (state : State) (id other : ReferenceId) (reference : Reference)
    (target : BindingId) :
    (state.retarget id reference target).standing other = state.standing other :=
  map_getElem?_modify state.references (fun _ => by rfl) id other

@[simp]
theorem identity_retarget (state : State) (id other : ReferenceId) (reference : Reference)
    (target : BindingId) :
    (state.retarget id reference target).identity other = state.identity other :=
  map_getElem?_modify state.references (fun _ => by rfl) id other

theorem update_ledger_retarget (state : State) (id : ReferenceId) (reference : Reference)
    (target : BindingId) :
    Function.update (state.retarget id reference target).ledger id none =
      Function.update state.ledger id none := by
  funext other
  by_cases same : other = id
  · subst same
    rw [Function.update_self, Function.update_self]
  · rw [Function.update_of_ne same, Function.update_of_ne same]
    simp only [ledger, getElem?_retarget, if_neg same]

theorem isSome_find?_retarget (state : State) (id : ReferenceId) (reference : Reference)
    (target binding : BindingId) :
    ((state.retarget id reference target).loans.find? binding).isSome =
      (state.loans.find? binding).isSome := by
  unfold retarget
  dsimp only
  split
  · exact state.loans.isSome_find?_release _ _ _
  · rfl

theorem records_retarget {state : State} (records : state.loans.Records state.ledger)
    {id : ReferenceId} {reference : Reference}
    (found : state.references[id]? = some reference) (target : BindingId) :
    (state.retarget id reference target).loans.Records
      (Function.update (state.retarget id reference target).ledger id none) := by
  rw [update_ledger_retarget]
  exact records_release records found

/-- A rebind leaves the state as it is, or gives back the old loan and asks for the new one. -/
theorem rebind_cases (state : State) (id : ReferenceId) (target : BindingId) :
    (state.rebind id target).1 = state ∨
      ∃ reference, state.references[id]? = some reference ∧
        (state.rebind id target).1 = ((state.retarget id reference target).acquire id).1 := by
  cases found : state.references[id]? with
  | none =>
      left
      simp only [rebind, found]
  | some reference =>
      cases fixed : reference.isMutable with
      | false =>
          left
          rw [rebind_of_not_isMutable found fixed]
      | true =>
          right
          exact ⟨reference, rfl, by rw [rebind_of_isMutable found fixed]⟩

@[simp]
theorem rebind_scopes (state : State) (id : ReferenceId) (target : BindingId) :
    (state.rebind id target).1.scopes = state.scopes := by
  rcases state.rebind_cases id target with same | ⟨reference, -, moved⟩
  · rw [same]
  · rw [moved, acquire_scopes]
    rfl

@[simp]
theorem rebind_bindings (state : State) (id : ReferenceId) (target : BindingId) :
    (state.rebind id target).1.bindings = state.bindings := by
  rcases state.rebind_cases id target with same | ⟨reference, -, moved⟩
  · rw [same]
  · rw [moved, acquire_bindings]
    rfl

@[simp]
theorem identity_rebind (state : State) (id other : ReferenceId) (target : BindingId) :
    (state.rebind id target).1.identity other = state.identity other := by
  rcases state.rebind_cases id target with same | ⟨reference, -, moved⟩
  · rw [same]
  · rw [moved, identity_acquire, identity_retarget]

/-- A rebind to a tracked binding neither adds nor drops an entry. -/
theorem isSome_find?_rebind {state : State} (id : ReferenceId) {target : BindingId}
    (tracked : (state.loans.find? target).isSome) (binding : BindingId) :
    ((state.rebind id target).1.loans.find? binding).isSome =
      (state.loans.find? binding).isSome := by
  rcases state.rebind_cases id target with same | ⟨reference, found, moved⟩
  · rw [same]
  · have pointed := state.getElem?_retarget id id reference target
    rw [if_pos rfl, found] at pointed
    rw [moved, isSome_find?_acquire pointed, isSome_find?_retarget]
    rw [isSome_find?_retarget]
    exact tracked

/-! ### A new reference -/

/-- The state in which a new reference is known, and has not yet asked for its loan. -/
def addReference (state : State) (name : String) (kind : BorrowKind) (isMutable : Bool)
    (target : BindingId) : State :=
  { state with
    references := state.references.push { name, kind, isMutable, target, status := .live } }

theorem declareReference_eq (state : State) (name : String) (kind : BorrowKind) (isMutable : Bool)
    (target : BindingId) :
    state.declareReference name kind isMutable target =
      let asked := (state.addReference name kind isMutable target).acquire state.references.size
      (asked.1.declare name (.reference state.references.size), asked.2) := rfl

theorem getElem?_addReference (state : State) (name : String) (kind : BorrowKind)
    (isMutable : Bool) (target : BindingId) (other : ReferenceId) :
    (state.addReference name kind isMutable target).references[other]? =
      if other = state.references.size then
        some { name, kind, isMutable, target, status := .live }
      else state.references[other]? :=
  Array.getElem?_push

theorem standing_addReference (state : State) (name : String) (kind : BorrowKind)
    (isMutable : Bool) (target : BindingId) (other : ReferenceId) :
    (state.addReference name kind isMutable target).standing other =
      if other = state.references.size then some (name, false) else state.standing other := by
  simp only [standing, getElem?_addReference]
  split <;> rfl

theorem identity_addReference (state : State) (name : String) (kind : BorrowKind)
    (isMutable : Bool) (target : BindingId) (other : ReferenceId) :
    (state.addReference name kind isMutable target).identity other =
      if other = state.references.size then some (name, kind, isMutable)
      else state.identity other := by
  simp only [identity, getElem?_addReference]
  split <;> rfl

/-- A new reference holds nothing, though it is marked as live. -/
theorem update_ledger_addReference (state : State) (name : String) (kind : BorrowKind)
    (isMutable : Bool) (target : BindingId) :
    Function.update (state.addReference name kind isMutable target).ledger
      state.references.size none = state.ledger := by
  funext other
  by_cases same : other = state.references.size
  · subst same
    rw [Function.update_self]
    simp [ledger]
  · rw [Function.update_of_ne same]
    simp only [ledger, getElem?_addReference, if_neg same]

/-! ### Declaring a name -/

@[simp]
theorem declare_scopes (state : State) (name : String) (entity : Entity) :
    (state.declare name entity).scopes = state.scopes.declare name entity := by
  unfold declare
  dsimp only
  split
  · rw [endReference_scopes]
  · rfl

theorem declareBinding_scopes (state : State) (name : String) (isMutable : Bool) :
    (state.declareBinding name isMutable).scopes =
      state.scopes.declare name (.binding state.bindings.size) :=
  declare_scopes _ name (.binding state.bindings.size)

theorem declareReference_scopes (state : State) (name : String) (kind : BorrowKind)
    (isMutable : Bool) (target : BindingId) :
    (state.declareReference name kind isMutable target).1.scopes =
      state.scopes.declare name (.reference state.references.size) := by
  rw [declareReference_eq]
  dsimp only
  rw [declare_scopes, acquire_scopes]
  rfl

@[simp]
theorem declare_bindings (state : State) (name : String) (entity : Entity) :
    (state.declare name entity).bindings = state.bindings := by
  unfold declare
  dsimp only
  split
  · rw [endReference_bindings]
  · rfl

theorem isSome_find?_declare (state : State) (name : String) (entity : Entity)
    (binding : BindingId) :
    ((state.declare name entity).loans.find? binding).isSome =
      (state.loans.find? binding).isSome := by
  unfold declare
  dsimp only
  split
  · rw [isSome_find?_endReference]
  · rfl

/-- A declaration ends the reference that it shadows in the innermost frame, and no other. -/
theorem getElem?_declare (state : State) (name : String) (entity : Entity) (other : ReferenceId) :
    (state.declare name entity).references[other]? =
      if state.scopes.lookupInner name = some (.reference other) then
        state.references[other]?.map fun reference => { reference with status := .ended }
      else state.references[other]? := by
  unfold declare
  dsimp only
  split
  · rename_i shadowed found
    rw [found, getElem?_endReference]
    by_cases same : other = shadowed
    · rw [if_pos same, if_pos (by rw [same]), same]
    · rw [if_neg same, if_neg (by simpa using Ne.symm same)]
  · rename_i none
    rw [if_neg (none other)]

theorem standing_declare (state : State) (name : String) (entity : Entity) (other : ReferenceId) :
    (state.declare name entity).standing other =
      if state.scopes.lookupInner name = some (.reference other) then
        (state.standing other).map fun known => (known.1, true)
      else state.standing other := by
  simp only [standing, getElem?_declare]
  split
  · cases state.references[other]? <;> rfl
  · rfl

@[simp]
theorem identity_declare (state : State) (name : String) (entity : Entity) (other : ReferenceId) :
    (state.declare name entity).identity other = state.identity other := by
  unfold declare
  dsimp only
  split
  · rw [identity_endReference]
    rfl
  · rfl

theorem records_declare {state : State} (records : state.loans.Records state.ledger)
    (name : String) (entity : Entity) :
    (state.declare name entity).loans.Records (state.declare name entity).ledger := by
  let named : State := { state with scopes := state.scopes.declare name entity }
  have unchanged : named.loans.Records named.ledger := records
  unfold declare
  dsimp only
  split
  · exact records_endReference unchanged _
  · exact unchanged

/-! ### Destroying a binding -/

theorem getElem?_foldl_setStatus (status : Status) (holders : List ReferenceId) (state : State)
    (other : ReferenceId) :
    (holders.foldl (fun state holder => state.setStatus holder status) state).references[other]? =
      if other ∈ holders then
        state.references[other]?.map fun reference => { reference with status }
      else state.references[other]? := by
  induction holders generalizing state with
  | nil => simp
  | cons first rest ih =>
      rw [List.foldl_cons, ih, getElem?_setStatus]
      by_cases same : other = first
      · subst same
        rw [if_pos rfl, if_pos List.mem_cons_self]
        split
        · cases state.references[other]? <;> rfl
        · rfl
      · simp only [List.mem_cons, same, false_or, if_false]

theorem foldl_setStatus_frame (status : Status) (holders : List ReferenceId) (state : State) :
    let after := holders.foldl (fun state holder => state.setStatus holder status) state
    after.scopes = state.scopes ∧ after.bindings = state.bindings ∧ after.loans = state.loans := by
  induction holders generalizing state with
  | nil => exact ⟨rfl, rfl, rfl⟩
  | cons first rest ih => exact ih (state.setStatus first status)

@[simp]
theorem destroy_scopes (state : State) (entity : Entity) :
    (state.destroy entity).1.scopes = state.scopes := by
  cases entity with
  | reference id => exact endReference_scopes state id
  | binding id => exact (foldl_setStatus_frame .dangling _ state).1

@[simp]
theorem destroy_bindings (state : State) (entity : Entity) :
    (state.destroy entity).1.bindings = state.bindings := by
  cases entity with
  | reference id => exact endReference_bindings state id
  | binding id => exact (foldl_setStatus_frame .dangling _ state).2.1

theorem destroy_binding_loans (state : State) (id : BindingId) :
    (state.destroy (.binding id)).1.loans = state.loans.remove id := by
  show LoanTable.remove (List.foldl _ state _).loans id = _
  rw [(foldl_setStatus_frame .dangling _ state).2.2]

/-- Exactly the references that hold a binding dangle once it is destroyed. -/
theorem getElem?_destroy_binding (state : State) (id : BindingId) (other : ReferenceId) :
    (state.destroy (.binding id)).1.references[other]? =
      if other ∈ state.loans.liveReferences id then
        state.references[other]?.map fun reference => { reference with status := .dangling }
      else state.references[other]? :=
  getElem?_foldl_setStatus .dangling _ state other

@[simp]
theorem identity_destroy (state : State) (entity : Entity) (other : ReferenceId) :
    (state.destroy entity).1.identity other = state.identity other := by
  cases entity with
  | reference id => exact identity_endReference state id other
  | binding id =>
      simp only [identity, getElem?_destroy_binding]
      split
      · cases state.references[other]? <;> rfl
      · rfl

theorem mem_liveReferences_iff {state : State} (records : state.loans.Records state.ledger)
    {binding : BindingId} {id : ReferenceId} :
    id ∈ state.loans.liveReferences binding ↔ ∃ kind, state.ledger id = some (binding, kind) := by
  rw [← records.holder_iff]
  exact mem_filterMap_reference?

/-- The destruction of a binding changes no name and ends no reference. -/
theorem standing_destroy_binding {state : State} (records : state.loans.Records state.ledger)
    (id : BindingId) (other : ReferenceId) :
    (state.destroy (.binding id)).1.standing other = state.standing other := by
  simp only [standing, getElem?_destroy_binding]
  split
  · rename_i holds
    obtain ⟨kind, entry⟩ := (mem_liveReferences_iff records).mp holds
    obtain ⟨reference, found, live, -, -⟩ := ledger_eq_some_iff.mp entry
    simp [found, live]
  · rfl

theorem records_destroy_binding {state : State} (records : state.loans.Records state.ledger)
    (id : BindingId) :
    (state.destroy (.binding id)).1.loans.Records (state.destroy (.binding id)).1.ledger := by
  have crossed : (state.destroy (.binding id)).1.ledger =
      fun other => (state.ledger other).filter fun loan => loan.1 ≠ id := by
    funext other
    rw [ledger, getElem?_destroy_binding]
    -- Who holds the binding dangles and loses its loan; whoever is live besides holds another one.
    split
    · rename_i holds
      obtain ⟨kind, entry⟩ := (mem_liveReferences_iff records).mp holds
      obtain ⟨reference, found, -, -, -⟩ := ledger_eq_some_iff.mp entry
      rw [entry, Option.filter_some_neg (by simp), found]
      rfl
    · rename_i free
      cases entry : state.ledger other with
      | none => exact entry
      | some loan =>
          have elsewhere : loan.1 ≠ id := fun same =>
            free ((mem_liveReferences_iff records).mpr ⟨loan.2, by rw [entry, ← same]⟩)
          rw [Option.filter_some_pos (by simpa using elsewhere), ← entry]
          rfl
  rw [crossed, destroy_binding_loans]
  exact records.remove id

theorem destroyAll_cons (state : State) (entity : Entity) (rest : List Entity) :
    (state.destroyAll (entity :: rest)).1 = ((state.destroy entity).1.destroyAll rest).1 := rfl

@[simp]
theorem destroyAll_scopes (state : State) (gone : List Entity) :
    (state.destroyAll gone).1.scopes = state.scopes := by
  induction gone generalizing state with
  | nil => rfl
  | cons entity rest ih => rw [destroyAll_cons, ih, destroy_scopes]

@[simp]
theorem destroyAll_bindings (state : State) (gone : List Entity) :
    (state.destroyAll gone).1.bindings = state.bindings := by
  induction gone generalizing state with
  | nil => rfl
  | cons entity rest ih => rw [destroyAll_cons, ih, destroy_bindings]

@[simp]
theorem identity_destroyAll (state : State) (gone : List Entity) (other : ReferenceId) :
    (state.destroyAll gone).1.identity other = state.identity other := by
  induction gone generalizing state with
  | nil => rfl
  | cons entity rest ih => rw [destroyAll_cons, ih, identity_destroy]

end State

end Lending.Checker
