import Lending.Proofs.Coherence

/-!
# Holders along a walk

Who holds a binding, as a list in the order of arrival, and what a statement does to that list. A
statement may end entities (`leaving`) and may ask for one loan (`request?`); then the holders of
each binding are those that it had, without the ones that leave, and behind them the one to which
the loan is granted (`holdersOf_step`). What is known of a reference changes only if it leaves, if
it asks, or if it holds a binding that leaves (`getElem?_step`).

Both are put together from one lemma for each operation of the checker. They need that the loan
table records the ledger: a reference that holds nothing is in no list, so taking it out of all
lists takes it out of that of its target.
-/

namespace Lending

namespace LoanState

/-- The loans of a binding are known by their kind and their holders. -/
theorem eq_of_holders_eq {state other : LoanState} (kind : state.kind? = other.kind?)
    (same : state.holders = other.holders) : state = other := by
  cases state <;> cases other <;> simp_all [kind?, holders]

theorem Settled.kind?_eq_none {state : LoanState} (settled : state.Settled)
    (none : state.holders = []) : state.kind? = Option.none := by
  cases state with
  | free => rfl
  | sharedBy held => exact absurd none settled.1
  | exclusiveBy held => exact absurd none (by simp [holders])

end LoanState

/-- Whether a holder is none of the entities that are gone. -/
def Holder.outlives (gone : List Entity) : Holder → Bool
  | .reference id => decide (.reference id ∉ gone)
  | .temporary => true

theorem filter_outlives_nil (holders : List Holder) :
    holders.filter (Holder.outlives []) = holders := by
  rw [List.filter_eq_self]
  intro holder _
  cases holder <;> simp [Holder.outlives]

theorem filter_outlives_singleton (holders : List Holder) (id : ReferenceId) :
    holders.filter (Holder.outlives [.reference id]) =
      holders.filter fun holder => holder != .reference id := by
  apply List.filter_congr
  intro holder _
  rw [Bool.eq_iff_iff]
  cases holder <;> simp [Holder.outlives]

theorem filter_outlives_cons (holders : List Holder) (entity : Entity) (rest : List Entity) :
    (holders.filter (Holder.outlives [entity])).filter (Holder.outlives rest) =
      holders.filter (Holder.outlives (entity :: rest)) := by
  rw [List.filter_filter]
  apply List.filter_congr
  intro holder _
  cases holder <;> simp [Holder.outlives, Bool.and_comm]

namespace Checker

namespace State

/-- Who holds a binding, in the order in which they came. -/
def holdersOf (state : State) (binding : BindingId) : List Holder :=
  (state.loans.state binding).holders

variable {state : State}

theorem mem_holdersOf_iff (records : state.loans.Records state.ledger) {id : ReferenceId}
    {binding : BindingId} :
    .reference id ∈ state.holdersOf binding ↔ ∃ kind, state.ledger id = some (binding, kind) :=
  records.holder_iff id binding

/-- The loans of a binding are known by its holders, for each of them holds it by a loan of its own
kind. -/
theorem state_eq_of_holdersOf_eq {after : State} (records : state.loans.Records state.ledger)
    (records' : after.loans.Records after.ledger) {binding : BindingId}
    (same : after.holdersOf binding = state.holdersOf binding)
    (kept : ∀ {id}, .reference id ∈ state.holdersOf binding →
      after.references[id]? = state.references[id]?) :
    after.loans.state binding = state.loans.state binding := by
  refine LoanState.eq_of_holders_eq ?_ same
  cases held : state.holdersOf binding with
  | nil =>
      rw [(records'.settled binding).kind?_eq_none (same.trans held),
        (records.settled binding).kind?_eq_none held]
  | cons holder rest =>
      have first : holder ∈ state.holdersOf binding := by simp [held]
      cases holder with
      | temporary => exact absurd first (records.settled binding).temporary_not_mem
      | reference id =>
          obtain ⟨kind, entry⟩ := (mem_holdersOf_iff records).mp first
          have entry' : after.ledger id = some (binding, kind) := by
            rw [ledger, kept first]
            exact entry
          rw [records.kind?_eq entry, records'.kind?_eq entry']

/-! ## Operations -/

/-- Taking a reference that holds nothing out of a list changes nothing. -/
theorem filter_holdersOf_of_ledger (records : state.loans.Records state.ledger) {id : ReferenceId}
    {binding : BindingId} (elsewhere : ∀ kind, state.ledger id ≠ some (binding, kind)) :
    (state.holdersOf binding).filter (fun holder => holder != .reference id) =
      state.holdersOf binding := by
  rw [List.filter_eq_self]
  intro holder held
  have different : holder ≠ .reference id := by
    rintro rfl
    obtain ⟨kind, entry⟩ := (mem_holdersOf_iff records).mp held
    exact elsewhere kind entry
  simpa using different

/-- The holders once a reference has given back what it holds, if anything. -/
theorem holders_release (records : state.loans.Records state.ledger) {id : ReferenceId}
    {reference : Reference} (found : state.references[id]? = some reference)
    (binding : BindingId) :
    (LoanTable.state (if reference.status = .live then
        (state.loans.release reference.target (.reference id)).2
      else state.loans) binding).holders =
      (state.holdersOf binding).filter fun holder => holder != .reference id := by
  by_cases live : reference.status = .live
  · rw [if_pos live, LoanTable.state_release]
    split
    · rename_i same
      rw [LoanState.holders_giveBack, same]
      rfl
    · rename_i different
      refine (filter_holdersOf_of_ledger records (fun kind entry => ?_)).symm
      obtain ⟨reference', found', -, target, -⟩ := ledger_eq_some_iff.mp entry
      obtain rfl : reference = reference' := Option.some.inj (found.symm.trans found')
      exact different target.symm
  · rw [if_neg live]
    refine (filter_holdersOf_of_ledger records (fun kind entry => ?_)).symm
    obtain ⟨reference', found', live', -, -⟩ := ledger_eq_some_iff.mp entry
    obtain rfl : reference = reference' := Option.some.inj (found.symm.trans found')
    exact live live'

theorem holdersOf_endReference (records : state.loans.Records state.ledger) (id : ReferenceId)
    (binding : BindingId) :
    (state.endReference id).holdersOf binding =
      (state.holdersOf binding).filter fun holder => holder != .reference id := by
  unfold endReference
  split
  · rename_i missing
    refine (filter_holdersOf_of_ledger records (fun kind entry => ?_)).symm
    simp [ledger, missing] at entry
  · rename_i reference found
    exact holders_release records found binding

/-- A loan is granted to the reference that asks, which comes last, or it is refused and nobody's
loan changes. -/
theorem holdersOf_acquire {id : ReferenceId} {reference : Reference}
    (found : state.references[id]? = some reference)
    (unheld : .reference id ∉ state.holdersOf reference.target) (binding : BindingId) :
    (state.acquire id).1.holdersOf binding =
      state.holdersOf binding ++
        if reference.target = binding ∧ (state.acquire id).2 = [] then [.reference id] else [] := by
  simp only [acquire, found]
  cases answer : state.loans.acquire reference.target (.reference id) reference.kind with
  | ok loans =>
      obtain ⟨lent, granted, rfl⟩ := LoanTable.acquire_eq_ok_iff.mp answer
      show ((state.loans.put reference.target lent).state binding).holders = _
      rw [LoanTable.state_put]
      by_cases same : binding = reference.target
      · rw [if_pos same, LoanState.holders_lend granted unheld]
        simp [same, holdersOf]
      · simp [same, Ne.symm same, holdersOf]
  | error refusal =>
      simp only [List.cons_ne_self, and_false, if_false, List.append_nil]
      rfl

/-- The reference that a new declaration of `name` ends. -/
def shadowed (state : State) (name : String) : List Entity :=
  match state.scopes.lookupInner name with
  | some (.reference id) => [.reference id]
  | _ => []

theorem mem_shadowed_iff {name : String} {entity : Entity} :
    entity ∈ state.shadowed name ↔
      ∃ id, entity = .reference id ∧ state.scopes.lookupInner name = some (.reference id) := by
  unfold shadowed
  split
  · rename_i id meaning
    rw [List.mem_singleton]
    constructor
    · rintro rfl
      exact ⟨id, rfl, meaning⟩
    · rintro ⟨id', rfl, meaning'⟩
      exact Option.some.inj (meaning'.symm.trans meaning)
  · rename_i none
    constructor
    · exact fun there => absurd there (by simp)
    · rintro ⟨id, -, meaning⟩
      exact absurd meaning (none id)

theorem holdersOf_declare (records : state.loans.Records state.ledger) (name : String)
    (entity : Entity) (binding : BindingId) :
    (state.declare name entity).holdersOf binding =
      (state.holdersOf binding).filter (Holder.outlives (state.shadowed name)) := by
  let named : State := { state with scopes := state.scopes.declare name entity }
  have unchanged : named.loans.Records named.ledger := records
  cases meaning : state.scopes.lookupInner name with
  | none =>
      simp only [declare, shadowed, meaning, filter_outlives_nil]
      rfl
  | some shadow =>
      cases shadow with
      | binding id =>
          simp only [declare, shadowed, meaning, filter_outlives_nil]
          rfl
      | reference id =>
          simp only [declare, shadowed, meaning, filter_outlives_singleton]
          exact holdersOf_endReference unchanged id binding

theorem records_destroy (records : state.loans.Records state.ledger) (entity : Entity) :
    (state.destroy entity).1.loans.Records (state.destroy entity).1.ledger := by
  cases entity with
  | reference id => exact records_endReference records id
  | binding id => exact records_destroy_binding records id

theorem holdersOf_destroy (records : state.loans.Records state.ledger) (entity : Entity)
    (binding : BindingId) :
    (state.destroy entity).1.holdersOf binding =
      if .binding binding = entity then []
      else (state.holdersOf binding).filter (Holder.outlives [entity]) := by
  cases entity with
  | reference id =>
      rw [if_neg (by simp), filter_outlives_singleton]
      exact holdersOf_endReference records id binding
  | binding id =>
      have kept : (state.holdersOf binding).filter (Holder.outlives [.binding id]) =
          state.holdersOf binding := by
        rw [List.filter_eq_self]
        intro holder _
        cases holder <;> simp [Holder.outlives]
      rw [holdersOf, destroy_binding_loans, LoanTable.state_remove, kept]
      by_cases same : binding = id
      · simp [same, LoanState.holders]
      · simp [same, holdersOf]

/-- The holders once several entities are destroyed: a destroyed binding has none. -/
theorem holdersOf_destroyAll (records : state.loans.Records state.ledger) (gone : List Entity)
    (binding : BindingId) :
    (state.destroyAll gone).1.holdersOf binding =
      if .binding binding ∈ gone then []
      else (state.holdersOf binding).filter (Holder.outlives gone) := by
  induction gone generalizing state with
  | nil => rw [if_neg (by simp), filter_outlives_nil]; rfl
  | cons entity rest ih =>
      rw [destroyAll_cons, ih (records_destroy records entity), holdersOf_destroy records]
      by_cases first : .binding binding = entity
      · simp [first]
      · simp only [List.mem_cons, first, false_or, if_false, filter_outlives_cons]

/-! ## References that are left alone -/

theorem getElem?_acquire {id other : ReferenceId} (different : other ≠ id) :
    (state.acquire id).1.references[other]? = state.references[other]? := by
  unfold acquire
  split
  · rfl
  · split
    · exact (getElem?_setStatus _ id other .live).trans (if_neg different)
    · exact (getElem?_setStatus _ id other .rejected).trans (if_neg different)

/-- A reference that is not destroyed, and that holds nothing that is destroyed, stays as it is. -/
theorem getElem?_destroyAll (records : state.loans.Records state.ledger) {gone : List Entity}
    {id : ReferenceId} (stays : .reference id ∉ gone)
    (kept : ∀ {binding}, .binding binding ∈ gone → .reference id ∉ state.holdersOf binding) :
    (state.destroyAll gone).1.references[id]? = state.references[id]? := by
  induction gone generalizing state with
  | nil => rfl
  | cons entity rest ih =>
      have first : (state.destroy entity).1.references[id]? = state.references[id]? := by
        cases entity with
        | reference other =>
            refine (getElem?_endReference state other id).trans (if_neg ?_)
            rintro rfl
            exact stays List.mem_cons_self
        | binding binding =>
            rw [getElem?_destroy_binding, if_neg]
            rw [mem_liveReferences_iff records, ← mem_holdersOf_iff records]
            exact kept List.mem_cons_self
      rw [destroyAll_cons, ih (records_destroy records entity)
        (fun there => stays (List.mem_cons_of_mem _ there)), first]
      -- Destruction only takes holders away: who holds a later binding held it before.
      intro binding there held
      rw [holdersOf_destroy records] at held
      split at held
      · exact absurd held (by simp)
      · exact kept (List.mem_cons_of_mem _ there) (List.mem_filter.mp held).1

/-! ## Statements -/

/-- The reference for which an action asks for a loan, and the binding that it asks for. -/
def request? (state : State) : Action → Option (ReferenceId × BindingId)
  | .declareReference _ _ _ target =>
      (state.binding? target).map fun binding => (state.references.size, binding)
  | .rebindReference name target =>
      match state.reference? name, state.binding? target with
      | some id, some binding =>
          if state.references[id]?.any (·.isMutable) then some (id, binding) else none
      | _, _ => none
  | _ => none

theorem request?_rebindReference_eq_some_iff {name target : String} {id : ReferenceId}
    {binding : BindingId} :
    state.request? (.rebindReference name target) = some (id, binding) ↔
      state.reference? name = some id ∧ state.binding? target = some binding ∧
        ∃ reference, state.references[id]? = some reference ∧ reference.isMutable = true := by
  rw [← Option.any_eq_true]
  cases found : state.reference? name with
  | none => simp [request?, found]
  | some other =>
      cases found' : state.binding? target with
      | none => simp [request?, found']
      | some other' =>
          simp only [request?, found, found', Option.ite_none_right_eq_some, Option.some.injEq,
            Prod.mk.injEq]
          constructor
          · rintro ⟨isMutable, rfl, rfl⟩
            exact ⟨rfl, rfl, isMutable⟩
          · rintro ⟨rfl, rfl, isMutable⟩
            exact ⟨isMutable, rfl, rfl⟩

/-- The entities that an action ends or, in the case of a rebind, takes away from what they held. -/
def leaving (state : State) : Action → List Entity
  | .declareBinding name _ _ _ => state.shadowed name
  | .declareReference name _ _ target =>
      if (state.binding? target).isSome then state.shadowed name else []
  | .exitScope => ((state.scopes.exit?).map (·.1)).getD []
  | action => (state.request? action).toList.map fun request => .reference request.1

/-- The new holder of a binding after an action, if there is one. -/
def granted (state : State) (action : Action) (binding : BindingId) : List Holder :=
  match state.request? action with
  | some (id, target) =>
      if target = binding ∧ (state.step action).2 = [] then [.reference id] else []
  | none => []

end State

open State

variable {state : State}

theorem holdersOf_declareBinding (coherent : Coherent state) (name : String) (isMutable : Bool)
    (binding : BindingId) :
    (state.declareBinding name isMutable).holdersOf binding =
      (state.holdersOf binding).filter (Holder.outlives (state.shadowed name)) := by
  have added := coherent.records.of_state_eq coherent.state_register
  let known : State := { state with
    bindings := state.bindings.push { name, isMutable }
    loans := state.loans.register state.bindings.size }
  have same : known.holdersOf binding = state.holdersOf binding :=
    congrArg LoanState.holders (coherent.state_register binding)
  rw [← same]
  exact known.holdersOf_declare added name _ binding

/-- A new reference asks for its loan before its name is visible, so it may be refused because of
the reference that it shadows. -/
theorem holdersOf_declareReference (coherent : Coherent state) (name : String) (kind : BorrowKind)
    (isMutable : Bool) (target binding : BindingId) :
    (state.declareReference name kind isMutable target).1.holdersOf binding =
      (state.holdersOf binding).filter (Holder.outlives (state.shadowed name)) ++
        if target = binding ∧ (state.declareReference name kind isMutable target).2 = [] then
          [.reference state.references.size]
        else [] := by
  let added := state.addReference name kind isMutable target
  have found := state.getElem?_addReference name kind isMutable target state.references.size
  rw [if_pos rfl] at found
  -- Nobody holds anything under the number of a new reference.
  have fresh : ∀ other, .reference state.references.size ∉ state.holdersOf other := by
    intro other held
    obtain ⟨_, entry⟩ := (mem_holdersOf_iff coherent.records).mp held
    simp [ledger] at entry
  have asked := holdersOf_acquire found (fresh _) binding
  have records : (added.acquire state.references.size).1.loans.Records
      (added.acquire state.references.size).1.ledger := by
    apply records_acquire
    rw [update_ledger_addReference]
    exact coherent.records
  have shadows : (added.acquire state.references.size).1.shadowed name = state.shadowed name := by
    unfold shadowed
    rw [acquire_scopes]
    rfl
  have stays : Holder.outlives (state.shadowed name) (.reference state.references.size) = true := by
    simp only [Holder.outlives, decide_eq_true_eq]
    intro there
    obtain ⟨id, same, meaning⟩ := mem_shadowed_iff.mp there
    obtain ⟨frame, inside, found⟩ := Scopes.exists_frame_of_lookupInner meaning
    exact coherent.reference_fresh (same ▸ mem_entities_of_lookup inside found)
  rw [declareReference_eq]
  dsimp only
  rw [holdersOf_declare records, shadows, asked, List.filter_append]
  congr 1
  split
  · rename_i granted
    rw [List.filter_cons_of_pos stays, List.filter_nil]
  · rfl

theorem holdersOf_rebind (coherent : Coherent state) {id : ReferenceId} {reference : Reference}
    (found : state.references[id]? = some reference) (isMutable : reference.isMutable = true)
    (target binding : BindingId) :
    (state.rebind id target).1.holdersOf binding =
      (state.holdersOf binding).filter (Holder.outlives [.reference id]) ++
        if target = binding ∧ (state.rebind id target).2 = [] then [.reference id] else [] := by
  have released : ∀ other, (state.retarget id reference target).holdersOf other =
      (state.holdersOf other).filter fun holder => holder != .reference id :=
    holders_release coherent.records found
  have pointed := state.getElem?_retarget id id reference target
  rw [if_pos rfl, found, Option.map_some] at pointed
  rw [rebind_of_isMutable found isMutable, holdersOf_acquire pointed, released,
    filter_outlives_singleton]
  rw [released]
  simp

theorem leaving_exitScope {frame next : Frame Entity} {outer : List (Frame Entity)}
    (stack : state.scopes.frames = frame :: next :: outer) :
    state.leaving .exitScope = entities [frame] := by
  simp [leaving, Scopes.exit?, stack, entities]

/-- **What a statement does to the holders.** -/
theorem holdersOf_step (coherent : Coherent state) (action : Action) (binding : BindingId) :
    (state.step action).1.holdersOf binding =
      (if .binding binding ∈ state.leaving action then []
        else (state.holdersOf binding).filter (Holder.outlives (state.leaving action))) ++
      state.granted action binding := by
  -- Most statements neither end anything nor ask for a loan that lasts.
  have quiet : (state.step action).1.holdersOf binding = state.holdersOf binding →
      state.leaving action = [] → state.request? action = none →
      (state.step action).1.holdersOf binding =
        (if .binding binding ∈ state.leaving action then []
          else (state.holdersOf binding).filter (Holder.outlives (state.leaving action))) ++
        state.granted action binding := by
    intro unchanged none unasked
    rw [unchanged, none, if_neg (by simp), filter_outlives_nil, granted, unasked, List.append_nil]
  have access : isAccess action = true →
      (state.step action).1.holdersOf binding = state.holdersOf binding := by
    intro reads
    rw [coherent.step_of_isAccess reads]
  have shadow : ∀ name, .binding binding ∉ state.shadowed name := by
    intro name there
    obtain ⟨id, same, -⟩ := mem_shadowed_iff.mp there
    exact absurd same (by simp)
  cases action with
  | declareBinding name isMutable tag init =>
      have ends : state.leaving (.declareBinding name isMutable tag init) = state.shadowed name :=
        rfl
      rw [ends, if_neg (shadow name)]
      simp only [granted, request?, List.append_nil]
      exact holdersOf_declareBinding coherent name isMutable binding
  | declareReference name kind isMutable target =>
      cases found : state.binding? target with
      | none => simp [State.step, leaving, granted, request?, found, filter_outlives_nil]
      | some id =>
          simp only [State.step, leaving, granted, request?, found, Option.isSome_some, if_true,
            if_neg (shadow name), Option.map_some]
          exact holdersOf_declareReference coherent name kind isMutable id binding
  | rebindReference name target =>
      cases found : state.reference? name with
      | none => simp [State.step, leaving, granted, request?, found, filter_outlives_nil]
      | some id =>
          cases found' : state.binding? target with
          | none => simp [State.step, leaving, granted, request?, found', filter_outlives_nil]
          | some target =>
              obtain ⟨reference, here, -, -⟩ :=
                State.standing_eq_some_iff.mp (coherent.standing_of_reference? found)
              cases fixed : reference.isMutable with
              | false =>
                  simp [State.step, leaving, granted, request?, found, found',
                    rebind_of_not_isMutable here fixed, here, fixed, filter_outlives_nil]
              | true =>
                  simp only [State.step, leaving, granted, request?, found, found', here,
                    Option.any_some, fixed, if_true, Option.toList_some, List.map_cons,
                    List.map_nil]
                  rw [if_neg (by simp)]
                  exact holdersOf_rebind coherent here fixed target binding
  | assignBinding name value => exact quiet (access rfl) rfl rfl
  | assignThrough reference value => exact quiet (access rfl) rfl rfl
  | readBinding name => exact quiet (access rfl) rfl rfl
  | readThrough path => exact quiet (access rfl) rfl rfl
  | enterScope => exact quiet rfl rfl rfl
  | exitScope =>
      simp only [granted, request?, List.append_nil]
      cases closed : state.scopes.exit? with
      | none =>
          rw [step_exitScope_of_exit? closed]
          simp [leaving, closed, filter_outlives_nil]
      | some found =>
          obtain ⟨frame, next, outer, stack, rfl⟩ := Scopes.frames_of_exit? closed
          let fewer : State := { state with scopes := { frames := next :: outer } }
          have records : fewer.loans.Records fewer.ledger := coherent.records
          rw [step_exitScope stack, leaving_exitScope stack]
          exact holdersOf_destroyAll records (entities [frame]) binding

theorem kind_acquire {id : ReferenceId} {violation : Violation}
    (found : violation ∈ (state.acquire id).2) : violation.kind = .exclusivity := by
  unfold acquire at found
  split at found
  · exact absurd found (by simp)
  · split at found
    · exact absurd found (by simp)
    · rw [List.mem_singleton.mp found]
      rfl

/-- All that can go wrong with a statement that asks for a loan is that the loan is refused. -/
theorem kind_of_request? {action : Action} {request : ReferenceId × BindingId}
    (asks : state.request? action = some request) {violation : Violation}
    (found : violation ∈ (state.step action).2) : violation.kind = .exclusivity := by
  cases action with
  | declareReference name kind isMutable target =>
      obtain ⟨binding, meaning, -⟩ := Option.map_eq_some_iff.mp asks
      simp only [State.step, meaning, declareReference_eq] at found
      exact kind_acquire found
  | rebindReference name target =>
      obtain ⟨meaning, meaning', reference, here, isMutable⟩ :=
        request?_rebindReference_eq_some_iff.mp asks
      simp only [State.step, meaning, meaning', rebind_of_isMutable here isMutable] at found
      exact kind_acquire found
  | declareBinding | assignBinding | assignThrough | readBinding | readThrough | enterScope
  | exitScope => exact absurd asks (by simp [request?])

/-- **What a statement leaves alone.** A reference that the statement does not make leave, and that
holds nothing that leaves, stays as it is. -/
theorem getElem?_step (coherent : Coherent state) {action : Action} {id : ReferenceId}
    (known : id < state.references.size) (stays : .reference id ∉ state.leaving action)
    (kept : ∀ {binding}, .binding binding ∈ state.leaving action →
      .reference id ∉ state.holdersOf binding) :
    (state.step action).1.references[id]? = state.references[id]? := by
  have visible : ∀ {name}, .reference id ∉ state.shadowed name →
      state.scopes.lookupInner name ≠ some (.reference id) := by
    intro name unshadowed meaning
    exact unshadowed (mem_shadowed_iff.mpr ⟨id, rfl, meaning⟩)
  cases action with
  | declareBinding name isMutable tag init =>
      show (State.declare _ name _).references[id]? = _
      rw [getElem?_declare, if_neg (visible stays)]
  | declareReference name kind isMutable target =>
      cases found : state.binding? target with
      | none => simp only [State.step, found]
      | some binding =>
          have unshadowed : .reference id ∉ state.shadowed name := by
            simpa only [leaving, found, Option.isSome_some, if_true] using stays
          have old : id ≠ state.references.size := Nat.ne_of_lt known
          simp only [State.step, found, declareReference_eq]
          rw [getElem?_declare, acquire_scopes, getElem?_acquire old, getElem?_addReference,
            if_neg old]
          exact if_neg (visible unshadowed)
  | rebindReference name target =>
      cases found : state.reference? name with
      | none => simp only [State.step, found]
      | some asking =>
          cases found' : state.binding? target with
          | none => simp only [State.step, found, found']
          | some binding =>
              simp only [State.step, found, found']
              obtain ⟨reference, here, -, -⟩ :=
                State.standing_eq_some_iff.mp (coherent.standing_of_reference? found)
              cases fixed : reference.isMutable with
              | false => rw [rebind_of_not_isMutable here fixed]
              | true =>
                  -- The reference that asks is the one that leaves.
                  have different : id ≠ asking := by
                    rintro rfl
                    exact stays (by simp [leaving, request?, found, found', here, fixed])
                  rw [rebind_of_isMutable here fixed, getElem?_acquire different,
                    getElem?_retarget, if_neg different]
  | assignBinding name value => rw [coherent.step_of_isAccess rfl]
  | assignThrough reference value => rw [coherent.step_of_isAccess rfl]
  | readBinding name => rw [coherent.step_of_isAccess rfl]
  | readThrough path => rw [coherent.step_of_isAccess rfl]
  | enterScope => rfl
  | exitScope =>
      cases closed : state.scopes.exit? with
      | none => rw [step_exitScope_of_exit? closed]
      | some found =>
          obtain ⟨frame, next, outer, stack, rfl⟩ := Scopes.frames_of_exit? closed
          rw [leaving_exitScope stack] at stays kept
          let fewer : State := { state with scopes := { frames := next :: outer } }
          have records : fewer.loans.Records fewer.ledger := coherent.records
          rw [step_exitScope stack]
          exact getElem?_destroyAll records stays kept

end Checker

end Lending
