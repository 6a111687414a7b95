import Lending.Proofs.Destruction
import Lending.Proofs.Footprint

/-!
# Lost loans

Nothing is reported where a reference is followed that holds no loan. That is sound because the loss
was reported before: a reference that a name can still mean has not ended, and if it is not live then
the walk has said so, at the request that was refused or at the scope exit that took its target
(`Program.losses_reported`).

The argument is about the past of a reference, and so it is carried along the walk:

* **a statement** — it leaves a reference alone, ends it, grants or refuses what the reference asks
  for, or destroys its target, and refusals and destructions come with a report (`Fate`,
  `Invariant.fate`). There is one lemma for each operation of the checker that can do any of this;
* **the walk** — hence each reference that has not ended has a history: its last request, which is for
  the binding that it points to, and the report of its loss, if there was one
  (`Program.LoanHistory`). It is carried from one statement to the next (`LoanHistory.succ`,
  `LoanHistory.of_answered`, `LoanHistory.of_orphaned`).
-/

namespace Lending

open Checker Lexical

/-! ## What a statement makes of a reference -/

namespace Checker

variable {state : State} {action : Action} {id : ReferenceId} {reference after : Reference}

/-- The reference holds a binding that is destroyed with `gone`, and is named in the report. -/
structure Orphaned (state : State) (gone : List Entity) (reports : List Violation)
    (id : ReferenceId) (reference : Reference) : Prop where
  known : state.references[id]? = some reference
  live : reference.status = .live
  target_mem : .binding reference.target ∈ gone
  reported : ∃ names, reference.name ∈ names ∧
    .danglingReferent (state.bindingName reference.target) names ∈ reports

/-- The reference that asked has got its loan, or a refusal is reported under its name. -/
def Answered (state : State) (reports : List Violation) (reference : Reference) : Prop :=
  reference.status = .live ∨ reference.status = .rejected ∧ ∃ held holders,
    .exclusivity (state.bindingName reference.target) reference.kind (some reference.name) held
      holders ∈ reports

/-- **What an action makes of a reference**, of which `after` is known from then on. -/
inductive Fate (state : State) (action : Action) (id : ReferenceId) (after : Reference) : Prop
  /-- It asks for nothing, and stays as it is. -/
  | kept : state.references[id]? = some after →
      (∀ {target}, state.request? action ≠ some (id, target)) → Fate state action id after
  | ended : after.status = .ended → Fate state action id after
  | answered : state.request? action = some (id, after.target) →
      Answered state (state.step action).2 after → Fate state action id after
  | orphaned {before : Reference} :
      action = .exitScope → after = { before with status := .dangling } →
      Orphaned state (state.leaving action) (state.step action).2 id before →
      Fate state action id after

namespace State

theorem referenceName_of_getElem? (known : state.references[id]? = some reference) :
    state.referenceName id = reference.name := by
  rw [referenceName, known]
  rfl

theorem answered_acquire (known : state.references[id]? = some reference)
    (found : (state.acquire id).1.references[id]? = some after) :
    after.target = reference.target ∧ Answered state (state.acquire id).2 after := by
  have set : ∀ {status : Status} {loans : LoanTable},
      ({ state with loans }.setStatus id status).references[id]? = some after →
        after = { reference with status } := by
    intro status loans there
    rw [getElem?_setStatus, if_pos rfl, Option.map_eq_some_iff] at there
    obtain ⟨other, known', rfl⟩ := there
    rw [Option.some.inj (known'.symm.trans known)]
  simp only [acquire, known, LoanTable.acquire] at found ⊢
  cases lent : (state.loans.state reference.target).lend (.reference id) reference.kind with
  | some loans =>
      simp only [lent] at found
      obtain rfl := set found
      exact ⟨rfl, .inl rfl⟩
  | none =>
      simp only [lent] at found ⊢
      obtain rfl := set found
      refine ⟨rfl, .inr ⟨rfl, ?_⟩⟩
      rw [← referenceName_of_getElem? known]
      exact ⟨_, _, List.mem_singleton_self _⟩

theorem declare_cases {name : String} {entity : Entity}
    (found : (state.declare name entity).references[id]? = some after) :
    state.references[id]? = some after ∨ after.status = .ended := by
  rw [getElem?_declare] at found
  split at found
  · obtain ⟨_, -, rfl⟩ := Option.map_eq_some_iff.mp found
    exact .inr rfl
  · exact .inl found

theorem destroy_cases (records : state.loans.Records state.ledger) {entity : Entity}
    (found : (state.destroy entity).1.references[id]? = some after) :
    state.references[id]? = some after ∨ after.status = .ended ∨
      ∃ before : Reference, after = { before with status := .dangling } ∧
        Orphaned state [entity] (state.destroy entity).2 id before := by
  cases entity with
  | reference other =>
      rw [show (state.destroy (.reference other)).1 = state.endReference other from rfl,
        getElem?_endReference] at found
      split at found
      · obtain ⟨_, -, rfl⟩ := Option.map_eq_some_iff.mp found
        exact .inr (.inl rfl)
      · exact .inl found
  | binding binding =>
      rw [getElem?_destroy_binding] at found
      split at found
      · rename_i holds
        obtain ⟨kind, entry⟩ := (mem_liveReferences_iff records).mp holds
        obtain ⟨before, known, live, rfl, -⟩ := ledger_eq_some_iff.mp entry
        rw [known, Option.map_some, Option.some.injEq] at found
        have listed := List.mem_map_of_mem (f := state.referenceName) holds
        rw [referenceName_of_getElem? known] at listed
        refine .inr (.inr ⟨before, found.symm, known, live, List.mem_singleton.mpr rfl, _, listed, ?_⟩)
        rw [snd_destroy_binding, if_neg (by simp [List.ne_nil_of_mem holds])]
        exact List.mem_singleton_self _
      · exact .inl found

theorem destroyAll_cases (records : state.loans.Records state.ledger) {gone : List Entity}
    (found : (state.destroyAll gone).1.references[id]? = some after) :
    state.references[id]? = some after ∨ after.status = .ended ∨
      ∃ before : Reference, after = { before with status := .dangling } ∧
        Orphaned state gone (state.destroyAll gone).2 id before := by
  induction gone generalizing state with
  | nil => exact .inl found
  | cons entity rest ih =>
      rw [destroyAll_cons] at found
      rw [snd_destroyAll_cons]
      rcases ih (records_destroy records entity) found with kept | ended | ⟨before, same, later⟩
      · rcases destroy_cases records kept with kept | ended | ⟨before, same, now⟩
        · exact .inl kept
        · exact .inr (.inl ended)
        · obtain ⟨names, listed, reported⟩ := now.reported
          refine .inr (.inr ⟨before, same, now.known, now.live, ?_, names, listed, ?_⟩)
          · exact List.mem_cons.mpr (.inl (List.mem_singleton.mp now.target_mem))
          · exact List.mem_append_left _ reported
      · exact .inr (.inl ended)
      · -- What is live after a destruction was so before it.
        have known : state.references[id]? = some before := by
          rcases destroy_cases records later.known with kept | ended | ⟨_, rfl, -⟩
          · exact kept
          · exact absurd (later.live.symm.trans ended) (by simp)
          · exact absurd later.live (by simp)
        obtain ⟨names, listed, reported⟩ := later.reported
        refine .inr (.inr ⟨before, same, known, later.live, ?_, names, listed, ?_⟩)
        · exact List.mem_cons_of_mem _ later.target_mem
        · rw [bindingName, destroy_bindings] at reported
          exact List.mem_append_right _ reported

end State

/-- A statement that asks for a loan does so on behalf of one reference, which is told the answer, and
leaves the others alone. -/
theorem Fate.of_acquire {ready : State} {asking : ReferenceId}
    (asks : state.request? action = some (asking, reference.target))
    (known : ready.references[asking]? = some reference) (bindings : ready.bindings = state.bindings)
    (others : ∀ {other : ReferenceId}, other ≠ asking →
      ready.references[other]? = state.references[other]?)
    (reports : (state.step action).2 = (ready.acquire asking).2)
    (found : (ready.acquire asking).1.references[id]? = some after) : Fate state action id after := by
  by_cases same : id = asking
  · subst same
    obtain ⟨points, answered⟩ := State.answered_acquire known found
    rw [← points] at asks
    rw [Answered, ← reports, State.bindingName, bindings] at answered
    exact .answered asks answered
  · rw [State.getElem?_acquire same, others same] at found
    refine .kept found (fun request => same ?_)
    exact (Prod.mk.inj (Option.some.inj (asks.symm.trans request))).1.symm

/-- **One statement, one reference.** -/
theorem Invariant.fate (coherent : Coherent state)
    (found : (state.step action).1.references[id]? = some after) : Fate state action id after := by
  cases action with
  | declareBinding name isMutable tag init =>
      rcases State.declare_cases found with kept | ended
      · exact .kept kept (by simp [State.request?])
      · exact .ended ended
  | declareReference name kind isMutable target =>
      cases meaning : state.binding? target with
      | none =>
          simp only [State.step, meaning] at found
          exact .kept found (by simp [State.request?, meaning])
      | some binding =>
          let ready := state.addReference name kind isMutable binding
          have taken : state.step (.declareReference name kind isMutable target) =
              state.declareReference name kind isMutable binding := by simp [State.step, meaning]
          have added := State.getElem?_addReference state name kind isMutable binding
          rw [taken, State.declareReference_eq] at found
          rcases State.declare_cases found with found | ended
          · refine .of_acquire (by simp [State.request?, meaning]) ((added _).trans (if_pos rfl)) rfl
              (fun different => (added _).trans (if_neg different)) ?_ found
            rw [taken]
            rfl
          · exact .ended ended
  | rebindReference name target =>
      cases meaning : state.reference? name with
      | none =>
          simp only [State.step, meaning] at found
          exact .kept found (by simp [State.request?, meaning])
      | some asking =>
          cases meaning' : state.binding? target with
          | none =>
              simp only [State.step, meaning, meaning'] at found
              exact .kept found (by simp [State.request?, meaning, meaning'])
          | some binding =>
              obtain ⟨reference, known, -, -⟩ :=
                State.standing_eq_some_iff.mp (coherent.standing_of_reference? meaning)
              have taken : state.step (.rebindReference name target) =
                  state.rebind asking binding := by simp [State.step, meaning, meaning']
              cases fixed : reference.isMutable with
              | false =>
                  rw [taken, State.rebind_of_not_isMutable known fixed] at found
                  exact .kept found (by simp [State.request?, meaning, meaning', known, fixed])
              | true =>
                  have moved := fun other =>
                    State.getElem?_retarget state asking other reference binding
                  have pointed : (state.retarget asking reference binding).references[asking]? =
                      some { reference with target := binding } := by
                    rw [moved, if_pos rfl, known, Option.map_some]
                  rw [State.rebind_of_isMutable known fixed] at taken
                  rw [taken] at found
                  refine .of_acquire ?_ pointed rfl
                    (fun different => (moved _).trans (if_neg different)) (by rw [taken]) found
                  simp [State.request?, meaning, meaning', known, fixed]
  | assignBinding | assignThrough | readBinding | readThrough =>
      rw [coherent.step_of_isAccess rfl] at found
      exact .kept found (by simp [State.request?])
  | enterScope => exact .kept found (by simp [State.request?])
  | exitScope =>
      cases closed : state.scopes.exit? with
      | none =>
          rw [step_exitScope_of_exit? closed] at found
          exact .kept found (by simp [State.request?])
      | some result =>
          obtain ⟨frame, next, outer, stack, rfl⟩ := Scopes.frames_of_exit? closed
          let fewer : State := { state with scopes := { frames := next :: outer } }
          have records : fewer.loans.Records fewer.ledger := coherent.records
          rw [step_exitScope stack] at found
          rcases State.destroyAll_cases records found with kept | ended | ⟨before, same, orphaned⟩
          · exact .kept kept (by simp [State.request?])
          · exact .ended ended
          · -- The frame is closed first, which changes neither references nor bindings.
            refine .orphaned rfl same ?_
            rw [leaving_exitScope stack, step_exitScope stack]
            exact ⟨orphaned.known, orphaned.live, orphaned.target_mem, orphaned.reported⟩

end Checker

/-! ## The past of a reference -/

namespace Program

/-- **The history of a loan**, after `count` statements: the reference declared at `declared` asked last
at `asked`, by the name `target`, for the binding declared at `lent`. If it holds no loan, that was
reported when it happened. -/
structure LoanHistory (program : Program) (count declared : Nat) (reference : Reference) (asked : Nat)
    (target : String) (lent : Nat) : Prop where
  last : LastAsk program.actions declared count asked target
  resolved : resolve program.actions asked target = some lent
  /-- What it asked for last is what it points to. -/
  points : entityAt program.actions lent = .binding reference.target
  /-- A refusal is reported under its name where it asked. -/
  refused : reference.status = .rejected → ∃ held holders,
    { violation := .exclusivity target reference.kind (some reference.name) held holders,
      position := some (program.position asked) } ∈ program.analyze .lexical
  /-- The loss of its target is reported, with its name, at the scope exit that destroys it. -/
  orphaned : reference.status = .dangling → ∃ exit names, asked < exit ∧ exit < count ∧
    program.actions[exit]? = some .exitScope ∧ ClosesAt program.actions lent exit ∧
    reference.name ∈ names ∧
    { violation := .danglingReferent target names,
      position := some (program.position exit) } ∈ program.analyze .lexical

variable {program : Program} {action : Action} {count declared lent asked : Nat} {target : String}
variable {reference : Reference}

theorem LoanHistory.succ (history : program.LoanHistory count declared reference asked target lent)
    (unasked : ∀ other, ¬Asks program.actions declared count other) :
    program.LoanHistory (count + 1) declared reference asked target lent where
  last := by
    refine ⟨Nat.lt_succ_of_lt history.last.before, history.last.asks, fun again before => ?_⟩
    rcases Nat.lt_succ_iff_lt_or_eq.mp before with earlier | rfl
    · exact history.last.last again earlier
    · exact absurd again (unasked _)
  resolved := history.resolved
  points := history.points
  refused := history.refused
  orphaned := by
    intro dangling
    obtain ⟨exit, names, after, before, rest⟩ := history.orphaned dangling
    exact ⟨exit, names, after, Nat.lt_succ_of_lt before, rest⟩

/-- Who asks, by the statements, is found to ask by the checker. -/
theorem not_asks_of_request? (valid : program.errors = [])
    (here : program.actions[count]? = some action)
    (quiet : ∀ {binding}, (program.stateAt count).request? action ≠
      some (referenceNumber program.actions declared, binding))
    (other : String) : ¬Asks program.actions declared count other := by
  intro asks
  obtain ⟨lent, resolved, binding, entity⟩ := exists_resolve_of_asks valid asks
  obtain ⟨_, _, _, _, there⟩ := asks.exists_declareReference
  exact quiet ((request?_stateAt valid here).mpr
    ⟨declared, other, lent, asks, resolved, entityAt_of_declareReference there, entity⟩)

/-- A request starts the history anew. -/
theorem LoanHistory.of_answered (valid : program.errors = [])
    (here : program.actions[count]? = some action) {known initial : String} {kind : BorrowKind}
    {isMutable : Bool}
    (there : program.actions[declared]? = some (.declareReference known kind isMutable initial))
    (request : (program.stateAt count).request? action =
      some (referenceNumber program.actions declared, reference.target))
    (answered : Answered (program.stateAt count) ((program.stateAt count).step action).2 reference) :
    ∃ target lent, program.LoanHistory (count + 1) declared reference count target lent := by
  have bound : count ≤ program.actions.length := Nat.le_of_lt (List.getElem?_eq_some_iff.mp here).1
  obtain ⟨other, target, lent, asks, resolved, entity, points⟩ :=
    (request?_stateAt valid here).mp request
  have same : other = declared := by
    obtain ⟨_, _, _, _, there'⟩ := asks.exists_declareReference
    refine eq_of_entityAt_eq (declaredAt_of_declaredName valid there' rfl)
      (declaredAt_of_declaredName valid there rfl) ?_
    rw [entity, entityAt_of_declareReference there]
  subst same
  have last : LastAsk program.actions other (count + 1) count target :=
    ⟨Nat.lt_succ_self count, asks, fun _ => Nat.le_of_lt_succ⟩
  rcases answered with live | ⟨rejected, held, holders, reported⟩
  · exact ⟨target, lent, last, resolved, points, fun rejected => absurd (live.symm.trans rejected)
      (by simp), fun dangling => absurd (live.symm.trans dangling) (by simp)⟩
  · have found := resolve_eq_some_iff.mp resolved
    have named := bindingName_stateAt valid bound
      (mem_openAt.mpr ⟨found.before, found.isOpen, target, found.declared⟩) found.declared points
    rw [named] at reported
    exact ⟨target, lent, last, resolved, points,
      fun _ => ⟨held, holders, (mem_analyze_iff valid here).mpr reported⟩,
      fun dangling => absurd (rejected.symm.trans dangling) (by simp)⟩

/-- What a scope exit destroys is what closes there. -/
theorem closesAt_of_mem_leaving (valid : program.errors = [])
    (here : program.actions[count]? = some .exitScope)
    (declares : declaredAt program.actions lent = some target)
    (leaves : entityAt program.actions lent ∈ (program.stateAt count).leaving .exitScope) :
    ClosesAt program.actions lent count := by
  obtain ⟨name, there⟩ := (entityAt_mem_leaving_iff valid here declares).mp leaves
  have bound : count ≤ program.actions.length := Nat.le_of_lt (List.getElem?_eq_some_iff.mp here).1
  refine ((mem_destroyedAt bound (fun _ => depthAt_pos_of_exitScope valid here)).mp ?_).1
  rw [destroyedAt, here]
  exact List.mem_map.mpr ⟨_, there, rfl⟩

/-- The destruction of the target is the end of it. -/
theorem LoanHistory.of_orphaned (valid : program.errors = [])
    (here : program.actions[count]? = some .exitScope)
    (history : program.LoanHistory count declared reference asked target lent) {id : ReferenceId}
    (orphaned : Orphaned (program.stateAt count) ((program.stateAt count).leaving .exitScope)
      ((program.stateAt count).step .exitScope).2 id reference) :
    program.LoanHistory (count + 1) declared { reference with status := .dangling } asked target
      lent := by
  have bound : count ≤ program.actions.length := Nat.le_of_lt (List.getElem?_eq_some_iff.mp here).1
  have declares := (resolve_eq_some_iff.mp history.resolved).declared
  have next := history.succ (not_asks_of_request? valid here (by simp [State.request?]))
  have closes := closesAt_of_mem_leaving valid here declares (history.points ▸ orphaned.target_mem)
  have named := bindingName_stateAt valid bound
    (mem_openAt.mpr ⟨closes.after, closes.isOpen, target, declares⟩) declares history.points
  obtain ⟨names, listed, reported⟩ := orphaned.reported
  rw [named] at reported
  exact ⟨next.last, next.resolved, next.points, fun rejected => absurd rejected (by simp),
    fun _ => ⟨count, names, history.last.before, Nat.lt_succ_self count, here, closes, listed,
      (mem_analyze_iff valid here).mpr reported⟩⟩

/-- **Every reference that has not ended has a history.** -/
theorem exists_loanHistory (valid : program.errors = []) (bound : count ≤ program.actions.length)
    {known initial : String} {kind : BorrowKind} {isMutable : Bool}
    (there : program.actions[declared]? = some (.declareReference known kind isMutable initial))
    (before : declared < count)
    (found : (program.stateAt count).references[referenceNumber program.actions declared]? =
      some reference)
    (alive : reference.status ≠ .ended) :
    ∃ asked target lent, program.LoanHistory count declared reference asked target lent := by
  -- The induction is on the statements taken. The status changes on the way, so it is not fixed.
  induction count generalizing reference with
  | zero => exact absurd before (Nat.not_lt_zero declared)
  | succ count ih =>
      have here : program.actions[count]? = some program.actions[count] :=
        List.getElem?_eq_getElem bound
      generalize program.actions[count] = action at here
      rw [stateAt_succ here] at found
      -- A declaration asks, so a reference that does not ask was declared before.
      have older : (∀ other, ¬Asks program.actions declared count other) → declared < count := by
        intro unasked
        refine Nat.lt_of_le_of_ne (Nat.le_of_lt_succ before) ?_
        rintro rfl
        exact unasked initial (.declaration there)
      cases (program.coherent_stateAt count).fate found with
      | kept kept quiet =>
          have unasked := not_asks_of_request? valid here quiet
          obtain ⟨asked, target, lent, history⟩ :=
            ih (Nat.le_of_lt bound) (older unasked) kept alive
          exact ⟨asked, target, lent, history.succ unasked⟩
      | ended ended => exact absurd ended alive
      | answered request answered =>
          exact ⟨count, LoanHistory.of_answered valid here there request answered⟩
      | @orphaned live exits same orphaned =>
          subst exits same
          have older := older (not_asks_of_request? valid here (by simp [State.request?]))
          obtain ⟨asked, target, lent, history⟩ :=
            ih (Nat.le_of_lt bound) older orphaned.known (by simp [orphaned.live])
          exact ⟨asked, target, lent, history.of_orphaned valid here orphaned⟩

end Program

/-! ## Uses of references -/

theorem Action.mem_uses_of_mem_dereferences {action : Action} {name : String}
    (used : name ∈ action.dereferences) : ⟨name, true⟩ ∈ action.uses := by
  obtain ⟨⟨name, isDeref⟩, there, rfl⟩ := List.mem_map.mp used
  obtain ⟨mentioned, rfl⟩ := List.mem_filter.mp there
  cases action with
  | declareBinding name isMutable tag init =>
      cases init with
      | none => exact absurd mentioned (by simp [reads, writes])
      | some init => simpa [reads, writes, uses] using mentioned
  | readThrough path =>
      cases path with
      | deref name => simpa [reads, writes, uses] using mentioned
      | borrow name => exact absurd mentioned (by simp [reads, writes])
  | assignBinding | assignThrough => simpa [reads, writes, uses] using mentioned
  | declareReference | rebindReference | readBinding | enterScope | exitScope =>
      exact absurd mentioned (by simp [reads, writes])

/-- **No loan is lost in silence.** A reference that a statement of a valid program follows, to read or
to write, has not ended. If its last request was refused, that was reported under its name at the
statement of the request. If it lost its target, that was reported, with its name, at the scope exit
that destroyed the binding it points to. Both statements come before the one that follows it. -/
theorem Program.losses_reported {program : Program} (valid : program.errors = []) {index : Nat}
    {action : Action} (here : program.actions[index]? = some action) {name : String}
    (used : name ∈ action.dereferences) :
    ∃ declared reference asked target lent,
      resolve program.actions index name = some declared ∧
      (program.stateAt index).reference? name = some (referenceNumber program.actions declared) ∧
      (program.stateAt index).references[referenceNumber program.actions declared]? =
        some reference ∧
      reference.name = name ∧ reference.status ≠ .ended ∧
      program.LoanHistory index declared reference asked target lent := by
  have bound : index ≤ program.actions.length := Nat.le_of_lt (List.getElem?_eq_some_iff.mp here).1
  obtain ⟨id, meaning⟩ := Validation.exists_reference?_of_use rfl
    (Validation.use_eq_nil_of_mem_uses (accepted valid here)
      (Action.mem_uses_of_mem_dereferences used))
  obtain ⟨reference, found, named, alive⟩ :=
    State.standing_eq_some_iff.mp ((program.coherent_stateAt index).standing_of_reference? meaning)
  obtain ⟨declared, resolved, entity⟩ := (reference?_stateAt valid bound).mp meaning
  obtain ⟨rfl, _, _, _, _, there⟩ := entityAt_eq_reference_iff.mp entity
  have alive : reference.status ≠ .ended := by simpa using alive
  obtain ⟨asked, target, lent, history⟩ :=
    exists_loanHistory valid bound there (resolve_eq_some_iff.mp resolved).before found alive
  exact ⟨declared, reference, asked, target, lent, resolved, meaning, found, named, alive, history⟩

/-- `let a; let r = &mut a; let mut q = &a; *q; { let b; rebind q -> b; } *q;`: at its first use `q` has
no loan because of `r`, at the second because `b` is gone. -/
def twiceLost : Program where
  statements := [
    { action := .declareBinding "a" true "i32" none },
    { action := .declareReference "r" .exclusive false "a" },
    { action := .declareReference "q" .shared true "a" },
    { action := .readThrough (.deref "q") },
    { action := .enterScope },
    { action := .declareBinding "b" false "i32" none },
    { action := .rebindReference "q" "b" },
    { action := .exitScope },
    { action := .readThrough (.deref "q") }]

/-- Both losses of `q` are reported, where they happen. -/
theorem Program.losses_reported_twiceLost :
    twiceLost.errors = [] ∧
      (twiceLost.stateAt 3).references[1]?.map (·.status) = some .rejected ∧
      (twiceLost.stateAt 8).references[1]?.map (·.status) = some .dangling ∧
      (∃ asked < 3, ∃ target held holders,
        { violation := .exclusivity target .shared (some "q") held holders,
          position := some (twiceLost.position asked) } ∈ twiceLost.analyze .lexical) ∧
      ∃ exit < 8, twiceLost.actions[exit]? = some .exitScope ∧ ∃ target names, "q" ∈ names ∧
        { violation := .danglingReferent target names,
          position := some (twiceLost.position exit) } ∈ twiceLost.analyze .lexical := by
  have valid : twiceLost.errors = [] := by decide
  have refused : (twiceLost.stateAt 3).references[1]? =
      some { name := "q", kind := .shared, isMutable := true, target := 0, status := .rejected } := by
    decide
  have orphaned : (twiceLost.stateAt 8).references[1]? =
      some { name := "q", kind := .shared, isMutable := true, target := 1, status := .dangling } := by
    decide
  have used : "q" ∈ Action.dereferences (.readThrough (.deref "q")) := by decide
  have first : twiceLost.actions[3]? = some (.readThrough (.deref "q")) := rfl
  have second : twiceLost.actions[8]? = some (.readThrough (.deref "q")) := rfl
  refine ⟨valid, by rw [refused]; rfl, by rw [orphaned]; rfl, ?_, ?_⟩
  · obtain ⟨declared, reference, asked, target, lent, -, meaning, found, -, -, history⟩ :=
      Program.losses_reported valid first used
    have number : (twiceLost.stateAt 3).reference? "q" = some 1 := by decide
    rw [← Option.some.inj (number.symm.trans meaning), refused, Option.some.injEq] at found
    subst found
    exact ⟨asked, history.last.before, target, history.refused rfl⟩
  · obtain ⟨declared, reference, asked, target, lent, -, meaning, found, -, -, history⟩ :=
      Program.losses_reported valid second used
    have number : (twiceLost.stateAt 8).reference? "q" = some 1 := by decide
    rw [← Option.some.inj (number.symm.trans meaning), orphaned, Option.some.injEq] at found
    subst found
    obtain ⟨exit, names, -, before, exits, -, listed, reported⟩ := history.orphaned rfl
    exact ⟨exit, before, exits, target, names, listed, reported⟩

end Lending
