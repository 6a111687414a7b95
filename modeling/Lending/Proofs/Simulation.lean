import Lending.Proofs.Resolution

/-!
# The checker and the machine in step

The checker and the machine number bindings and references alike, so that the number of a binding
is the number of its slot. `Agrees` says how their states are related after the same statements:

* **names** — the stacks of frames are the same up to `denoted`, and exactly the tracked bindings
  have live slots;
* **targets** — a reference points to the same binding in both, and is live or has ended, unless
  something was reported about a reference of its name before (`Accounted`). A refused rebind lets
  the targets drift apart, and a refused loan or a destroyed target leaves the reference without a
  loan; each of them is reported.

Every step of the machine keeps the relation (`Agrees.step`), and so does every run (`agrees_run`).
-/

namespace Lending

open Checker Evaluation

/-- What the machine takes an entity of the checker for. -/
def Entity.denoted : Entity → Denoted
  | .binding id => .binding id
  | .reference id => .reference id

/-- The violation is about a reference called `name`: a loan that it asked for was refused, it was
not allowed to be rebound, or its target was destroyed while it held it. -/
def Violation.Blames (violation : Violation) (name : String) : Prop :=
  match violation with
  | .exclusivity _ _ reference _ _ => reference = some name
  | .immutableAssignment immutable => immutable = name
  | .danglingReferent _ references => name ∈ references
  | _ => False

/-- Something among the violations is about a reference called `name`. -/
def Blamed (past : List Violation) (name : String) : Prop :=
  ∃ violation ∈ past, violation.Blames name

theorem Blamed.append_left {past : List Violation} {name : String} (blamed : Blamed past name)
    (more : List Violation) : Blamed (past ++ more) name := by
  obtain ⟨violation, there, blames⟩ := blamed
  exact ⟨violation, List.mem_append_left _ there, blames⟩

/-- What the checker knows of a reference is true of the machine: it points to the target that the
checker has for it, and it has not lost its loan. -/
def Faithful (targets : Array Nat) (id : ReferenceId) (reference : Reference) : Prop :=
  targets[id]? = some reference.target ∧ (reference.status = .live ∨ reference.status = .ended)

/-- A reference of which this is not true is blamed for something in the past. -/
def Accounted (past : List Violation) (targets : Array Nat) (state : State) : Prop :=
  ∀ id reference, state.references[id]? = some reference →
    Blamed past reference.name ∨ Faithful targets id reference

/-! ## References accounted for -/

variable {past : List Violation} {targets : Array Nat} {state : State}

theorem Accounted.append (accounted : Accounted past targets state) (more : List Violation) :
    Accounted (past ++ more) targets state := by
  intro id reference found
  rcases accounted id _ found with blamed | faithful
  · exact .inl (blamed.append_left more)
  · exact .inr faithful

/-- Ending some references keeps the account. -/
theorem Accounted.of_ended {after : State} (accounted : Accounted past targets state)
    (ended : ∀ id : ReferenceId, after.references[id]? = state.references[id]? ∨
      after.references[id]? =
        state.references[id]?.map fun reference : Reference =>
          { reference with status := .ended }) :
    Accounted past targets after := by
  intro id reference found
  rcases ended id with same | closed
  · rw [same] at found
    exact accounted id _ found
  · rw [closed, Option.map_eq_some_iff] at found
    obtain ⟨before, found, rfl⟩ := found
    rcases accounted id _ found with blamed | faithful
    · exact .inl blamed
    · exact .inr ⟨faithful.1, .inr rfl⟩

theorem Accounted.endReference (accounted : Accounted past targets state) (id : ReferenceId) :
    Accounted past targets (state.endReference id) := by
  refine accounted.of_ended (fun other => ?_)
  rw [State.getElem?_endReference]
  split
  · rename_i same
    rw [same]
    exact .inr rfl
  · exact .inl rfl

theorem Accounted.declare (accounted : Accounted past targets state) (name : String)
    (entity : Entity) : Accounted past targets (state.declare name entity) := by
  refine accounted.of_ended (fun other => ?_)
  rw [State.getElem?_declare]
  split
  · exact .inr rfl
  · exact .inl rfl

/-- A reference that asks for a loan of the binding that it points to is live afterwards, or blamed
for the refusal. -/
theorem Accounted.acquire {id : ReferenceId}
    (others : ∀ {other reference}, other ≠ id → state.references[other]? = some reference →
      Blamed past reference.name ∨ Faithful targets other reference)
    (points : ∀ {reference}, state.references[id]? = some reference →
      targets[id]? = some reference.target) :
    Accounted (past ++ (state.acquire id).2) targets (state.acquire id).1 := by
  cases found : state.references[id]? with
  | none =>
      have nothing : state.acquire id = (state, []) := by simp only [State.acquire, found]
      rw [nothing, List.append_nil]
      intro other reference there
      refine others ?_ there
      rintro rfl
      rw [found] at there
      exact absurd there (by simp)
  | some asking =>
      have elsewhere : ∀ {other reference} {more : List Violation}, other ≠ id →
          state.references[other]? = some reference →
          Blamed (past ++ more) reference.name ∨ Faithful targets other reference := by
        intro other reference more different there
        rcases others different there with blamed | faithful
        · exact .inl (blamed.append_left more)
        · exact .inr faithful
      simp only [State.acquire, found]
      split
      · -- Granted: the reference is live and points to its target.
        rename_i loans granted
        intro other reference there
        rw [State.getElem?_setStatus] at there
        split at there
        · rename_i same
          rw [show ({ state with loans } : State).references = state.references from rfl, found,
            Option.map_some, Option.some.injEq] at there
          have pointed := points found
          rw [← there, same]
          exact .inr ⟨pointed, .inl rfl⟩
        · rename_i different
          exact elsewhere different there
      · -- Refused: the refusal is reported under the name of the reference.
        rename_i refusal refused
        intro other reference there
        rw [State.getElem?_setStatus] at there
        split at there
        · rw [found, Option.map_some, Option.some.injEq] at there
          refine .inl ⟨_, List.mem_append_right _ List.mem_cons_self, ?_⟩
          simp only [State.conflict, Violation.Blames, Option.map_some, State.referenceName, found,
            Option.getD_some, ← there]
        · rename_i different
          exact elsewhere different there

/-- References that lose their target are blamed for it. -/
theorem Accounted.destroy_binding (accounted : Accounted past targets state) (id : BindingId) :
    Accounted (past ++ (state.destroy (.binding id)).2) targets
      (state.destroy (.binding id)).1 := by
  intro other reference found
  rw [State.getElem?_destroy_binding] at found
  split at found
  · rename_i holds
    rw [Option.map_eq_some_iff] at found
    obtain ⟨before, found, rfl⟩ := found
    have some : state.loans.liveReferences id ≠ [] := List.ne_nil_of_mem holds
    refine .inl ⟨.danglingReferent (state.bindingName id)
      ((state.loans.liveReferences id).map state.referenceName), ?_, ?_⟩
    · apply List.mem_append_right
      simp [State.destroy, some]
    · have named : state.referenceName other = before.name := by simp [State.referenceName, found]
      exact List.mem_map.mpr ⟨other, holds, named⟩
  · exact accounted.append _ other _ found

/-! ## The relation -/

/-- **The states of checker and machine after the same statements.** `past` lists the violations
that were reported at these statements. -/
structure Agrees (past : List Violation) (state : State) (machine : Machine) : Prop where
  /-- Names stand for entities of the same sort and number. -/
  scopes : machine.scopes = state.scopes.map Entity.denoted
  /-- The next binding gets the same number in both. -/
  slots_size : machine.slots.size = state.bindings.size
  /-- So does the next reference. -/
  targets_size : machine.targets.size = state.references.size
  /-- The slots of the tracked bindings are alive, and no others. -/
  isAlive_eq : ∀ id, machine.isAlive id = (state.loans.find? id).isSome
  accounted : Accounted past machine.targets state

theorem agrees_init : Agrees [] {} {} where
  scopes := rfl
  slots_size := rfl
  targets_size := rfl
  isAlive_eq := by simp [Machine.isAlive, LoanTable.find?]
  accounted := by
    intro id reference found
    exact absurd found (by simp)

/-! ## Steps -/

variable {machine : Machine}

theorem Agrees.append (agrees : Agrees past state machine) (more : List Violation) :
    Agrees (past ++ more) state machine :=
  ⟨agrees.scopes, agrees.slots_size, agrees.targets_size, agrees.isAlive_eq,
    agrees.accounted.append more⟩

/-- A name stands for the same binding in checker and machine. -/
theorem Agrees.bindingSlot_eq_ok_iff (agrees : Agrees past state machine) {name : String}
    {id : BindingId} : machine.bindingSlot name = .ok id ↔ state.binding? name = some id := by
  rw [Machine.bindingSlot_eq_ok_iff, State.binding?_eq_some_iff, agrees.scopes, Scopes.lookup_map,
    Option.map_eq_some_iff]
  constructor
  · rintro ⟨entity, meaning, same⟩
    cases entity with
    | binding other => rw [meaning, Denoted.binding.inj same]
    | reference other => exact absurd same (by simp [Entity.denoted])
  · intro meaning
    exact ⟨_, meaning, rfl⟩

/-- A name stands for the same reference in checker and machine. -/
theorem Agrees.referenceId_eq_ok_iff (agrees : Agrees past state machine) {name : String}
    {id : ReferenceId} : machine.referenceId name = .ok id ↔ state.reference? name = some id := by
  rw [Machine.referenceId_eq_ok_iff, State.reference?_eq_some_iff, agrees.scopes,
    Scopes.lookup_map, Option.map_eq_some_iff]
  constructor
  · rintro ⟨entity, meaning, same⟩
    cases entity with
    | binding other => exact absurd same (by simp [Entity.denoted])
    | reference other => rw [meaning, Denoted.reference.inj same]
  · intro meaning
    exact ⟨_, meaning, rfl⟩

theorem Agrees.declareBinding (agrees : Agrees past state machine) (name : String)
    (isMutable : Bool) (value : Option Word) :
    Agrees past (state.declareBinding name isMutable) (machine.declareBinding name value) where
  scopes := by
    show machine.scopes.declare name _ = (State.declare _ name _).scopes.map _
    rw [State.declare_scopes, Scopes.map_declare, agrees.scopes, agrees.slots_size]
    rfl
  slots_size := by
    show (machine.slots.push _).size = (State.declare _ name _).bindings.size
    rw [State.declare_bindings, Array.size_push, Array.size_push, agrees.slots_size]
  targets_size := by
    show machine.targets.size = (State.declare _ name _).references.size
    rw [State.size_eq_of_identity (fun id => State.identity_declare _ name _ id)]
    exact agrees.targets_size
  isAlive_eq := by
    intro id
    show ((machine.slots.push _)[id]?.map _).getD false =
      ((State.declare _ name _).loans.find? id).isSome
    rw [State.isSome_find?_declare, Array.getElem?_push, agrees.slots_size]
    show _ = ((state.loans.put _ _).find? id).isSome
    rw [LoanTable.find?_put]
    split
    · rfl
    · exact agrees.isAlive_eq id
  accounted := by
    have unchanged : Accounted past machine.targets
        { state with
          bindings := state.bindings.push { name, isMutable }
          loans := state.loans.register state.bindings.size } := agrees.accounted
    exact unchanged.declare name _

theorem Agrees.declareReference (agrees : Agrees past state machine) (name : String)
    (kind : BorrowKind) (isMutable : Bool) {target : BindingId}
    (tracked : (state.loans.find? target).isSome) :
    Agrees (past ++ (state.declareReference name kind isMutable target).2)
      (state.declareReference name kind isMutable target).1
      (machine.declareReference name target) := by
  have found := state.getElem?_addReference name kind isMutable target state.references.size
  rw [if_pos rfl] at found
  have push : ∀ id, (machine.targets.push target)[id]? =
      if id = state.references.size then some target else machine.targets[id]? := by
    intro id
    rw [Array.getElem?_push, agrees.targets_size]
  rw [State.declareReference_eq]
  refine ⟨?_, ?_, ?_, ?_, ?_⟩
  · show machine.scopes.declare name _ = _
    rw [State.declare_scopes, Scopes.map_declare, State.acquire_scopes, agrees.scopes,
      agrees.targets_size]
    rfl
  · rw [State.declare_bindings, State.acquire_bindings]
    exact agrees.slots_size
  · show (machine.targets.push target).size = _
    rw [Array.size_push, agrees.targets_size]
    rw [State.size_eq_of_identity (fun id => State.identity_declare _ name _ id),
      State.size_eq_of_identity (fun id => State.identity_acquire _ _ id)]
    exact (Array.size_push _).symm
  · intro id
    rw [State.isSome_find?_declare, State.isSome_find?_acquire found tracked]
    exact agrees.isAlive_eq id
  · -- The loan is asked for before the name is declared; neither touches the other references.
    apply Accounted.declare
    apply Accounted.acquire
    · intro other reference different there
      rw [State.getElem?_addReference, if_neg different] at there
      rcases agrees.accounted other _ there with blamed | faithful
      · exact .inl blamed
      · refine .inr ⟨?_, faithful.2⟩
        show (machine.targets.push target)[other]? = _
        rw [push, if_neg different]
        exact faithful.1
    · intro reference there
      rw [found, Option.some.injEq] at there
      show (machine.targets.push target)[_]? = _
      rw [push, if_pos rfl, ← there]

theorem Agrees.rebind (agrees : Agrees past state machine) {id : ReferenceId}
    {reference : Reference} (found : state.references[id]? = some reference) {target : BindingId}
    (tracked : (state.loans.find? target).isSome) :
    Agrees (past ++ (state.rebind id target).2) (state.rebind id target).1
      { machine with targets := machine.targets.modify id fun _ => target } := by
  have bound : id < machine.targets.size := by
    rw [agrees.targets_size]
    exact (Array.getElem?_eq_some_iff.mp found).1
  have moved : ∀ other, (machine.targets.modify id fun _ => target)[other]? =
      if other = id then some target else machine.targets[other]? := by
    intro other
    rw [getElem?_modify_ite, Array.getElem?_eq_getElem bound]
    rfl
  have others : ∀ {other reference'}, other ≠ id → state.references[other]? = some reference' →
      Blamed past reference'.name ∨
        Faithful (machine.targets.modify id fun _ => target) other reference' := by
    intro other reference' different there
    rcases agrees.accounted other _ there with blamed | faithful
    · exact .inl blamed
    · exact .inr ⟨by rw [moved, if_neg different]; exact faithful.1, faithful.2⟩
  refine ⟨?_, ?_, ?_, ?_, ?_⟩
  · rw [State.rebind_scopes]
    exact agrees.scopes
  · rw [State.rebind_bindings]
    exact agrees.slots_size
  · show (machine.targets.modify id _).size = _
    rw [Array.size_modify,
      State.size_eq_of_identity (fun other => State.identity_rebind _ id other _)]
    exact agrees.targets_size
  · intro binding
    rw [State.isSome_find?_rebind id tracked]
    exact agrees.isAlive_eq binding
  · cases fixed : reference.isMutable with
    | false =>
        -- The machine moves the reference and the checker does not, but it says so.
        rw [State.rebind_of_not_isMutable found fixed]
        intro other reference' there
        by_cases same : other = id
        · rw [same, found, Option.some.injEq] at there
          rw [← there]
          exact .inl ⟨_, List.mem_append_right _ List.mem_cons_self, rfl⟩
        · rcases others same there with blamed | faithful
          · exact .inl (blamed.append_left _)
          · exact .inr faithful
    | true =>
        rw [State.rebind_of_isMutable found fixed]
        apply Accounted.acquire
        · intro other reference' different there
          rw [State.getElem?_retarget, if_neg different] at there
          exact others different there
        · intro reference' there
          rw [State.getElem?_retarget, if_pos rfl, found, Option.map_some,
            Option.some.injEq] at there
          show (machine.targets.modify id _)[id]? = _
          rw [moved, if_pos rfl, ← there]

theorem Agrees.destroy (agrees : Agrees past state machine) (entity : Entity) :
    Agrees (past ++ (state.destroy entity).2) (state.destroy entity).1
      (machine.kill entity.denoted) := by
  refine ⟨?_, ?_, ?_, ?_, ?_⟩
  · rw [Machine.kill_scopes, State.destroy_scopes]
    exact agrees.scopes
  · rw [Machine.size_kill, State.destroy_bindings]
    exact agrees.slots_size
  · rw [Machine.kill_targets,
      State.size_eq_of_identity (fun id => State.identity_destroy state entity id)]
    exact agrees.targets_size
  · intro other
    cases entity with
    | binding id =>
        show (machine.kill (.binding id)).isAlive other = _
        rw [Machine.isAlive_kill_binding, State.destroy_binding_loans, LoanTable.find?_remove,
          agrees.isAlive_eq]
        split <;> rfl
    | reference id =>
        show machine.isAlive other = ((state.endReference id).loans.find? other).isSome
        rw [State.isSome_find?_endReference]
        exact agrees.isAlive_eq other
  · rw [Machine.kill_targets]
    cases entity with
    | binding id => exact agrees.accounted.destroy_binding id
    | reference id =>
        show Accounted (past ++ []) machine.targets (state.endReference id)
        rw [List.append_nil]
        exact agrees.accounted.endReference id

theorem Agrees.destroyAll (agrees : Agrees past state machine) (gone : List Entity) :
    Agrees (past ++ (state.destroyAll gone).2) (state.destroyAll gone).1
      ((gone.map Entity.denoted).foldl Machine.kill machine) := by
  induction gone generalizing past state machine with
  | nil => exact agrees.append []
  | cons entity rest ih =>
      have both := ih (agrees.destroy entity)
      rw [List.append_assoc] at both
      exact both

theorem Agrees.store (agrees : Agrees past state machine) (slot : Nat) (value : Word) :
    Agrees past state (machine.store slot value) where
  scopes := agrees.scopes
  slots_size := by
    show (machine.slots.modify slot _).size = _
    rw [Array.size_modify]
    exact agrees.slots_size
  targets_size := agrees.targets_size
  isAlive_eq := by
    intro id
    rw [Machine.isAlive_store]
    exact agrees.isAlive_eq id
  accounted := agrees.accounted

theorem Agrees.enter (agrees : Agrees past state machine) :
    Agrees past { state with scopes := state.scopes.enter }
      { machine with scopes := machine.scopes.enter } where
  scopes := by
    show machine.scopes.enter = state.scopes.enter.map _
    rw [Scopes.map_enter, agrees.scopes]
  slots_size := agrees.slots_size
  targets_size := agrees.targets_size
  isAlive_eq := agrees.isAlive_eq
  accounted := agrees.accounted

theorem Agrees.exitScope (agrees : Agrees past state machine) {entities : List Denoted}
    {scopes : Scopes Denoted} (closed : machine.scopes.exit? = some (entities, scopes)) :
    Agrees (past ++ (state.step .exitScope).2) (state.step .exitScope).1
      (entities.foldl Machine.kill { machine with scopes }) := by
  rw [agrees.scopes, Scopes.exit?_map, Option.map_eq_some_iff] at closed
  obtain ⟨⟨gone, outer⟩, left, same⟩ := closed
  obtain ⟨rfl, rfl⟩ := Prod.mk.inj same
  have fewer : Agrees past { state with scopes := outer }
      { machine with scopes := outer.map Entity.denoted } :=
    ⟨rfl, agrees.slots_size, agrees.targets_size, agrees.isAlive_eq, agrees.accounted⟩
  have stepped : state.step .exitScope = { state with scopes := outer }.destroyAll gone := by
    simp only [State.step, left]
  rw [stepped]
  exact fewer.destroyAll gone

/-- **Steps keep checker and machine in agreement.** -/
theorem Agrees.step (coherent : Coherent state) (agrees : Agrees past state machine)
    {action : Action} {after : Machine} {reading : Option Reading}
    (stepped : machine.step action = .ok (after, reading)) :
    Agrees (past ++ (state.step action).2) (state.step action).1 after := by
  -- Reads and writes of values leave the checker where it is.
  have access : ∀ {after : Machine}, isAccess action = true → Agrees past state after →
      Agrees (past ++ (state.step action).2) (state.step action).1 after := by
    intro after reads still
    rw [coherent.step_of_isAccess reads]
    exact still.append _
  cases Machine.Effect.of_step stepped with
  | declareBinding computed => exact (agrees.declareBinding _ _ _).append _
  | declareReference found =>
      have target := agrees.bindingSlot_eq_ok_iff.mp found
      simp only [State.step, target]
      exact agrees.declareReference _ _ _ (coherent.isSome_find?_of_binding? target)
  | rebindReference found found' =>
      have name := agrees.referenceId_eq_ok_iff.mp found
      have target := agrees.bindingSlot_eq_ok_iff.mp found'
      obtain ⟨reference, here, -, -⟩ :=
        State.standing_eq_some_iff.mp (coherent.standing_of_reference? name)
      simp only [State.step, name, target]
      exact agrees.rebind here (coherent.isSome_find?_of_binding? target)
  | assignBinding computed found => exact access rfl (agrees.store _ _)
  | assignThrough computed found => exact access rfl (agrees.store _ _)
  | readBinding computed => exact access rfl agrees
  | readBorrowed computed => exact access rfl agrees
  | readThrough computed => exact access rfl agrees
  | enterScope => exact agrees.enter.append _
  | exitScope closed => exact agrees.exitScope closed
  | exitNothing none =>
      rw [agrees.scopes, Scopes.exit?_map, Option.map_eq_none_iff] at none
      rw [step_exitScope_of_exit? none]
      exact agrees.append _

/-- **So do runs.** -/
theorem agrees_run {actions : List Action} (reached : machineAfter {} actions = .ok machine) :
    Agrees (violationsAfter {} actions) (stateAfter {} actions) machine := by
  induction actions using List.reverseRecOn generalizing machine with
  | nil =>
      obtain rfl : {} = machine := Except.ok.inj reached
      exact agrees_init
  | append_singleton before action ih =>
      obtain ⟨machine', reading, reached', stepped⟩ := machineAfter_snoc_eq_ok_iff.mp reached
      rw [violationsAfter_snoc, stateAfter_snoc]
      exact (ih reached').step (coherent_stateAfter before) stepped

/-! ## What stands in open frames -/

theorem Entity.denoted_injective : Function.Injective Entity.denoted := by
  intro first second same
  cases first <;> cases second <;> simp_all [Entity.denoted]

/-- The same entities stand in the frames of checker and machine. -/
theorem Agrees.mem_frames_iff (agrees : Agrees past state machine) {entity : Entity} :
    entity.denoted ∈ machine.scopes.frames.flatMap Scopes.destructionOrder ↔
      entity ∈ entities state.scopes.frames := by
  rw [agrees.scopes, Scopes.map, List.flatMap_map]
  simp only [Scopes.destructionOrder_mapFrame]
  rw [← List.map_flatMap]
  exact List.mem_map_of_injective Entity.denoted_injective

/-- **The slots of the bindings that stand in open frames are alive**, and no others. -/
theorem Agrees.isAlive_iff (coherent : Coherent state) (agrees : Agrees past state machine)
    {slot : Nat} : machine.isAlive slot = true ↔
      .binding slot ∈ machine.scopes.frames.flatMap Scopes.destructionOrder := by
  rw [agrees.isAlive_eq, coherent.tracked_iff]
  show _ ↔ (Entity.binding slot).denoted ∈ _
  rw [agrees.mem_frames_iff]
  simp

/-- The references that stand in open frames are known. -/
theorem Agrees.lt_targets_size (coherent : Coherent state) (agrees : Agrees past state machine)
    {id : Nat} (declared : .reference id ∈ machine.scopes.frames.flatMap Scopes.destructionOrder) :
    id < machine.targets.size := by
  have there : .reference id ∈ entities state.scopes.frames :=
    agrees.mem_frames_iff.mp (show (Entity.reference id).denoted ∈ _ from declared)
  obtain ⟨frame, inside, name, entry⟩ := mem_entities.mp there
  obtain ⟨ended, named⟩ := coherent.reference_named inside entry
  obtain ⟨reference, found, -, -⟩ := State.standing_eq_some_iff.mp named
  rw [agrees.targets_size]
  exact (Array.getElem?_eq_some_iff.mp found).1

/-- What a name means as a binding is alive. -/
theorem isAlive_of_bindingSlot {actions : List Action} {machine : Machine}
    (reached : machineAfter {} actions = .ok machine) {name : String} {slot : Nat}
    (found : machine.bindingSlot name = .ok slot) : machine.isAlive slot = true := by
  rw [(agrees_run reached).isAlive_iff (coherent_stateAfter actions)]
  exact Scopes.mem_flatMap_of_lookup (Machine.bindingSlot_eq_ok_iff.mp found)

/-! ## Names of a valid program -/

/-- A use that validation accepts is resolved by the machine. -/
theorem Agrees.resolves (coherent : Coherent state) (agrees : Agrees past state machine)
    {names : Validation.Names} (same : names = state.scopes.map state.declaredAs)
    {mention : NameUse} (accepted : Validation.use names mention.name
      (if mention.isDeref then .reference else .binding) = []) : machine.Resolves mention := by
  obtain ⟨name, isDeref⟩ := mention
  cases isDeref with
  | false =>
      obtain ⟨id, found⟩ := Validation.exists_binding?_of_use same accepted
      exact ⟨id, Machine.bindingSlot_eq_ok_iff.mp (agrees.bindingSlot_eq_ok_iff.mpr found)⟩
  | true =>
      obtain ⟨id, found⟩ := Validation.exists_reference?_of_use same accepted
      obtain ⟨reference, here, -, -⟩ :=
        State.standing_eq_some_iff.mp (coherent.standing_of_reference? found)
      have bound : id < machine.targets.size := by
        rw [agrees.targets_size]
        exact (Array.getElem?_eq_some_iff.mp here).1
      exact ⟨id, machine.targets[id],
        Machine.referenceId_eq_ok_iff.mp (agrees.referenceId_eq_ok_iff.mpr found),
        Array.getElem?_eq_getElem bound⟩

/-! ## References that are not blamed -/

/-- A reference that a name means holds the binding that it points to, unless it is blamed for
something. -/
theorem Agrees.blamed_or_ledger (coherent : Coherent state) (agrees : Agrees past state machine)
    {name : String} {id : ReferenceId} (found : state.reference? name = some id) :
    Blamed past name ∨ ∃ target kind, machine.targets[id]? = some target ∧
      state.ledger id = some (target, kind) := by
  obtain ⟨reference, here, named, isOpen⟩ :=
    State.standing_eq_some_iff.mp (coherent.standing_of_reference? found)
  rw [← named]
  rcases agrees.accounted id _ here with blamed | ⟨points, live | ended⟩
  · exact .inl blamed
  · exact .inr ⟨reference.target, reference.kind, points,
      State.ledger_eq_some_iff.mpr ⟨reference, here, live, rfl, rfl⟩⟩
  · exact absurd ended (of_decide_eq_false isOpen)

/-- What is lent out has a live slot. -/
theorem Agrees.isAlive_of_kind? (agrees : Agrees past state machine) {binding : BindingId}
    {kind : BorrowKind} (lent : (state.loans.state binding).kind? = some kind) :
    machine.isAlive binding = true := by
  rw [agrees.isAlive_eq]
  exact LoanTable.isSome_find?_of_kind? lent

end Lending
