import Lending.Proofs.Reports
import Lending.Proofs.Windows

/-!
# Only older references dangle

Entities are destroyed in the reverse order of their declarations, whether one scope is left or all
that are open at the end (`Lexical.openAt_pairwise`). So whoever still holds a binding when it is
destroyed was declared before it. Its declaration asked for a binding that was there already, hence
it got this one by a later rebind (`Program.Destroys.reboundToYounger`). Without rebinds nothing can
dangle, and this holds of the machine too, in any program (`Program.only_older_references_dangle`):

* **the checker** — what it reports of a destruction lists the references that hold the binding at
  that moment (`Program.exists_destroys`), and these are windows of the program text;
* **the machine** — as long as nothing is rebound, a reference points to a binding of its own frame
  or of one further out (`Grounded`), which is alive as long as the reference is visible.
-/

namespace Lending

open Checker

/-- Whether the action points a reference to another binding. -/
def Action.isRebind : Action → Bool
  | .rebindReference .. => true
  | _ => false

/-! ## The order of destruction -/

namespace Lexical

variable {actions : List Action} {index count : Nat}

/-- The declarations that are open after `count` statements, in the order in which they would be
destroyed. -/
def openAt (actions : List Action) (count : Nat) : List Nat :=
  (scopesAt actions count).frames.flatMap Scopes.destructionOrder

theorem mem_flatMap_framesBelow {depth : Nat} :
    index ∈ (framesBelow actions count depth).flatMap Scopes.destructionOrder ↔
      ∃ level < depth, ∃ name, (name, index) ∈ frameAt actions count level := by
  simp [framesBelow, Scopes.destructionOrder]

theorem mem_openAt :
    index ∈ openAt actions count ↔ index < count ∧ StillOpen actions index count ∧
      ∃ name, declaredAt actions index = some name := by
  rw [openAt, scopesAt, mem_flatMap_framesBelow]
  constructor
  · rintro ⟨level, -, name, there⟩
    obtain ⟨before, isOpen, -, declares⟩ := mem_frameAt.mp there
    exact ⟨before, isOpen, name, declares⟩
  · rintro ⟨before, isOpen, name, declares⟩
    have reached := isOpen.depthAt_le (Nat.le_of_lt before)
    exact ⟨depthAt actions index, by omega, name, mem_frameAt.mpr ⟨before, isOpen, rfl, declares⟩⟩

/-- **The newest declaration is destroyed first.** The induction is on the depth: what stands in a
deeper frame is newer than all that stands further out. -/
theorem openAt_pairwise (actions : List Action) (count : Nat) :
    (openAt actions count).Pairwise fun newer older => older < newer := by
  unfold openAt scopesAt
  generalize depthAt actions count + 1 = depth
  induction depth with
  | zero => exact List.Pairwise.nil
  | succ depth ih =>
      simp only [framesBelow_succ, List.flatMap_cons]
      refine List.pairwise_append.mpr ⟨?_, ih, ?_⟩
      · exact List.pairwise_map.mpr (frameAt_pairwise actions count depth)
      · intro newer inner older further
        obtain ⟨⟨name, newer⟩, there, rfl⟩ := List.mem_map.mp inner
        obtain ⟨-, isOpen, deep, -⟩ := mem_frameAt.mp there
        obtain ⟨level, below, _, there'⟩ := mem_flatMap_framesBelow.mp further
        obtain ⟨before, -, deep', -⟩ := mem_frameAt.mp there'
        exact isOpen.lt_of_depthAt_lt (Nat.le_of_lt before) (by omega)

end Lexical

open Lexical

namespace Program

variable {program : Program} {count : Nat}

theorem entities_stateAt (valid : program.errors = []) (bound : count ≤ program.actions.length) :
    entities (program.stateAt count).scopes.frames =
      (openAt program.actions count).map (entityAt program.actions) := by
  rw [scopes_stateAt valid bound, entities, openAt]
  simp only [Scopes.map, List.flatMap_map, Scopes.destructionOrder_mapFrame, List.map_flatMap]

/-- The open declarations are cut at the one that is destroyed: what is gone stands before it. -/
theorem exists_openAt_eq (valid : program.errors = []) (bound : count ≤ program.actions.length)
    {lent : Nat} {name : String} {gone left : List Entity}
    (order : entities (program.stateAt count).scopes.frames =
      gone ++ entityAt program.actions lent :: left)
    (declares : declaredAt program.actions lent = some name) :
    ∃ newer older, openAt program.actions count = newer ++ lent :: older ∧
      gone = newer.map (entityAt program.actions) := by
  rw [entities_stateAt valid bound, List.map_eq_append_iff] at order
  obtain ⟨newer, rest, split, rfl, same⟩ := order
  obtain ⟨destroyed, older, rfl, entity, rfl⟩ := List.map_eq_cons_iff.mp same
  have there : destroyed ∈ openAt program.actions count := by
    rw [split]
    simp
  obtain ⟨-, -, _, declares'⟩ := mem_openAt.mp there
  obtain rfl := eq_of_entityAt_eq declares' declares entity
  exact ⟨newer, older, split, rfl⟩

/-- What is still there when an open declaration is destroyed is older than it. -/
theorem lt_of_not_mem_gone (valid : program.errors = []) (bound : count ≤ program.actions.length)
    {lent declared : Nat} {name : String} {gone left : List Entity}
    (order : entities (program.stateAt count).scopes.frames =
      gone ++ entityAt program.actions lent :: left)
    (declares : declaredAt program.actions lent = some name)
    (isOpen : declared ∈ openAt program.actions count)
    (remains : entityAt program.actions declared ∉ gone) (different : declared ≠ lent) :
    declared < lent := by
  obtain ⟨newer, older, split, rfl⟩ := exists_openAt_eq valid bound order declares
  have sorted := openAt_pairwise program.actions count
  rw [split] at isOpen sorted
  rcases List.mem_append.mp isOpen with gone | left
  · exact absurd (List.mem_map_of_mem gone) remains
  · have after := (List.mem_cons.mp left).resolve_left different
    exact List.rel_of_pairwise_cons (List.pairwise_append.mp sorted).2.1 after

/-! ## Destructions -/

/-- After `count` statements `entity` is destroyed in `state`: by a scope exit, or at the end of the
program. What comes before it in the order of destruction is gone by then. -/
inductive Destroys (program : Program) (count : Nat) : State → Entity → Prop
  | leaving {gone left : List Entity} {entity : Entity} {outer : Scopes Entity} :
      program.actions[count]? = some .exitScope →
      (program.stateAt count).scopes.exit? = some (gone ++ entity :: left, outer) →
      Destroys program count
        ({ program.stateAt count with scopes := outer }.destroyAll gone).1 entity
  | finishing {gone left : List Entity} {entity : Entity} {outer : Scopes Entity} :
      program.actions.length = count →
      (program.stateAt count).scopes.finish = (gone ++ entity :: left, outer) →
      Destroys program count
        ({ program.stateAt count with scopes := outer }.destroyAll gone).1 entity

/-- **A reference that was rebound to a younger binding**, and still has the window that this
opened. -/
structure ReboundToYounger (program : Program) (count declared lent asked : Nat) : Prop where
  declares : ∃ name kind initial,
    program.actions[declared]? = some (.declareReference name kind true initial)
  /-- The reference is older than the binding. -/
  older : declared < lent
  /-- The binding was there when it was asked for. -/
  after : lent < asked
  /-- It was asked for by a rebind of this reference to this binding. -/
  rebinds : ∃ called target,
    program.actions[asked]? = some (.rebindReference called target) ∧
    resolve program.actions asked called = some declared ∧
    resolve program.actions asked target = some lent
  /-- The loan was granted and has not ended. -/
  window : program.Window count declared lent asked

variable {state : State} {entity : Entity} {id : BindingId} {holder : ReferenceId}

theorem Destroys.exists_gone (destroys : program.Destroys count state entity) :
    count ≤ program.actions.length ∧ ∃ gone left outer,
      entities (program.stateAt count).scopes.frames = gone ++ entity :: left ∧
      state = ({ program.stateAt count with scopes := outer }.destroyAll gone).1 := by
  cases destroys with
  | @leaving gone left _ outer here closed =>
      refine ⟨Nat.le_of_lt (List.getElem?_eq_some_iff.mp here).1, gone, ?_⟩
      obtain ⟨frame, next, others, stack, same⟩ := Scopes.frames_of_exit? closed
      obtain ⟨inner, -⟩ := Prod.mk.inj same
      refine ⟨left ++ entities (next :: others), outer, ?_, rfl⟩
      rw [stack, entities, List.flatMap_cons, ← inner, List.append_assoc, List.cons_append]
      rfl
  | @finishing gone left _ outer last closed =>
      exact ⟨by omega, gone, left, outer, congrArg Prod.fst closed, rfl⟩

/-- Who holds the binding that is destroyed held it before, and is not gone. -/
theorem mem_holdersOf_of_destroyAll {gone : List Entity} {outer : Scopes Entity}
    (holds : holder ∈
      ({ program.stateAt count with scopes := outer }.destroyAll gone).1.loans.liveReferences id) :
    .reference holder ∈ (program.stateAt count).holdersOf id ∧ .reference holder ∉ gone := by
  let closing : State := { program.stateAt count with scopes := outer }
  have records : closing.loans.Records closing.ledger := (program.coherent_stateAt count).records
  have held : .reference holder ∈ (closing.destroyAll gone).1.holdersOf id :=
    mem_filterMap_reference?.mp holds
  rw [State.holdersOf_destroyAll records] at held
  split at held
  · exact absurd held (by simp)
  · obtain ⟨before, outlives⟩ := List.mem_filter.mp held
    exact ⟨before, by simpa [Holder.outlives] using outlives⟩

/-- **Whoever holds a binding when it is destroyed** was rebound to it, and is older. -/
theorem Destroys.reboundToYounger (valid : program.errors = [])
    (destroys : program.Destroys count state (.binding id)) :
    ∃ lent, bindingNumber program.actions lent = id ∧
      (∃ name isMutable tag init,
        program.actions[lent]? = some (.declareBinding name isMutable tag init)) ∧
      ∀ holder ∈ state.loans.liveReferences id, ∃ declared asked,
        referenceNumber program.actions declared = holder ∧
        program.ReboundToYounger count declared lent asked := by
  obtain ⟨bound, gone, left, outer, order, rfl⟩ := destroys.exists_gone
  obtain ⟨lent, name, -, declares, entity⟩ := exists_declaredAt_of_mem_entities valid bound
    (show .binding id ∈ entities (program.stateAt count).scopes.frames by rw [order]; simp)
  obtain ⟨number, name', isMutable, tag, init, there⟩ :=
    exists_declareBinding_of_entityAt declares entity
  refine ⟨lent, number, ⟨name', isMutable, tag, init, there⟩, ?_⟩
  intro holder holds
  obtain ⟨held, remains⟩ := mem_holdersOf_of_destroyAll holds
  have records := (program.coherent_stateAt count).records
  obtain ⟨kind, entered⟩ := (State.mem_holdersOf_iff records).mp held
  obtain ⟨reference, known, -⟩ := State.ledger_eq_some_iff.mp entered
  obtain ⟨declared, -, rfl, _, _, _, _, here⟩ :=
    exists_declareReference_of_lt valid bound (Array.getElem?_eq_some_iff.mp known).1
  rw [← number] at held
  obtain ⟨asked, window⟩ := (mem_holdersOf_iff_window valid bound there here).mp held
  have isReference := entityAt_of_declareReference here
  have older : declared < lent := by
    rw [← entity] at order
    rw [← isReference] at remains
    have isOpen := mem_openAt.mpr ⟨window.declared_lt, window.isOpen, _,
      declaredAt_of_declaredName valid here rfl⟩
    refine lt_of_not_mem_gone valid bound order declares isOpen remains ?_
    rintro rfl
    exact absurd (there.symm.trans here) (by simp)
  refine ⟨declared, asked, rfl, ?_⟩
  obtain ⟨target, last, resolved⟩ := window.asks
  have after := (resolve_eq_some_iff.mp resolved).before
  -- A declaration asks for a binding that is there already, which `lent` was not.
  cases last.asks with
  | declaration => omega
  | rebind declares rebinds resolved' =>
      exact ⟨⟨_, _, _, declares⟩, older, after, ⟨_, _, rebinds, resolved', resolved⟩, window⟩

end Program

/-! ## Reports of destructions -/

namespace Checker

variable {state : State} {violation : Violation}

theorem State.kind_temporaryRead {id : BindingId}
    (found : violation ∈ (state.temporaryRead id).2) : violation.kind = .exclusivity := by
  unfold State.temporaryRead at found
  split at found
  · exact absurd found (by simp)
  · rw [List.mem_singleton.mp found]
    rfl

/-- References dangle nowhere but where a scope is left. -/
theorem eq_exitScope_of_kind {action : Action} (found : violation ∈ (state.step action).2)
    (kind : violation.kind = .danglingReferent) : action = .exitScope := by
  have owner : ∀ {id access}, violation ∉ state.ownerAccess id access := by
    intro id access here
    obtain ⟨held, -, -, rfl⟩ := State.mem_ownerAccess here
    exact absurd kind (by simp [Violation.kind])
  cases State.Reports.of_step found with
  | read here => exact absurd here owner
  | write meaning here => exact absurd here owner
  | immutable name => exact absurd kind (by simp [Violation.kind])
  | asked loans here => exact absurd ((kind_acquire here).symm.trans kind) (by simp)
  | borrowed meaning here =>
      exact absurd ((State.kind_temporaryRead here).symm.trans kind) (by simp)
  | destroyed here => rfl

/-- What is reported of several destructions is reported of one of them, and of a binding. -/
theorem exists_gone_of_mem_destroyAll {all : List Entity}
    (found : violation ∈ (state.destroyAll all).2) :
    ∃ gone id left, all = gone ++ .binding id :: left ∧
      violation ∈ ((state.destroyAll gone).1.destroy (.binding id)).2 := by
  induction all generalizing state with
  | nil => exact absurd found (by simp [State.destroyAll])
  | cons entity rest ih =>
      rw [State.snd_destroyAll_cons, List.mem_append] at found
      rcases found with here | later
      · cases entity with
        | reference id => exact absurd here (by simp [State.destroy])
        | binding id => exact ⟨[], id, rest, rfl, here⟩
      · obtain ⟨gone, id, left, rfl, here⟩ := ih later
        exact ⟨entity :: gone, id, left, rfl, here⟩

end Checker

namespace Program

variable {program : Program}

theorem exists_destroys_of_exitScope {count : Nat} {violation : Violation}
    (here : program.actions[count]? = some .exitScope)
    (found : violation ∈ ((program.stateAt count).step .exitScope).2) :
    ∃ state id, program.Destroys count state (.binding id) ∧
      violation ∈ (state.destroy (.binding id)).2 := by
  cases closed : (program.stateAt count).scopes.exit? with
  | none =>
      rw [step_exitScope_of_exit? closed] at found
      exact absurd found (by simp)
  | some result =>
      obtain ⟨all, outer⟩ := result
      simp only [State.step, closed] at found
      obtain ⟨gone, id, left, rfl, destroyed⟩ := exists_gone_of_mem_destroyAll found
      exact ⟨_, id, .leaving here closed, destroyed⟩

theorem exists_destroys_of_finish {violation : Violation}
    (found : violation ∈ (program.stateAt program.actions.length).finish.2) :
    ∃ state id, program.Destroys program.actions.length state (.binding id) ∧
      violation ∈ (state.destroy (.binding id)).2 := by
  obtain ⟨gone, id, left, all, destroyed⟩ := exists_gone_of_mem_destroyAll found
  exact ⟨_, id, .finishing rfl (Prod.ext all rfl), destroyed⟩

/-- **Every report of a dangling reference** is one of a destruction, and lists all that hold the
binding at that moment. -/
theorem exists_destroys (valid : program.errors = []) {diagnostic : Diagnostic}
    (reported : diagnostic ∈ program.analyze .lexical)
    (kind : diagnostic.violation.kind = .danglingReferent) :
    ∃ count state id, program.Destroys count state (.binding id) ∧
      state.loans.liveReferences id ≠ [] ∧
      diagnostic = {
        violation := .danglingReferent (state.bindingName id)
          ((state.loans.liveReferences id).map state.referenceName)
        position := some (program.position count) } := by
  obtain ⟨count, placed, state, id, destroys, found⟩ : ∃ count,
      diagnostic.position = some (program.position count) ∧ ∃ state id,
        program.Destroys count state (.binding id) ∧
        diagnostic.violation ∈ (state.destroy (.binding id)).2 := by
    rw [analyze_of_valid valid, walk, mem_diagnosticsFrom_iff] at reported
    simp only [Nat.zero_add] at reported
    rcases reported with ⟨count, statement, here, placed, found⟩ | ⟨placed, found⟩
    · have exits := eq_exitScope_of_kind found kind
      have here' : program.actions[count]? = some .exitScope := by
        rw [actions, List.getElem?_map, here, Option.map_some, exits]
      rw [List.map_take, exits] at found
      refine ⟨count, ?_, exists_destroys_of_exitScope here' found⟩
      simp only [placed, position, here]
    · refine ⟨program.actions.length, ?_, exists_destroys_of_finish ?_⟩
      · simp [placed, position, length_actions]
      · rw [stateAt, List.take_length]
        exact found
  rw [State.snd_destroy_binding] at found
  split at found
  · exact absurd found (by simp)
  · rename_i held
    refine ⟨count, state, id, destroys, by simpa using held, ?_⟩
    obtain ⟨violation, position⟩ := diagnostic
    rw [Diagnostic.mk.injEq]
    exact ⟨List.mem_singleton.mp found, placed⟩

end Program

/-! ## The machine without rebinds -/

namespace Evaluation

/-- Every reference of the frames points to a binding of its own frame or of one further out. -/
def Grounded (targets : Array Nat) : List (Frame Denoted) → Prop
  | [] => True
  | frame :: outer =>
      (∀ {name id}, (name, .reference id) ∈ frame → ∃ slot, targets[id]? = some slot ∧
        .binding slot ∈ (frame :: outer).flatMap Scopes.destructionOrder) ∧ Grounded targets outer

variable {targets : Array Nat} {frames : List (Frame Denoted)}

/-- What is declared later gets a number of its own. -/
theorem Grounded.push (grounded : Grounded targets frames) (slot : Nat) :
    Grounded (targets.push slot) frames := by
  induction frames with
  | nil => trivial
  | cons frame outer ih =>
      refine ⟨?_, ih grounded.2⟩
      intro name id there
      obtain ⟨slot', found, bound⟩ := grounded.1 there
      have known := (Array.getElem?_eq_some_iff.mp found).1
      refine ⟨slot', ?_, bound⟩
      rw [Array.getElem?_push, if_neg (Nat.ne_of_lt known), found]

/-- A declaration keeps the frames grounded if what it declares is. -/
theorem Grounded.declare {scopes : Scopes Denoted} (grounded : Grounded targets scopes.frames)
    (name : String) {entity : Denoted}
    (points : ∀ {id}, entity = .reference id → ∃ slot, targets[id]? = some slot ∧
      .binding slot ∈ scopes.frames.flatMap Scopes.destructionOrder) :
    Grounded targets (scopes.declare name entity).frames := by
  obtain ⟨frames⟩ := scopes
  cases frames with
  | nil => trivial
  | cons frame outer =>
      refine ⟨?_, grounded.2⟩
      intro name' id there
      have found : ∃ slot, targets[id]? = some slot ∧
          .binding slot ∈ (frame :: outer).flatMap Scopes.destructionOrder := by
        rcases List.mem_cons.mp there with new | old
        · exact points (Prod.mk.inj new).2.symm
        · exact grounded.1 old
      obtain ⟨slot, target, declared⟩ := found
      exact ⟨slot, target, List.mem_cons_of_mem _ declared⟩

theorem Grounded.of_exit? {scopes outer : Scopes Denoted} {gone : List Denoted}
    (grounded : Grounded targets scopes.frames) (closed : scopes.exit? = some (gone, outer)) :
    Grounded targets outer.frames := by
  obtain ⟨frame, next, others, stack, same⟩ := Scopes.frames_of_exit? closed
  obtain ⟨-, rfl⟩ := Prod.mk.inj same
  rw [stack] at grounded
  exact grounded.2

/-- **A statement that rebinds nothing** keeps the frames grounded. -/
theorem Grounded.step {machine after : Machine} {action : Action} {reading : Option Reading}
    (grounded : Grounded machine.targets machine.scopes.frames) (fixed : action.isRebind = false)
    (stepped : machine.step action = .ok (after, reading)) :
    Grounded after.targets after.scopes.frames := by
  cases Machine.Effect.of_step stepped with
  | declareBinding => exact grounded.declare _ (fun impossible => absurd impossible (by simp))
  | @declareReference name kind isMutable target slot found =>
      refine (grounded.push slot).declare name (fun {id} same => ⟨slot, ?_, ?_⟩)
      · rw [← Denoted.reference.inj same, Array.getElem?_push_size]
      · exact Scopes.mem_flatMap_of_lookup (Machine.bindingSlot_eq_ok_iff.mp found)
  | rebindReference => exact absurd fixed (by simp [Action.isRebind])
  | assignBinding | assignThrough => exact grounded
  | readBinding | readBorrowed | readThrough => exact grounded
  | enterScope => exact ⟨fun impossible => absurd impossible (by simp), grounded⟩
  | @exitScope entities scopes closed =>
      obtain ⟨scopes', targets, -⟩ := Machine.foldl_kill_frame entities { machine with scopes }
      rw [scopes', targets]
      exact grounded.of_exit? closed
  | exitNothing => exact grounded

theorem grounded_run {actions : List Action} {machine : Machine}
    (fixed : ∀ action ∈ actions, action.isRebind = false)
    (reached : machineAfter {} actions = .ok machine) :
    Grounded machine.targets machine.scopes.frames := by
  induction actions using List.reverseRecOn generalizing machine with
  | nil =>
      obtain rfl : {} = machine := Except.ok.inj reached
      exact ⟨fun impossible => absurd impossible (by simp), trivial⟩
  | append_singleton before action ih =>
      obtain ⟨machine', reading, reached', stepped⟩ := machineAfter_snoc_eq_ok_iff.mp reached
      have grounded := ih (fun other there => fixed other (List.mem_append_left _ there)) reached'
      exact grounded.step (fixed action (by simp)) stepped

theorem Grounded.exists_slot (grounded : Grounded targets frames) {frame : Frame Denoted}
    (inside : frame ∈ frames) {name : String} {id : Nat} (there : (name, .reference id) ∈ frame) :
    ∃ slot, targets[id]? = some slot ∧
      .binding slot ∈ frames.flatMap Scopes.destructionOrder := by
  induction frames with
  | nil => exact absurd inside (by simp)
  | cons first outer ih =>
      rcases List.mem_cons.mp inside with rfl | further
      · exact grounded.1 there
      · obtain ⟨slot, target, declared⟩ := ih grounded.2 further
        exact ⟨slot, target, List.mem_append_right _ declared⟩

end Evaluation

/-- A run without rebinds meets no dead slot, whether the program is valid or not. -/
theorem Program.run_ne_danglingReference {program : Program}
    (fixed : ∀ action ∈ program.actions, action.isRebind = false) (index : Nat) (name : String) :
    program.run ≠ .error ⟨index, .danglingReference name⟩ := by
  intro failed
  obtain ⟨machine, action, reached, -, fault⟩ := Program.exists_step_of_run_error failed
  obtain ⟨-, id, slot, meaning, target, dead⟩ :=
    Evaluation.Machine.derefSlot_eq_dangling_iff.mp
      (Evaluation.Machine.derefSlot_of_step_error fault)
  have grounded := Evaluation.grounded_run
    (fun action there => fixed action (List.mem_of_mem_take there)) reached
  obtain ⟨frame, inside, found⟩ := Scopes.exists_frame_of_lookup meaning
  obtain ⟨slot', target', declared⟩ := grounded.exists_slot inside (mem_of_lookup found)
  obtain rfl : slot = slot' := Option.some.inj (target.symm.trans target')
  -- A binding that stands in an open frame has a live slot.
  have alive := ((agrees_run reached).isAlive_iff (coherent_stateAfter _)).mpr declared
  exact absurd (alive.symm.trans dead) (by simp)

/-- **Only references older than their referent can dangle.** In a valid program each report of a
dangling reference comes from the destruction of a binding and lists all that hold it at that
moment, and each of these is older than the binding and was rebound to it after its declaration. A
program that rebinds nothing has no such report, and whether it is valid or not, its run never meets
a dead slot. -/
theorem Program.only_older_references_dangle (program : Program) :
    (program.errors = [] →
      (∀ diagnostic ∈ program.analyze .lexical, diagnostic.violation.kind = .danglingReferent →
        ∃ count state id, program.Destroys count state (.binding id) ∧
          state.loans.liveReferences id ≠ [] ∧
          diagnostic = {
            violation := .danglingReferent (state.bindingName id)
              ((state.loans.liveReferences id).map state.referenceName)
            position := some (program.position count) }) ∧
      ∀ count state id, program.Destroys count state (.binding id) →
        ∃ lent, bindingNumber program.actions lent = id ∧
          (∃ name isMutable tag init,
            program.actions[lent]? = some (.declareBinding name isMutable tag init)) ∧
          ∀ holder ∈ state.loans.liveReferences id, ∃ declared asked,
            referenceNumber program.actions declared = holder ∧
            program.ReboundToYounger count declared lent asked) ∧
    ((∀ action ∈ program.actions, action.isRebind = false) →
      (program.errors = [] → ∀ diagnostic ∈ program.analyze .lexical,
        diagnostic.violation.kind ≠ .danglingReferent) ∧
      ∀ index name, program.run ≠ .error ⟨index, .danglingReference name⟩) := by
  refine ⟨fun valid => ⟨fun _ => exists_destroys valid, fun _ _ _ destroys =>
    destroys.reboundToYounger valid⟩, fun fixed => ⟨?_, run_ne_danglingReference fixed⟩⟩
  intro valid diagnostic reported kind
  obtain ⟨count, state, id, destroys, held, -⟩ := exists_destroys valid reported kind
  obtain ⟨lent, -, -, rebound⟩ := destroys.reboundToYounger valid
  obtain ⟨holder, holds⟩ := List.exists_mem_of_ne_nil _ held
  obtain ⟨declared, asked, -, younger⟩ := rebound holder holds
  obtain ⟨called, target, rebinds, -⟩ := younger.rebinds
  exact absurd (fixed _ (List.mem_of_getElem? rebinds)) (by simp [Action.isRebind])

/-- `let a; let mut r = &a; { let c; let mut q = &c; let c; rebind r -> c; rebind q -> c; read *r;`:
two frames are open at the end, and the second `c` goes first. -/
def sinking : Program where
  statements := [
    { action := .declareBinding "a" false "i32" none },
    { action := .declareReference "r" .shared true "a" },
    { action := .enterScope },
    { action := .declareBinding "c" false "i32" none },
    { action := .declareReference "q" .shared true "c" },
    { action := .declareBinding "c" false "i32" none },
    { action := .rebindReference "r" "c" },
    { action := .rebindReference "q" "c" },
    { action := .readThrough (.deref "r") }]

/-- Both references, from two frames, are older than the second `c`. Before the rebinds nothing can
dangle. -/
theorem Program.only_older_references_dangle_sinking :
    sinking.errors = [] ∧
    (∃ count state id, sinking.Destroys count state (.binding id) ∧
      state.loans.liveReferences id ≠ [] ∧
      ({ violation := .danglingReferent "c" ["r", "q"], position := some (.atEnd 9) } :
        Diagnostic) = {
          violation := .danglingReferent (state.bindingName id)
            ((state.loans.liveReferences id).map state.referenceName)
          position := some (sinking.position count) }) ∧
    (∃ state, sinking.Destroys 9 state (.binding 2) ∧ state.loans.liveReferences 2 = [0, 1] ∧
      ∃ lent, bindingNumber sinking.actions lent = 2 ∧ ∀ holder ∈ [0, 1], ∃ declared asked,
        referenceNumber sinking.actions declared = holder ∧
        sinking.ReboundToYounger 9 declared lent asked) ∧
    (∀ action ∈ (sinking.take 6).actions, action.isRebind = false) ∧
    (sinking.take 6).errors = [] ∧
    (∀ diagnostic ∈ (sinking.take 6).analyze .lexical,
      diagnostic.violation.kind ≠ .danglingReferent) ∧
    ∀ index name, (sinking.take 6).run ≠ .error ⟨index, .danglingReference name⟩ := by
  have valid : sinking.errors = [] := by decide
  have valid' : (sinking.take 6).errors = [] := by decide
  have fixed : ∀ action ∈ (sinking.take 6).actions, action.isRebind = false := by decide
  have last : (sinking.stateAt 9).scopes.finish =
      ([] ++ .binding 2 :: [.reference 1, .binding 1, .reference 0, .binding 0], ⟨[]⟩) := by decide
  have destroys := Program.Destroys.finishing (show sinking.actions.length = 9 from rfl) last
  obtain ⟨reports, destructions⟩ := (Program.only_older_references_dangle sinking).1 valid
  obtain ⟨lent, number, -, rebound⟩ := destructions 9 _ 2 destroys
  obtain ⟨silent, alive⟩ := (Program.only_older_references_dangle (sinking.take 6)).2 fixed
  exact ⟨valid, reports _ (by decide) rfl, ⟨_, destroys, by decide, lent, number, rebound⟩, fixed,
    valid', silent valid', alive⟩

end Lending
