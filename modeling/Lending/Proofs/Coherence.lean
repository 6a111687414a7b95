import Lending.Proofs.Checker
import Lending.Proofs.Scopes

/-!
# Coherence of the checker's state

The checker keeps four things in step with each other: the status and the target of each reference,
the loan table, and the open frames. Here the invariant that ties them together (`Invariant`) is
shown to hold in every state that the walk through a program passes, also between any two
destructions while a scope or the whole program closes:

* **frames** — an operation that leaves names, tracking and endings alone keeps the invariant as
  soon as its table records its ledger (`Invariant.of_frame`);
* **declaration** — a new name in the innermost frame, which ends a reference that it shadows there
  (`Invariant.declare`);
* **destruction** — the frames being closed stay part of the invariant, with a list of what has been
  destroyed of them, so that one entity can be taken at a time (`Invariant.destroyAll`);
* **walks** — statements keep the invariant (`Invariant.step`), so it holds in every state that is
  passed (`Invariant.of_passes`).
-/

namespace Lending.Checker

/-- The entities declared in the given frames, in the order of their destruction. -/
def entities (frames : List (Frame Entity)) : List Entity :=
  frames.flatMap Scopes.destructionOrder

theorem mem_entities {frames : List (Frame Entity)} {entity : Entity} :
    entity ∈ entities frames ↔ ∃ frame ∈ frames, ∃ name, (name, entity) ∈ frame := by
  simp [entities, Scopes.destructionOrder]

theorem mem_entities_of_lookup {frames : List (Frame Entity)} {frame : Frame Entity}
    {name : String} {entity : Entity} (inside : frame ∈ frames)
    (found : List.lookup name frame = some entity) : entity ∈ entities frames :=
  mem_entities.mpr ⟨frame, inside, name, mem_of_lookup found⟩

/-- **The invariant of the checker.** `closing` are the frames that are being closed, innermost
first, and `destroyed` lists the entities of them that have been destroyed already. Between two
statements both are empty. -/
structure Invariant (state : State) (closing : List (Frame Entity)) (destroyed : List Entity) :
    Prop where
  /-- The loan table lends to each live reference its target, and nothing else. -/
  records : state.loans.Records state.ledger
  /-- Some frame is open or being closed. -/
  some_frame : closing ++ state.scopes.frames ≠ []
  /-- No entity is declared twice. -/
  distinct : (entities (closing ++ state.scopes.frames)).Nodup
  /-- A binding is known by the name that it is declared with. -/
  binding_named : ∀ {frame name id}, frame ∈ closing ++ state.scopes.frames →
    (name, .binding id) ∈ frame → state.bindings[id]?.map (·.name) = some name
  /-- So is a reference. -/
  reference_named : ∀ {frame name id}, frame ∈ closing ++ state.scopes.frames →
    (name, .reference id) ∈ frame → ∃ ended, state.standing id = some (name, ended)
  /-- The tracked bindings are those that are declared and not destroyed. -/
  tracked_iff : ∀ id, (state.loans.find? id).isSome ↔
    .binding id ∈ entities (closing ++ state.scopes.frames) ∧ .binding id ∉ destroyed
  /-- A reference that its name means in an open frame has not ended. -/
  visible : ∀ {frame name id}, frame ∈ state.scopes.frames →
    List.lookup name frame = some (.reference id) → state.standing id = some (name, false)
  /-- A reference that has not ended is what its name means in its frame. -/
  shown : ∀ {name id}, state.standing id = some (name, false) →
    ∃ frame ∈ closing ++ state.scopes.frames, List.lookup name frame = some (.reference id)
  /-- What is destroyed stood in a frame that is being closed. -/
  destroyed_closing : ∀ {entity}, entity ∈ destroyed → entity ∈ entities closing
  /-- A destroyed reference has ended. -/
  destroyed_ended : ∀ {id}, .reference id ∈ destroyed →
    ∃ name, state.standing id = some (name, true)

/-- The invariant between two statements. -/
abbrev Coherent (state : State) : Prop := Invariant state [] []

variable {state after : State} {closing : List (Frame Entity)} {destroyed : List Entity}

theorem coherent_init : Coherent {} := by
  have empty : ∀ frame ∈ [] ++ (Scopes.root : Scopes Entity).frames, frame = [] := by
    simp [Scopes.root]
  refine ⟨⟨?_, ?_, fun _ => trivial⟩, by simp [Scopes.root], ?_, ?_, ?_, ?_, ?_, ?_, ?_, ?_⟩
  · simp [LoanTable.state, LoanTable.find?, LoanState.holders, State.ledger]
  · simp [State.ledger]
  · simp [entities, Scopes.root, Scopes.destructionOrder]
  · intro frame name id inside there
    rw [empty frame inside] at there
    exact absurd there (by simp)
  · intro frame name id inside there
    rw [empty frame inside] at there
    exact absurd there (by simp)
  · simp [entities, Scopes.root, Scopes.destructionOrder, LoanTable.find?]
  · intro frame name id inside found
    rw [empty frame inside] at found
    exact absurd found (by simp)
  · simp [State.standing]
  · simp
  · simp

/-! ## What the invariant says of names -/

/-- A name that means a binding means a tracked one. -/
theorem Invariant.isSome_find?_of_binding? (coherent : Coherent state) {name : String}
    {id : BindingId} (found : state.binding? name = some id) : (state.loans.find? id).isSome := by
  obtain ⟨frame, inside, here⟩ :=
    Scopes.exists_frame_of_lookup (State.binding?_eq_some_iff.mp found)
  exact (coherent.tracked_iff id).mpr ⟨mem_entities_of_lookup inside here, by simp⟩

/-- A name that means a reference means one that carries it and has not ended. -/
theorem Invariant.standing_of_reference? (coherent : Coherent state) {name : String}
    {id : ReferenceId} (found : state.reference? name = some id) :
    state.standing id = some (name, false) := by
  obtain ⟨frame, inside, here⟩ :=
    Scopes.exists_frame_of_lookup (State.reference?_eq_some_iff.mp found)
  exact coherent.visible inside here

/-- The number of the next binding is not in use. -/
theorem Invariant.binding_fresh (coherent : Coherent state) :
    .binding state.bindings.size ∉ entities state.scopes.frames := by
  intro used
  obtain ⟨frame, inside, name, there⟩ := mem_entities.mp used
  have named := coherent.binding_named inside there
  simp at named

/-- The number of the next reference is not in use. -/
theorem Invariant.reference_fresh (coherent : Coherent state) :
    .reference state.references.size ∉ entities state.scopes.frames := by
  intro used
  obtain ⟨frame, inside, name, there⟩ := mem_entities.mp used
  obtain ⟨ended, named⟩ := coherent.reference_named inside there
  simp [State.standing] at named

/-- What is open is not being closed. -/
theorem Invariant.not_mem_closing (invariant : Invariant state closing destroyed)
    {entity : Entity} (isOpen : entity ∈ entities state.scopes.frames) :
    entity ∉ entities closing := by
  intro isClosing
  have distinct := invariant.distinct
  rw [entities, List.flatMap_append] at distinct
  exact List.disjoint_of_nodup_append distinct isClosing isOpen

/-! ## Frames -/

/-- The invariant looks at the loans through the ledger, and at the references besides only for
their names and whether they have ended. -/
theorem Invariant.of_frame (invariant : Invariant state closing destroyed)
    (scopes : after.scopes = state.scopes) (bindings : after.bindings = state.bindings)
    (tracked : ∀ id, (after.loans.find? id).isSome = (state.loans.find? id).isSome)
    (standing : ∀ id, after.standing id = state.standing id)
    (records : after.loans.Records after.ledger) : Invariant after closing destroyed where
  records := records
  some_frame := by
    rw [scopes]
    exact invariant.some_frame
  distinct := by
    rw [scopes]
    exact invariant.distinct
  binding_named := by
    rw [scopes, bindings]
    exact invariant.binding_named
  reference_named := by
    intro frame name id
    rw [scopes, standing]
    exact invariant.reference_named
  tracked_iff := by
    intro id
    rw [scopes, tracked]
    exact invariant.tracked_iff id
  visible := by
    intro frame name id
    rw [scopes, standing]
    exact invariant.visible
  shown := by
    intro name id
    rw [scopes, standing]
    exact invariant.shown
  destroyed_closing := invariant.destroyed_closing
  destroyed_ended := by
    intro id
    rw [standing]
    exact invariant.destroyed_ended

/-! ## Declaration -/

/-- **A new entity** that `added` knows by its name. No frame shows it yet. -/
structure Adds (state : State) (name : String) (entity : Entity) (added : State) : Prop where
  scopes : added.scopes = state.scopes
  fresh : entity ∉ entities state.scopes.frames
  kept : ∀ {id : BindingId} {known : String}, state.bindings[id]?.map (·.name) = some known →
    added.bindings[id]?.map (·.name) = some known
  named : ∀ {id : BindingId}, entity = .binding id → added.bindings[id]?.map (·.name) = some name
  tracked : ∀ id, (added.loans.find? id).isSome ↔
    (state.loans.find? id).isSome ∨ entity = .binding id
  standing : ∀ id, added.standing id =
    if entity = .reference id then some (name, false) else state.standing id
  records : added.loans.Records added.ledger

section Declaration

variable {added : State} {name : String} {entity : Entity} {frame : Frame Entity}
  {outer : List (Frame Entity)}

theorem Invariant.exists_frames_eq_cons (coherent : Coherent state) :
    ∃ frame outer, state.scopes.frames = frame :: outer :=
  List.exists_cons_of_ne_nil coherent.some_frame

namespace Adds

theorem frames_declare (adds : Adds state name entity added)
    (stack : state.scopes.frames = frame :: outer) :
    (added.declare name entity).scopes.frames = ((name, entity) :: frame) :: outer := by
  rw [State.declare_scopes, adds.scopes]
  simp only [Scopes.declare, stack]

theorem entities_declare (adds : Adds state name entity added)
    (stack : state.scopes.frames = frame :: outer) :
    entities (added.declare name entity).scopes.frames =
      entity :: entities state.scopes.frames := by
  rw [adds.frames_declare stack, stack]
  rfl

/-- What is declared is the new entity, or was declared before. -/
theorem eq_or_mem_of_mem (adds : Adds state name entity added)
    (stack : state.scopes.frames = frame :: outer) {other : Frame Entity}
    {declared : String × Entity} (inside : other ∈ (added.declare name entity).scopes.frames)
    (there : declared ∈ other) :
    declared = (name, entity) ∨ ∃ known ∈ state.scopes.frames, declared ∈ known := by
  rw [adds.frames_declare stack, List.mem_cons] at inside
  rw [stack]
  rcases inside with rfl | inside
  · rcases List.mem_cons.mp there with new | there
    · exact .inl new
    · exact .inr ⟨frame, List.mem_cons_self, there⟩
  · exact .inr ⟨other, List.mem_cons_of_mem _ inside, there⟩

/-- Entities that were there before are not the new one, so their standing is the old one. -/
theorem standing_of_mem (adds : Adds state name entity added) {id : ReferenceId}
    (there : .reference id ∈ entities state.scopes.frames) :
    added.standing id = state.standing id := by
  have different : entity ≠ .reference id := by
    rintro rfl
    exact adds.fresh there
  rw [adds.standing, if_neg different]

/-- A reference that the new name does not shadow keeps its standing. -/
theorem standing_declare_of_ne (adds : Adds state name entity added)
    (stack : state.scopes.frames = frame :: outer) {id : ReferenceId}
    (unshadowed : List.lookup name frame ≠ some (.reference id)) :
    (added.declare name entity).standing id = added.standing id := by
  rw [State.standing_declare, adds.scopes, if_neg]
  simpa only [Scopes.lookupInner, stack] using unshadowed

end Adds

namespace Invariant

theorem binding_named_declare (coherent : Coherent state) (adds : Adds state name entity added)
    {other : Frame Entity} {known : String} {id : BindingId}
    (inside : other ∈ (added.declare name entity).scopes.frames)
    (there : (known, .binding id) ∈ other) :
    (added.declare name entity).bindings[id]?.map (·.name) = some known := by
  obtain ⟨frame, outer, stack⟩ := coherent.exists_frames_eq_cons
  rw [State.declare_bindings]
  rcases adds.eq_or_mem_of_mem stack inside there with new | ⟨before, inside, there⟩
  · rw [Prod.mk.injEq] at new
    rw [new.1]
    exact adds.named new.2.symm
  · exact adds.kept (coherent.binding_named inside there)

theorem reference_named_declare (coherent : Coherent state) (adds : Adds state name entity added)
    {other : Frame Entity} {known : String} {id : ReferenceId}
    (inside : other ∈ (added.declare name entity).scopes.frames)
    (there : (known, .reference id) ∈ other) :
    ∃ ended, (added.declare name entity).standing id = some (known, ended) := by
  obtain ⟨frame, outer, stack⟩ := coherent.exists_frames_eq_cons
  have carried : ∃ ended, added.standing id = some (known, ended) := by
    rcases adds.eq_or_mem_of_mem stack inside there with new | ⟨before, inside, there⟩
    · rw [Prod.mk.injEq] at new
      exact ⟨false, by rw [adds.standing, if_pos new.2.symm, new.1]⟩
    · rw [adds.standing_of_mem (mem_entities.mpr ⟨before, inside, known, there⟩)]
      exact coherent.reference_named inside there
  obtain ⟨ended, carried⟩ := carried
  rw [State.standing_declare, carried]
  split
  · exact ⟨true, rfl⟩
  · exact ⟨ended, rfl⟩

/-- A reference that the name does not mean in the innermost frame stays visible. -/
theorem standing_declare_of_lookup (coherent : Coherent state)
    (adds : Adds state name entity added) (stack : state.scopes.frames = frame :: outer)
    {other : Frame Entity} {known : String} {id : ReferenceId}
    (inside : other ∈ state.scopes.frames) (found : List.lookup known other = some (.reference id))
    (unshadowed : List.lookup name frame ≠ some (.reference id)) :
    (added.declare name entity).standing id = some (known, false) := by
  rw [adds.standing_declare_of_ne stack unshadowed,
    adds.standing_of_mem (mem_entities_of_lookup inside found)]
  exact coherent.visible inside found

theorem visible_declare (coherent : Coherent state) (adds : Adds state name entity added)
    {other : Frame Entity} {known : String} {id : ReferenceId}
    (inside : other ∈ (added.declare name entity).scopes.frames)
    (found : List.lookup known other = some (.reference id)) :
    (added.declare name entity).standing id = some (known, false) := by
  obtain ⟨frame, outer, stack⟩ := coherent.exists_frames_eq_cons
  have first : frame ∈ state.scopes.frames := by simp [stack]
  rw [adds.frames_declare stack, List.mem_cons] at inside
  rcases inside with rfl | inside
  · rw [lookup_cons_ite] at found
    split at found
    · -- The new entity: nothing in the frame can be it, so it is not shadowed at once.
      rename_i same
      rw [Option.some.injEq] at found
      rw [adds.standing_declare_of_ne stack, adds.standing, if_pos found, same]
      intro shadowed
      exact adds.fresh (found ▸ mem_entities_of_lookup first shadowed)
    · -- An older one of the frame: it carries one name, which is not the new one.
      rename_i different
      refine coherent.standing_declare_of_lookup adds stack first found ?_
      intro shadowed
      have carried := coherent.visible first shadowed
      rw [coherent.visible first found, Option.some.injEq, Prod.mk.injEq] at carried
      exact different carried.1
  · -- One of another frame: it is not declared in the innermost frame as well.
    refine coherent.standing_declare_of_lookup adds stack (by simp [stack, inside]) found ?_
    intro shadowed
    have distinct := coherent.distinct
    rw [List.nil_append, stack, entities, List.flatMap_cons] at distinct
    exact List.disjoint_of_nodup_append distinct
      (Scopes.mem_destructionOrder_of_lookup shadowed) (mem_entities_of_lookup inside found)

theorem shown_declare (coherent : Coherent state) (adds : Adds state name entity added)
    {known : String} {id : ReferenceId}
    (alive : (added.declare name entity).standing id = some (known, false)) :
    ∃ other ∈ (added.declare name entity).scopes.frames,
      List.lookup known other = some (.reference id) := by
  obtain ⟨frame, outer, stack⟩ := coherent.exists_frames_eq_cons
  have unshadowed : List.lookup name frame ≠ some (.reference id) := by
    intro shadowed
    have inner : added.scopes.lookupInner name = some (.reference id) := by
      rw [adds.scopes]
      simpa only [Scopes.lookupInner, stack] using shadowed
    rw [State.standing_declare, if_pos inner] at alive
    exact absurd alive (by simp)
  rw [adds.standing_declare_of_ne stack unshadowed, adds.standing] at alive
  rw [adds.frames_declare stack]
  split at alive
  · rename_i new
    rw [Option.some.injEq, Prod.mk.injEq] at alive
    exact ⟨_, List.mem_cons_self, by rw [lookup_cons_ite, if_pos alive.1.symm, new]⟩
  · obtain ⟨other, inside, found⟩ := coherent.shown alive
    rw [List.nil_append, stack, List.mem_cons] at inside
    rcases inside with rfl | inside
    · refine ⟨_, List.mem_cons_self, ?_⟩
      rw [lookup_cons_ite, if_neg, found]
      rintro rfl
      exact unshadowed found
    · exact ⟨other, List.mem_cons_of_mem _ inside, found⟩

/-- **A new name in the innermost frame** keeps the invariant. -/
theorem declare (coherent : Coherent state) (adds : Adds state name entity added) :
    Coherent (added.declare name entity) where
  records := State.records_declare adds.records name entity
  some_frame := by
    obtain ⟨frame, outer, stack⟩ := coherent.exists_frames_eq_cons
    rw [adds.frames_declare stack]
    exact List.cons_ne_nil _ _
  distinct := by
    obtain ⟨frame, outer, stack⟩ := coherent.exists_frames_eq_cons
    rw [List.nil_append, adds.entities_declare stack]
    exact List.nodup_cons.mpr ⟨adds.fresh, coherent.distinct⟩
  binding_named := coherent.binding_named_declare adds
  reference_named := coherent.reference_named_declare adds
  tracked_iff := by
    intro id
    obtain ⟨frame, outer, stack⟩ := coherent.exists_frames_eq_cons
    rw [State.isSome_find?_declare, adds.tracked, coherent.tracked_iff, List.nil_append,
      List.nil_append, adds.entities_declare stack, List.mem_cons, or_comm, eq_comm]
    simp
  visible := coherent.visible_declare adds
  shown := coherent.shown_declare adds
  destroyed_closing := fun none => absurd none List.not_mem_nil
  destroyed_ended := fun none => absurd none List.not_mem_nil

end Invariant

end Declaration

/-- The entry of a new binding is free, and so was the binding as long as it had none. -/
theorem Invariant.state_register (coherent : Coherent state) (id : BindingId) :
    (state.loans.register state.bindings.size).state id = state.loans.state id := by
  rw [LoanTable.register, LoanTable.state_put]
  split
  · rename_i same
    have unused : ¬(state.loans.find? id).isSome := by
      rw [coherent.tracked_iff, same]
      exact fun used => coherent.binding_fresh used.1
    rw [Option.not_isSome_iff_eq_none] at unused
    simp [LoanTable.state, unused]
  · rfl

theorem Invariant.declareBinding (coherent : Coherent state) (name : String) (isMutable : Bool) :
    Coherent (state.declareBinding name isMutable) := by
  apply coherent.declare
  exact {
    scopes := rfl
    fresh := coherent.binding_fresh
    kept := by
      intro id known before
      rw [Option.map_eq_some_iff] at before ⊢
      obtain ⟨binding, found, same⟩ := before
      have bound : id < state.bindings.size := (Array.getElem?_eq_some_iff.mp found).1
      exact ⟨binding, by rw [Array.getElem?_push, if_neg (Nat.ne_of_lt bound), found], same⟩
    named := by
      intro id same
      rw [Entity.binding.injEq] at same
      rw [← same]
      simp
    tracked := by
      intro id
      show ((state.loans.put _ _).find? id).isSome ↔ _
      rw [LoanTable.find?_put, Entity.binding.injEq]
      by_cases same : id = state.bindings.size
      · simp [same]
      · simp [same, Ne.symm same]
    standing := by
      intro id
      rw [if_neg (by simp)]
      rfl
    records := coherent.records.of_state_eq coherent.state_register }

theorem Invariant.declareReference (coherent : Coherent state) (name : String) (kind : BorrowKind)
    (isMutable : Bool) {target : BindingId} (tracked : (state.loans.find? target).isSome) :
    Coherent (state.declareReference name kind isMutable target).1 := by
  have found := state.getElem?_addReference name kind isMutable target state.references.size
  rw [if_pos rfl] at found
  rw [State.declareReference_eq]
  apply coherent.declare
  exact {
    scopes := by
      rw [State.acquire_scopes]
      rfl
    fresh := coherent.reference_fresh
    kept := by
      intro id known before
      rw [State.acquire_bindings]
      exact before
    named := fun same => absurd same (by simp)
    tracked := by
      intro id
      rw [State.isSome_find?_acquire found tracked]
      simp [State.addReference]
    standing := by
      intro id
      rw [State.standing_acquire, State.standing_addReference, State.standing_addReference]
      by_cases same : id = state.references.size
      · rw [if_pos same, if_pos rfl, if_pos (by rw [same])]
        rfl
      · rw [if_neg same, if_neg same, if_neg (by simpa using Ne.symm same)]
    records := by
      apply State.records_acquire
      rw [State.update_ledger_addReference]
      exact coherent.records }

/-! ## Statements that declare nothing -/

theorem Invariant.enter (coherent : Coherent state) :
    Coherent { state with scopes := state.scopes.enter } where
  records := coherent.records
  some_frame := by simp [Scopes.enter]
  distinct := coherent.distinct
  binding_named := by
    intro frame name id inside there
    rcases List.mem_cons.mp inside with rfl | inside
    · exact absurd there (by simp)
    · exact coherent.binding_named inside there
  reference_named := by
    intro frame name id inside there
    rcases List.mem_cons.mp inside with rfl | inside
    · exact absurd there (by simp)
    · exact coherent.reference_named inside there
  tracked_iff := coherent.tracked_iff
  visible := by
    intro frame name id inside found
    rcases List.mem_cons.mp inside with rfl | inside
    · exact absurd found (by simp)
    · exact coherent.visible inside found
  shown := by
    intro name id alive
    obtain ⟨frame, inside, found⟩ := coherent.shown alive
    exact ⟨frame, List.mem_cons_of_mem _ inside, found⟩
  destroyed_closing := coherent.destroyed_closing
  destroyed_ended := coherent.destroyed_ended

theorem Invariant.rebind (coherent : Coherent state) {name : String} {id : ReferenceId}
    {target : BindingId} (found : state.reference? name = some id)
    (tracked : (state.loans.find? target).isSome) : Coherent (state.rebind id target).1 := by
  have alive := coherent.standing_of_reference? found
  rcases state.rebind_cases id target with same | ⟨reference, here, moved⟩
  · rw [same]
    exact coherent
  · refine coherent.of_frame (state.rebind_scopes id target) (state.rebind_bindings id target)
      (State.isSome_find?_rebind id tracked) ?_ ?_
    · intro other
      rw [moved, State.standing_acquire, State.standing_retarget, State.standing_retarget]
      split
      · rename_i same
        rw [same, alive]
        rfl
      · rfl
    · rw [moved]
      exact State.records_acquire (State.records_retarget coherent.records here target)

/-- A read through a loan of its own changes nothing. -/
theorem Invariant.temporaryRead_eq (coherent : Coherent state) {name : String} {id : BindingId}
    (found : state.binding? name = some id) : (state.temporaryRead id).1 = state := by
  unfold State.temporaryRead
  split
  · rename_i loans granted
    have restored := LoanTable.release_acquire_temporary
      (coherent.isSome_find?_of_binding? found) (coherent.records.settled id) granted
    simp only [restored]
  · rfl

/-! ## Destruction -/

theorem Invariant.destroy_reference (invariant : Invariant state closing destroyed)
    {id : ReferenceId} (pending : .reference id ∈ entities closing) :
    Invariant (state.endReference id) closing (destroyed ++ [.reference id]) := by
  have known : ∃ name ended, state.standing id = some (name, ended) := by
    obtain ⟨frame, inside, name, there⟩ := mem_entities.mp pending
    obtain ⟨ended, known⟩ := invariant.reference_named (List.mem_append_left _ inside) there
    exact ⟨name, ended, known⟩
  refine ⟨State.records_endReference invariant.records id, ?_, ?_, ?_, ?_, ?_, ?_, ?_, ?_, ?_⟩
  · rw [State.endReference_scopes]
    exact invariant.some_frame
  · rw [State.endReference_scopes]
    exact invariant.distinct
  · rw [State.endReference_scopes, State.endReference_bindings]
    exact invariant.binding_named
  · intro frame name other inside there
    rw [State.endReference_scopes] at inside
    obtain ⟨ended, named⟩ := invariant.reference_named inside there
    rw [State.standing_endReference]
    split
    · rename_i same
      rw [← same, named]
      exact ⟨true, rfl⟩
    · exact ⟨ended, named⟩
  · intro binding
    rw [State.isSome_find?_endReference, State.endReference_scopes, invariant.tracked_iff]
    simp
  · intro frame name other inside found
    rw [State.endReference_scopes] at inside
    rw [State.standing_endReference, if_neg, invariant.visible inside found]
    rintro rfl
    exact invariant.not_mem_closing (mem_entities_of_lookup inside found) pending
  · intro name other alive
    rw [State.endReference_scopes]
    rw [State.standing_endReference] at alive
    split at alive
    · exact absurd alive (by simp)
    · exact invariant.shown alive
  · intro entity gone
    rcases List.mem_append.mp gone with gone | last
    · exact invariant.destroyed_closing gone
    · rw [List.mem_singleton.mp last]
      exact pending
  · intro other gone
    rw [State.standing_endReference]
    split
    · obtain ⟨name, ended, known⟩ := known
      exact ⟨name, by rw [known]; rfl⟩
    · rename_i different
      rcases List.mem_append.mp gone with gone | last
      · exact invariant.destroyed_ended gone
      · exact absurd (Entity.reference.inj (List.mem_singleton.mp last)) different

theorem Invariant.destroy_binding (invariant : Invariant state closing destroyed)
    {id : BindingId} (pending : .binding id ∈ entities closing) :
    Invariant (state.destroy (.binding id)).1 closing (destroyed ++ [.binding id]) := by
  have standing := State.standing_destroy_binding invariant.records id
  refine ⟨State.records_destroy_binding invariant.records id, ?_, ?_, ?_, ?_, ?_, ?_, ?_, ?_, ?_⟩
  · rw [State.destroy_scopes]
    exact invariant.some_frame
  · rw [State.destroy_scopes]
    exact invariant.distinct
  · rw [State.destroy_scopes, State.destroy_bindings]
    exact invariant.binding_named
  · intro frame name other
    rw [State.destroy_scopes, standing]
    exact invariant.reference_named
  · intro other
    rw [State.destroy_binding_loans, State.destroy_scopes, LoanTable.find?_remove]
    split
    · rename_i same
      simp [same]
    · rename_i different
      rw [invariant.tracked_iff]
      simp [different]
  · intro frame name other
    rw [State.destroy_scopes, standing]
    exact invariant.visible
  · intro name other
    rw [State.destroy_scopes, standing]
    exact invariant.shown
  · intro entity gone
    rcases List.mem_append.mp gone with gone | last
    · exact invariant.destroyed_closing gone
    · rw [List.mem_singleton.mp last]
      exact pending
  · intro other gone
    rw [standing]
    rcases List.mem_append.mp gone with gone | last
    · exact invariant.destroyed_ended gone
    · exact absurd (List.mem_singleton.mp last) (by simp)

theorem Invariant.destroy (invariant : Invariant state closing destroyed) {entity : Entity}
    (pending : entity ∈ entities closing) :
    Invariant (state.destroy entity).1 closing (destroyed ++ [entity]) := by
  cases entity with
  | binding id => exact invariant.destroy_binding pending
  | reference id => exact invariant.destroy_reference pending

theorem Invariant.destroyAll (invariant : Invariant state closing destroyed) (gone : List Entity)
    (pending : ∀ entity ∈ gone, entity ∈ entities closing) :
    Invariant (state.destroyAll gone).1 closing (destroyed ++ gone) := by
  induction gone generalizing state destroyed with
  | nil =>
      rw [List.append_nil]
      exact invariant
  | cons entity rest ih =>
      rw [State.destroyAll_cons, List.append_cons]
      exact ih (invariant.destroy (pending entity List.mem_cons_self))
        (fun other there => pending other (List.mem_cons_of_mem _ there))

/-- Frames are closed from the innermost on. -/
theorem Invariant.close (coherent : Coherent state) {inner outer : List (Frame Entity)}
    (stack : state.scopes.frames = inner ++ outer) :
    Invariant { state with scopes := { frames := outer } } inner [] where
  records := coherent.records
  some_frame := stack ▸ coherent.some_frame
  distinct := stack ▸ coherent.distinct
  binding_named := stack ▸ coherent.binding_named
  reference_named := stack ▸ coherent.reference_named
  tracked_iff := stack ▸ coherent.tracked_iff
  visible := by
    intro frame name id inside
    exact coherent.visible (stack ▸ List.mem_append_right _ inside)
  shown := stack ▸ coherent.shown
  destroyed_closing := by simp
  destroyed_ended := by simp

/-- Once all that stood in the closed frames is destroyed, they can be forgotten. -/
theorem Invariant.closed (invariant : Invariant state closing destroyed)
    (isOpen : state.scopes.frames ≠ [])
    (done : ∀ entity ∈ entities closing, entity ∈ destroyed) : Coherent state where
  records := invariant.records
  some_frame := isOpen
  distinct := by
    have distinct := invariant.distinct
    rw [entities, List.flatMap_append] at distinct
    exact distinct.of_append_right
  binding_named := fun inside => invariant.binding_named (List.mem_append_right _ inside)
  reference_named := fun inside => invariant.reference_named (List.mem_append_right _ inside)
  tracked_iff := by
    intro id
    rw [invariant.tracked_iff, List.nil_append, entities, List.flatMap_append, List.mem_append]
    constructor
    · -- Nothing is left of the closed frames, and nothing open is destroyed.
      rintro ⟨isClosing | isOpen, left⟩
      · exact absurd (done _ isClosing) left
      · exact ⟨isOpen, by simp⟩
    · rintro ⟨isOpen, -⟩
      exact ⟨.inr isOpen, fun gone =>
        invariant.not_mem_closing isOpen (invariant.destroyed_closing gone)⟩
  visible := invariant.visible
  shown := by
    intro name id alive
    obtain ⟨frame, inside, found⟩ := invariant.shown alive
    rcases List.mem_append.mp inside with isClosing | isOpen
    · obtain ⟨_, ended⟩ :=
        invariant.destroyed_ended (done _ (mem_entities_of_lookup isClosing found))
      rw [alive] at ended
      exact absurd ended (by simp)
    · exact ⟨frame, isOpen, found⟩
  destroyed_closing := by simp
  destroyed_ended := by simp

/-! ## Walks -/

/-- Whether an action only reads or writes a value. -/
def isAccess : Action → Bool
  | .assignBinding _ _ => true
  | .assignThrough _ _ => true
  | .readBinding _ => true
  | .readThrough _ => true
  | _ => false

/-- Reads and writes leave the state of the checker as it is. -/
theorem Invariant.step_of_isAccess (coherent : Coherent state) {action : Action}
    (access : isAccess action = true) : (state.step action).1 = state := by
  cases action with
  | declareBinding | declareReference | rebindReference | enterScope | exitScope =>
      exact absurd access (by simp [isAccess])
  | assignBinding name value =>
      simp only [State.step]
      split <;> rfl
  | assignThrough reference value => rfl
  | readBinding name =>
      simp only [State.step]
      split <;> rfl
  | readThrough path =>
      cases path with
      | deref name => rfl
      | borrow name =>
          simp only [State.step]
          split
          · rename_i id found
            exact coherent.temporaryRead_eq found
          · rfl

/-- What a scope exit does: the innermost frame is taken off, and its entities are destroyed. -/
theorem step_exitScope {frame next : Frame Entity} {outer : List (Frame Entity)}
    (stack : state.scopes.frames = frame :: next :: outer) :
    state.step .exitScope =
      { state with scopes := { frames := next :: outer } }.destroyAll (entities [frame]) := by
  have closed : state.scopes.exit? =
      some (Scopes.destructionOrder frame, { frames := next :: outer }) := by
    simp only [Scopes.exit?, stack]
  simp only [State.step, closed, entities, List.flatMap_singleton]

/-- The outermost frame is not closed by a scope exit. -/
theorem step_exitScope_of_exit? (none : state.scopes.exit? = none) :
    state.step .exitScope = (state, []) := by
  simp only [State.step, none]

theorem Invariant.exitScope (coherent : Coherent state) : Coherent (state.step .exitScope).1 := by
  cases found : state.scopes.exit? with
  | none =>
      rw [step_exitScope_of_exit? found]
      exact coherent
  | some closed =>
      obtain ⟨frame, next, outer, stack, -⟩ := Scopes.frames_of_exit? found
      have closing : Invariant { state with scopes := { frames := next :: outer } } [frame] [] :=
        coherent.close stack
      -- The frame stays in the invariant until its last entity is destroyed.
      have done := closing.destroyAll (entities [frame]) (fun _ there => there)
      rw [step_exitScope stack]
      refine done.closed ?_ (fun _ there => there)
      rw [State.destroyAll_scopes]
      simp

/-- **Statements keep the invariant.** No use is made of the validity of the program: what cannot be
resolved is skipped. -/
theorem Invariant.step (coherent : Coherent state) (action : Action) :
    Coherent (state.step action).1 := by
  cases action with
  | declareBinding name isMutable tag init => exact coherent.declareBinding name isMutable
  | declareReference name kind isMutable target =>
      simp only [State.step]
      split
      · rename_i id found
        exact coherent.declareReference name kind isMutable
          (coherent.isSome_find?_of_binding? found)
      · exact coherent
  | rebindReference name target =>
      simp only [State.step]
      split
      · rename_i id target' found found'
        exact coherent.rebind found (coherent.isSome_find?_of_binding? found')
      · exact coherent
  | enterScope => exact coherent.enter
  | exitScope => exact coherent.exitScope
  | assignBinding name value =>
      rw [coherent.step_of_isAccess rfl]
      exact coherent
  | assignThrough reference value =>
      rw [coherent.step_of_isAccess rfl]
      exact coherent
  | readBinding name =>
      rw [coherent.step_of_isAccess rfl]
      exact coherent
  | readThrough path =>
      rw [coherent.step_of_isAccess rfl]
      exact coherent

/-- So do runs of statements. -/
theorem Invariant.stateAfter (coherent : Coherent state) (actions : List Action) :
    Coherent (stateAfter state actions) := by
  induction actions generalizing state with
  | nil => exact coherent
  | cons action rest ih => exact ih (coherent.step action)

theorem coherent_stateAfter (actions : List Action) : Coherent (stateAfter {} actions) :=
  coherent_init.stateAfter actions

/-- The states that the walk through a program passes, each with the frames that are being closed in
it and with what has been destroyed of them, in this order. -/
inductive Passes (program : Program) : State → List (Frame Entity) → List Entity → Prop
  /-- After the first `count` statements. -/
  | between (count : Nat) :
      Passes program (Checker.stateAfter {} (program.actions.take count)) [] []
  /-- Within the scope exit at `count`, before the entities that are `left` are destroyed. -/
  | exiting (count : Nat) (left : List Entity) {state : State} {frame : Frame Entity}
      {outer : Scopes Entity} {gone : List Entity} :
      Checker.stateAfter {} (program.actions.take count) = state →
      program.actions[count]? = some .exitScope →
      state.scopes.frames.head? = some frame →
      state.scopes.exit? = some (gone ++ left, outer) →
      Passes program ({ state with scopes := outer }.destroyAll gone).1 [frame] gone
  /-- After the last statement, before the entities that are `left` are destroyed. -/
  | finishing (left : List Entity) {state : State} {outer : Scopes Entity} {gone : List Entity} :
      Checker.stateAfter {} program.actions = state →
      state.scopes.finish = (gone ++ left, outer) →
      Passes program ({ state with scopes := outer }.destroyAll gone).1 state.scopes.frames gone

/-- **The invariant holds in every state that is passed.** -/
theorem Invariant.of_passes {program : Program} (passed : Passes program state closing destroyed) :
    Invariant state closing destroyed := by
  cases passed with
  | between count => exact coherent_stateAfter _
  | @exiting count left state frame outer _ after _ innermost closed =>
      have coherent : Coherent state := after ▸ coherent_stateAfter _
      obtain ⟨frame', next, rest, stack, same⟩ := Scopes.frames_of_exit? closed
      rw [Prod.mk.injEq] at same
      obtain rfl : frame' = frame := by
        rw [stack] at innermost
        exact Option.some.inj innermost
      rw [same.2]
      have closing : Invariant { state with scopes := { frames := next :: rest } } [frame'] [] :=
        coherent.close stack
      refine closing.destroyAll destroyed (fun entity there => ?_)
      rw [entities, List.flatMap_singleton, ← same.1]
      exact List.mem_append_left _ there
  | @finishing left state outer _ after closed =>
      have coherent : Coherent state := after ▸ coherent_stateAfter _
      rw [Scopes.finish, Prod.mk.injEq] at closed
      rw [← closed.2]
      have closing : Invariant { state with scopes := { frames := [] } } state.scopes.frames [] :=
        coherent.close (List.append_nil _).symm
      refine closing.destroyAll destroyed (fun entity there => ?_)
      show entity ∈ state.scopes.frames.flatMap Scopes.destructionOrder
      rw [closed.1]
      exact List.mem_append_left _ there

/-! ## Coherence of the loan table -/

/-- A live reference and the binding that it points to. -/
def State.PointsTo (state : State) (id : ReferenceId) (binding : BindingId)
    (reference : Reference) : Prop :=
  state.references[id]? = some reference ∧ reference.status = .live ∧ reference.target = binding

/-- What table, references and frames say of each other in a state in which the frames `closing` are
being closed and the entities `destroyed` of them are gone. -/
structure LoanCoherence (state : State) (closing : List (Frame Entity))
    (destroyed : List Entity) : Prop where
  /-- The references that hold a binding are the live ones that point to it. -/
  holder_iff : ∀ id binding, .reference id ∈ (state.loans.state binding).holders ↔
    ∃ reference, state.PointsTo id binding reference
  /-- They hold it by a loan of their own kind. -/
  kind_eq : ∀ id binding reference, state.PointsTo id binding reference →
    (state.loans.state binding).kind? = some reference.kind
  /-- No read that borrows for itself is left over. -/
  no_temporary : ∀ binding, .temporary ∉ (state.loans.state binding).holders
  /-- A shared loan has a holder, and no holder is listed twice. -/
  shared_listed : ∀ binding holders, state.loans.state binding = .sharedBy holders →
    holders ≠ [] ∧ holders.Nodup
  /-- The tracked bindings are those declared in a frame that is open or being closed, unless they
  are destroyed already. -/
  tracked_iff : ∀ id, (state.loans.find? id).isSome ↔
    .binding id ∈ entities (closing ++ state.scopes.frames) ∧ .binding id ∉ destroyed
  /-- What a name means in an open frame has not ended, if it is a reference. -/
  visible : ∀ frame ∈ state.scopes.frames, ∀ name id,
    List.lookup name frame = some (.reference id) →
      ∃ reference, state.references[id]? = some reference ∧ reference.status ≠ .ended
  /-- A live reference is what its name means in its frame, and is not destroyed. -/
  live_shown : ∀ id reference, state.references[id]? = some reference → reference.status = .live →
    (∃ frame ∈ closing ++ state.scopes.frames,
      List.lookup reference.name frame = some (.reference id)) ∧ .reference id ∉ destroyed
  /-- The live references to a binding are all shared, or there is one alone and it is exclusive. -/
  shared_or_alone : ∀ binding,
    (∀ id reference, state.PointsTo id binding reference → reference.kind = .shared) ∨
    ∃ id reference, state.PointsTo id binding reference ∧ reference.kind = .exclusive ∧
      ∀ other reference', state.PointsTo other binding reference' → other = id

theorem State.PointsTo.ledger {id : ReferenceId} {binding : BindingId} {reference : Reference}
    (points : state.PointsTo id binding reference) :
    state.ledger id = some (binding, reference.kind) :=
  State.ledger_eq_some_iff.mpr ⟨reference, points.1, points.2.1, points.2.2, rfl⟩

theorem Invariant.shared_or_alone (invariant : Invariant state closing destroyed)
    (binding : BindingId) :
    (∀ id reference, state.PointsTo id binding reference → reference.kind = .shared) ∨
    ∃ id reference, state.PointsTo id binding reference ∧ reference.kind = .exclusive ∧
      ∀ other reference', state.PointsTo other binding reference' → other = id := by
  by_cases exclusive : ∃ id reference, state.PointsTo id binding reference ∧
      reference.kind = .exclusive
  · obtain ⟨id, reference, points, kind⟩ := exclusive
    refine .inr ⟨id, reference, points, kind, fun other reference' points' => ?_⟩
    have entry := points.ledger
    rw [kind] at entry
    exact invariant.records.eq_of_exclusive entry points'.ledger
  · refine .inl (fun id reference points => ?_)
    cases kind : reference.kind with
    | shared => rfl
    | exclusive => exact absurd ⟨id, reference, points, kind⟩ exclusive

/-- **Coherence of the loan table.** In every state that the walk through a program passes, between
two statements as well as between two destructions, the loan table, the statuses and targets of the
references and the frames agree with each other. -/
theorem loan_table_coherent {program : Program} {state : State} {closing : List (Frame Entity)}
    {destroyed : List Entity} (passed : Passes program state closing destroyed) :
    LoanCoherence state closing destroyed := by
  have invariant := Invariant.of_passes passed
  refine ⟨?_, ?_, ?_, ?_, invariant.tracked_iff, ?_, ?_, invariant.shared_or_alone⟩
  · intro id binding
    rw [invariant.records.holder_iff]
    constructor
    · rintro ⟨kind, entry⟩
      obtain ⟨reference, found, live, target, -⟩ := State.ledger_eq_some_iff.mp entry
      exact ⟨reference, found, live, target⟩
    · rintro ⟨reference, points⟩
      exact ⟨reference.kind, points.ledger⟩
  · intro id binding reference points
    exact invariant.records.kind?_eq points.ledger
  · intro binding
    exact (invariant.records.settled binding).temporary_not_mem
  · intro binding holders shared
    have settled := invariant.records.settled binding
    rw [shared] at settled
    exact ⟨settled.1, settled.2.1⟩
  · intro frame inside name id found
    obtain ⟨reference, here, -, alive⟩ :=
      State.standing_eq_some_iff.mp (invariant.visible inside found)
    exact ⟨reference, here, by simpa using alive⟩
  · intro id reference found live
    have alive : state.standing id = some (reference.name, false) :=
      State.standing_eq_some_iff.mpr ⟨reference, found, rfl, by simp [live]⟩
    refine ⟨invariant.shown alive, fun gone => ?_⟩
    obtain ⟨_, ended⟩ := invariant.destroyed_ended gone
    rw [alive] at ended
    exact absurd ended (by simp)

/-- `let a; let mut r = &a; { let a; rebind r -> a; let q = &a; }`: the reference outlives the inner
binding, and the scope exit destroys `q` before the binding. -/
def outliving : Program where
  statements := [
    { action := .declareBinding "a" false "i32" none },
    { action := .declareReference "r" .shared true "a" },
    { action := .enterScope },
    { action := .declareBinding "a" false "i32" none },
    { action := .rebindReference "r" "a" },
    { action := .declareReference "q" .shared false "a" },
    { action := .exitScope }]

/-- Between the destruction of `q` and that of the inner binding, `r` alone holds the latter. -/
theorem loan_table_coherent_outliving :
    ∃ state, Passes outliving state [[("q", .reference 1), ("a", .binding 1)]] [.reference 1] ∧
      state.loans.state 1 = .sharedBy [.reference 0] ∧
      LoanCoherence state [[("q", .reference 1), ("a", .binding 1)]] [.reference 1] := by
  have passed : Passes outliving _ [[("q", .reference 1), ("a", .binding 1)]] [.reference 1] :=
    .exiting 6 [.binding 1] rfl rfl rfl rfl
  exact ⟨_, passed, by decide, loan_table_coherent passed⟩

end Lending.Checker
