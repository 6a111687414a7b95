import Lending.Proofs.Simulation
import Lending.Proofs.Validity

/-!
# Entities and their declarations

Validation, the checker and the machine each keep a stack of scopes, with what they know of an
entity in it. In a valid program the three of them resolve every name alike after any statements
(`Program.resolvers_agree`).

The checker and the machine number bindings and references in the order of their declarations. So
the entity behind a name can be told from the statements alone: it is the one declared by the
statement that the name resolves to, and its number is that of the declarations of its sort before
that statement (`entityAt`). The stack of the checker is the stack of the history, read in this way
(`Program.scopes_stateAt`), whence a name means the entity of its declaration
(`Program.lookup_stateAt`).
-/

namespace Lending

open Checker Evaluation

/-! ## The three resolvers -/

theorem Scopes.depth_map {α β : Type} (change : α → β) (scopes : Scopes α) :
    (scopes.map change).depth = scopes.depth := by
  simp [Scopes.depth, Scopes.map]

/-- Validation and the checker take a name for the same: for nothing, for a binding, or for a
reference of the same kind. -/
inductive ResolvedAlike (names : Validation.Names) (state : State) (name : String) :
    Option Entity → Prop
  | nothing : names.lookup name = none → state.scopes.lookup name = none →
      ResolvedAlike names state name none
  | binding {id : BindingId} : names.lookup name = some .binding →
      state.scopes.lookup name = some (.binding id) →
      ResolvedAlike names state name (some (.binding id))
  | reference {id : ReferenceId} {reference : Reference} :
      names.lookup name = some (.reference reference.kind) →
      state.scopes.lookup name = some (.reference id) →
      state.references[id]? = some reference →
      ResolvedAlike names state name (some (.reference id))

theorem ResolvedAlike.of_map {names : Validation.Names} {state : State} (coherent : Coherent state)
    (same : names = state.scopes.map state.declaredAs) (name : String) :
    ResolvedAlike names state name (state.scopes.lookup name) := by
  have declared : names.lookup name = (state.scopes.lookup name).map state.declaredAs := by
    rw [same, Scopes.lookup_map]
  cases meaning : state.scopes.lookup name with
  | none =>
      rw [meaning] at declared
      exact .nothing declared meaning
  | some entity =>
      rw [meaning] at declared
      cases entity with
      | binding id => exact .binding declared meaning
      | reference id =>
          have visible := coherent.standing_of_reference? (State.reference?_eq_some_iff.mpr meaning)
          obtain ⟨reference, found, -, -⟩ := State.standing_eq_some_iff.mp visible
          have kind : state.declaredAs (.reference id) = .reference reference.kind := by
            simp [State.declaredAs, State.identity, found]
          rw [Option.map_some, kind] at declared
          exact .reference declared meaning found

/-- **The three resolvers agree.** After any statements of a valid program, validation and the
checker have the same nesting depth and take every name for the same. If the statements succeed,
then so does the machine, whose slots and references have the numbers that the checker uses, and
exactly the bindings that the checker tracks have live slots. -/
theorem Program.resolvers_agree {program : Program} (valid : program.errors = []) (count : Nat)
    {names : Validation.Names} {state : State}
    (validated : Validation.namesAfter .root (program.actions.take count) = names)
    (walked : stateAfter {} (program.actions.take count) = state) :
    names.depth = state.scopes.depth ∧
    (∀ name, ∃ entity, ResolvedAlike names state name entity) ∧
    ∀ machine, machineAfter {} (program.actions.take count) = .ok machine →
      machine.scopes.depth = state.scopes.depth ∧
      (∀ name, ∃ entity, ResolvedAlike names state name entity ∧
        machine.scopes.lookup name = entity.map Entity.denoted) ∧
      ∀ id, (state.loans.find? id).isSome ↔
        ∃ slot, machine.slots[id]? = some slot ∧ slot.isAlive = true := by
  have coherent : Coherent state := walked ▸ coherent_stateAfter _
  have same : names = state.scopes.map state.declaredAs := by
    rw [← validated, ← walked]
    exact Validation.scopes_eq_map (program.errorsFrom_take valid count)
  have alike := ResolvedAlike.of_map coherent same
  refine ⟨by rw [same, Scopes.depth_map], fun name => ⟨_, alike name⟩, fun machine reached => ?_⟩
  -- Without an error the machine has taken the same statements as the checker.
  have agrees : Agrees _ state machine := walked ▸ agrees_run reached
  refine ⟨by rw [agrees.scopes, Scopes.depth_map], fun name => ⟨_, alike name, ?_⟩, fun id => ?_⟩
  · rw [agrees.scopes, Scopes.lookup_map]
  · rw [← agrees.isAlive_eq, Machine.isAlive]
    cases machine.slots[id]? with
    | none => simp
    | some slot => simp

/-- `let a; { let a = &mut a; let b; }`: in the scope the name of the binding means a reference to
it. -/
def selfShadowing : Program where
  statements := [
    { action := .declareBinding "a" false "i32" none },
    { action := .enterScope },
    { action := .declareReference "a" .exclusive false "a" },
    { action := .declareBinding "b" false "i32" none },
    { action := .exitScope }]

/-- Within the scope `a` means the exclusive reference for all three of them. -/
theorem Program.resolvers_agree_selfShadowing :
    selfShadowing.errors = [] ∧ ∃ machine,
      machineAfter {} (selfShadowing.actions.take 4) = .ok machine ∧
      machine.scopes.lookup "a" = some (.reference 0) ∧ ∃ entity,
        ResolvedAlike (Validation.namesAfter .root (selfShadowing.actions.take 4))
          (stateAfter {} (selfShadowing.actions.take 4)) "a" entity ∧
        machine.scopes.lookup "a" = entity.map Entity.denoted := by
  have valid : selfShadowing.errors = [] := by decide
  obtain ⟨machine, reached, meaning⟩ : ∃ machine,
      machineAfter {} (selfShadowing.actions.take 4) = .ok machine ∧
      machine.scopes.lookup "a" = some (.reference 0) := ⟨_, rfl, by decide⟩
  obtain ⟨-, -, agreed⟩ := Program.resolvers_agree valid 4 rfl rfl
  exact ⟨valid, machine, reached, meaning, (agreed machine reached).2.1 "a"⟩

/-! ## Numbers -/

namespace Action

/-- Whether the action declares a binding. -/
def isBinding : Action → Bool
  | .declareBinding .. => true
  | _ => false

/-- Whether the action declares a reference. -/
def isReference : Action → Bool
  | .declareReference .. => true
  | _ => false

end Action

namespace Lexical

/-- The number of the binding declared at `index`: that of the bindings declared before. -/
def bindingNumber (actions : List Action) (index : Nat) : BindingId :=
  (actions.take index).countP Action.isBinding

/-- The number of the reference declared at `index`: that of the references declared before. -/
def referenceNumber (actions : List Action) (index : Nat) : ReferenceId :=
  (actions.take index).countP Action.isReference

/-- The entity that the statement at `index` declares, if it declares one. -/
def entityAt (actions : List Action) (index : Nat) : Entity :=
  if actions[index]?.any Action.isReference then .reference (referenceNumber actions index)
  else .binding (bindingNumber actions index)

variable {actions : List Action} {action : Action} {index : Nat}

theorem entityAt_of_getElem? (here : actions[index]? = some action) :
    entityAt actions index =
      if action.isReference then .reference (referenceNumber actions index)
      else .binding (bindingNumber actions index) := by
  rw [entityAt, here]
  rfl

/-- The statements of a kind up to a statement, that one included. -/
theorem countP_take_succ (kind : Action → Bool) (here : actions[index]? = some action) :
    (actions.take (index + 1)).countP kind =
      (actions.take index).countP kind + if kind action then 1 else 0 := by
  rw [take_succ_of_getElem? here, List.countP_append, List.countP_singleton]

theorem countP_take_mono (actions : List Action) (kind : Action → Bool) {other : Nat}
    (later : index ≤ other) :
    (actions.take index).countP kind ≤ (actions.take other).countP kind :=
  (List.take_sublist_take_left later).countP_le

/-- A statement has a smaller number than those of its kind that follow it. -/
theorem countP_take_lt {kind : Action → Bool} {other : Nat} (here : actions[index]? = some action)
    (isKind : kind action = true) (later : index < other) :
    (actions.take index).countP kind < (actions.take other).countP kind := by
  have next := countP_take_succ kind here
  rw [if_pos isKind] at next
  have rest := countP_take_mono actions kind (show index + 1 ≤ other from later)
  omega

/-- Statements of one kind with the same number are the same statement. -/
theorem eq_of_countP_take_eq {kind : Action → Bool} {other : Nat} {action' : Action}
    (here : actions[index]? = some action) (isKind : kind action = true)
    (here' : actions[other]? = some action') (isKind' : kind action' = true)
    (same : (actions.take index).countP kind = (actions.take other).countP kind) :
    index = other := by
  rcases Nat.lt_trichotomy index other with before | equal | after
  · have less := countP_take_lt here isKind before
    omega
  · exact equal
  · have less := countP_take_lt here' isKind' after
    omega

/-- Every number that has been reached is that of an earlier statement. -/
theorem exists_of_lt_countP_take {kind : Action → Bool} {number count : Nat}
    (reached : number < (actions.take count).countP kind) :
    ∃ index action, index < count ∧ actions[index]? = some action ∧ kind action = true ∧
      (actions.take index).countP kind = number := by
  induction count with
  | zero => exact absurd reached (by simp)
  | succ count ih =>
      cases here : actions[count]? with
      | none =>
          rw [List.take_add_one, here, Option.toList_none, List.append_nil] at reached
          obtain ⟨index, action, before, found⟩ := ih reached
          exact ⟨index, action, by omega, found⟩
      | some action =>
          rw [countP_take_succ kind here] at reached
          by_cases earlier : number < (actions.take count).countP kind
          · obtain ⟨index, action', before, found⟩ := ih earlier
            exact ⟨index, action', by omega, found⟩
          · split at reached
            · rename_i isKind
              exact ⟨count, action, by omega, here, isKind, by omega⟩
            · omega

theorem entityAt_eq_reference_iff {id : ReferenceId} :
    entityAt actions index = .reference id ↔
      referenceNumber actions index = id ∧
        ∃ name kind isMutable target,
          actions[index]? = some (.declareReference name kind isMutable target) := by
  unfold entityAt
  split
  · rename_i declares
    rw [Entity.reference.injEq]
    obtain ⟨action, here, isReference⟩ := (Option.any_eq_true _ _).mp declares
    refine ⟨fun same => ⟨same, ?_⟩, And.left⟩
    cases action with
    | declareReference name kind isMutable target => exact ⟨name, kind, isMutable, target, here⟩
    | declareBinding | rebindReference | assignBinding | assignThrough | readBinding | readThrough
    | enterScope | exitScope => exact absurd isReference (by simp [Action.isReference])
  · rename_i other
    refine ⟨fun same => absurd same (by simp), ?_⟩
    rintro ⟨-, name, kind, isMutable, target, here⟩
    exact absurd (by rw [here]; rfl) other

theorem entityAt_of_declareReference {name target : String} {kind : BorrowKind} {isMutable : Bool}
    (here : actions[index]? = some (.declareReference name kind isMutable target)) :
    entityAt actions index = .reference (referenceNumber actions index) :=
  entityAt_of_getElem? here

theorem entityAt_of_declareBinding {name tag : String} {isMutable : Bool} {init : Option Expr}
    (here : actions[index]? = some (.declareBinding name isMutable tag init)) :
    entityAt actions index = .binding (bindingNumber actions index) :=
  entityAt_of_getElem? here

/-- An action that declares a name declares a binding or a reference. -/
theorem isBinding_or_isReference {name : String} (declares : action.declares = some name) :
    action.isBinding = true ∨ action.isReference = true := by
  have named : action.declaredName = some name := (Option.filter_eq_some_iff.mp declares).1
  cases action with
  | declareBinding => exact .inl rfl
  | declareReference => exact .inr rfl
  | rebindReference | assignBinding | assignThrough | readBinding | readThrough | enterScope
  | exitScope => exact absurd named (by simp [Action.declaredName])

/-- A declaration whose entity is a binding is one of a binding. -/
theorem exists_declareBinding_of_entityAt {name : String} {id : BindingId}
    (declared : declaredAt actions index = some name)
    (entity : entityAt actions index = .binding id) :
    bindingNumber actions index = id ∧ ∃ name isMutable tag init,
      actions[index]? = some (.declareBinding name isMutable tag init) := by
  obtain ⟨action, here, declares⟩ := Option.bind_eq_some_iff.mp declared
  rw [entityAt_of_getElem? here] at entity
  split at entity
  · exact absurd entity (by simp)
  · rename_i other
    refine ⟨Entity.binding.inj entity, ?_⟩
    have isBinding := (isBinding_or_isReference declares).resolve_right other
    cases action with
    | declareBinding name isMutable tag init => exact ⟨name, isMutable, tag, init, here⟩
    | declareReference | rebindReference | assignBinding | assignThrough | readBinding
    | readThrough | enterScope | exitScope => exact absurd isBinding (by simp [Action.isBinding])

/-- **Different declarations declare different entities.** -/
theorem eq_of_entityAt_eq {other : Nat} {name name' : String}
    (declared : declaredAt actions index = some name)
    (declared' : declaredAt actions other = some name')
    (same : entityAt actions index = entityAt actions other) : index = other := by
  obtain ⟨action, here, declares⟩ := Option.bind_eq_some_iff.mp declared
  obtain ⟨action', here', declares'⟩ := Option.bind_eq_some_iff.mp declared'
  rw [entityAt_of_getElem? here, entityAt_of_getElem? here'] at same
  -- Bindings and references are counted apart, so the sorts are compared before the numbers.
  have kind := isBinding_or_isReference declares
  have kind' := isBinding_or_isReference declares'
  by_cases reference : action.isReference
  · by_cases reference' : action'.isReference
    · rw [if_pos reference, if_pos reference', Entity.reference.injEq] at same
      exact eq_of_countP_take_eq here reference here' reference' same
    · rw [if_pos reference, if_neg reference'] at same
      exact absurd same (by simp)
  · by_cases reference' : action'.isReference
    · rw [if_neg reference, if_pos reference'] at same
      exact absurd same (by simp)
    · rw [if_neg reference, if_neg reference', Entity.binding.injEq] at same
      exact eq_of_countP_take_eq here (kind.resolve_right reference) here'
        (kind'.resolve_right reference') same

end Lexical

open Lexical

/-! ## What a statement declares -/

/-- What a statement of a valid program declares in the checker: entities get the next numbers, and
the stack is changed as any. -/
structure Checker.Declares (state : State) (action : Action) (after : State) : Prop where
  bindings : after.bindings.size = state.bindings.size + if action.isBinding then 1 else 0
  references : after.references.size = state.references.size + if action.isReference then 1 else 0
  scopes : after.scopes = state.scopes.pass action
    (if action.isReference then .reference state.references.size
      else .binding state.bindings.size)

theorem Checker.Declares.of_step {names : Validation.Names} {state : State} {action : Action}
    (coherent : Coherent state) (same : names = state.scopes.map state.declaredAs)
    (accepted : (Validation.step names action).2 = []) :
    Declares state action (state.step action).1 := by
  have access : isAccess action = true → Declares state action (state.step action).1 := by
    intro reads
    rw [coherent.step_of_isAccess reads]
    cases action with
    | declareBinding | declareReference | rebindReference | enterScope | exitScope =>
        exact absurd reads (by simp [isAccess])
    | assignBinding | assignThrough | readBinding | readThrough => exact ⟨rfl, rfl, rfl⟩
  cases action with
  | declareBinding name isMutable tag init =>
      have visible := Validation.not_isBlank_of_declaredName accepted rfl
      refine ⟨?_, ?_, ?_⟩
      · show (State.declare _ name _).bindings.size = _
        rw [State.declare_bindings, Array.size_push]
        rfl
      · show (State.declare _ name _).references.size = _
        rw [State.size_eq_of_identity (fun id => State.identity_declare _ name _ id)]
        rfl
      · show (State.declare _ name _).scopes = _
        rw [State.declare_scopes, Scopes.pass_of_declaredName rfl, visible]
        rfl
  | declareReference name kind isMutable target =>
      have visible := Validation.not_isBlank_of_declaredName accepted rfl
      obtain ⟨id, found⟩ :=
        Validation.exists_binding?_of_use same (List.append_eq_nil_iff.mp accepted).1
      simp only [State.step, found, State.declareReference_eq]
      refine ⟨?_, ?_, ?_⟩
      · rw [State.declare_bindings, State.acquire_bindings]
        rfl
      · rw [State.size_eq_of_identity (fun id => State.identity_declare _ name _ id),
          State.size_eq_of_identity (fun id => State.identity_acquire _ _ id)]
        exact Array.size_push _
      · rw [State.declare_scopes, State.acquire_scopes, Scopes.pass_of_declaredName rfl, visible]
        rfl
  | rebindReference name target =>
      simp only [State.step]
      split
      · refine ⟨?_, ?_, ?_⟩
        · rw [State.rebind_bindings]
          rfl
        · exact State.size_eq_of_identity (fun id => State.identity_rebind _ _ id _)
        · rw [State.rebind_scopes]
          rfl
      · exact ⟨rfl, rfl, rfl⟩
  | assignBinding name value => exact access rfl
  | assignThrough reference value => exact access rfl
  | readBinding name => exact access rfl
  | readThrough path => exact access rfl
  | enterScope => exact ⟨rfl, rfl, rfl⟩
  | exitScope =>
      cases closed : state.scopes.exit? with
      | none =>
          rw [step_exitScope_of_exit? closed]
          exact ⟨rfl, rfl, by simp [Scopes.pass, closed]⟩
      | some found =>
          obtain ⟨frame, next, outer, stack, rfl⟩ := Scopes.frames_of_exit? closed
          rw [step_exitScope stack]
          refine ⟨?_, ?_, ?_⟩
          · rw [State.destroyAll_bindings]
            rfl
          · exact State.size_eq_of_identity (fun id => State.identity_destroyAll _ _ id)
          · rw [State.destroyAll_scopes]
            simp [Scopes.pass, closed]

/-! ## The checker along a valid program -/

/-- The state of the checker after the first `count` statements. -/
def Program.stateAt (program : Program) (count : Nat) : State :=
  stateAfter {} (program.actions.take count)

namespace Program

variable {program : Program} {action : Action} {index count : Nat}

theorem coherent_stateAt (program : Program) (count : Nat) : Coherent (program.stateAt count) :=
  coherent_stateAfter _

theorem stateAt_succ (here : program.actions[index]? = some action) :
    program.stateAt (index + 1) = ((program.stateAt index).step action).1 := by
  rw [stateAt, take_succ_of_getElem? here, stateAfter_snoc]
  rfl

/-- Every statement of a valid program is accepted where it stands. -/
theorem accepted (valid : program.errors = []) (here : program.actions[index]? = some action) :
    (Validation.step ((program.stateAt index).scopes.map (program.stateAt index).declaredAs)
      action).2 = [] := by
  have through := program.errorsFrom_take valid (index + 1)
  rw [take_succ_of_getElem? here] at through
  obtain ⟨before, none⟩ := Validation.defects_eq_nil through
  rw [Validation.scopes_eq_map before] at none
  exact none

theorem declares (valid : program.errors = []) (here : program.actions[index]? = some action) :
    Checker.Declares (program.stateAt index) action (program.stateAt (index + 1)) := by
  rw [stateAt_succ here]
  exact .of_step (program.coherent_stateAt index) rfl (accepted valid here)

/-- **Entities are numbered in the order of their declarations.** -/
theorem size_stateAt (valid : program.errors = []) (bound : count ≤ program.actions.length) :
    (program.stateAt count).bindings.size = bindingNumber program.actions count ∧
      (program.stateAt count).references.size = referenceNumber program.actions count := by
  induction count with
  | zero => exact ⟨rfl, rfl⟩
  | succ count ih =>
      have here := List.getElem?_eq_getElem bound
      have declares := declares valid here
      obtain ⟨bindings, references⟩ := ih (by omega)
      constructor
      · rw [declares.bindings, bindings]
        exact (countP_take_succ _ here).symm
      · rw [declares.references, references]
        exact (countP_take_succ _ here).symm

/-- Every reference that the checker knows was declared by some statement. -/
theorem exists_declareReference_of_lt (valid : program.errors = [])
    (bound : count ≤ program.actions.length) {id : ReferenceId}
    (known : id < (program.stateAt count).references.size) :
    ∃ declared, declared < count ∧ referenceNumber program.actions declared = id ∧
      ∃ name kind isMutable target,
        program.actions[declared]? = some (.declareReference name kind isMutable target) := by
  rw [(size_stateAt valid bound).2] at known
  obtain ⟨declared, action, before, here, isReference, number⟩ := exists_of_lt_countP_take known
  have entity := entityAt_of_getElem? here
  rw [if_pos isReference] at entity
  exact ⟨declared, before, number, (entityAt_eq_reference_iff.mp entity).2⟩

/-- **The stack of the checker is that of the history.** -/
theorem scopes_stateAt (valid : program.errors = []) (bound : count ≤ program.actions.length) :
    (program.stateAt count).scopes =
      (scopesAt program.actions count).map (entityAt program.actions) := by
  refine eq_map_scopesAt (fun count => (program.stateAt count).scopes) rfl ?_ bound
  intro index action before here
  obtain ⟨bindings, references⟩ := size_stateAt valid (show index ≤ program.actions.length by omega)
  show (program.stateAt (index + 1)).scopes = _
  rw [(declares valid here).scopes, entityAt_of_getElem? here, bindings, references]

/-- **A name means the entity of the declaration that it resolves to.** -/
theorem lookup_stateAt (valid : program.errors = []) (bound : count ≤ program.actions.length)
    (name : String) :
    (program.stateAt count).scopes.lookup name =
      (resolve program.actions count name).map (entityAt program.actions) := by
  rw [scopes_stateAt valid bound, Scopes.lookup_map, lookup_scopesAt]

theorem binding?_stateAt (valid : program.errors = []) (bound : count ≤ program.actions.length)
    {name : String} {id : BindingId} :
    (program.stateAt count).binding? name = some id ↔
      ∃ declared, resolve program.actions count name = some declared ∧
        entityAt program.actions declared = .binding id := by
  rw [State.binding?_eq_some_iff, lookup_stateAt valid bound, Option.map_eq_some_iff]

theorem reference?_stateAt (valid : program.errors = []) (bound : count ≤ program.actions.length)
    {name : String} {id : ReferenceId} :
    (program.stateAt count).reference? name = some id ↔
      ∃ declared, resolve program.actions count name = some declared ∧
        entityAt program.actions declared = .reference id := by
  rw [State.reference?_eq_some_iff, lookup_stateAt valid bound, Option.map_eq_some_iff]

/-- The innermost frame of the checker, and those around it. -/
theorem frames_stateAt (valid : program.errors = []) (bound : count ≤ program.actions.length) :
    (program.stateAt count).scopes.frames =
      Scopes.mapFrame (entityAt program.actions)
          (frameAt program.actions count (depthAt program.actions count)) ::
        (framesBelow program.actions count (depthAt program.actions count)).map
          (Scopes.mapFrame (entityAt program.actions)) := by
  rw [scopes_stateAt valid bound, scopesAt, framesBelow_succ]
  rfl

/-- What stands in the frames of the checker was declared by some statement. -/
theorem exists_declaredAt_of_mem_entities (valid : program.errors = [])
    (bound : count ≤ program.actions.length) {entity : Entity}
    (there : entity ∈ entities (program.stateAt count).scopes.frames) :
    ∃ index name, index < count ∧ declaredAt program.actions index = some name ∧
      entityAt program.actions index = entity := by
  rw [scopes_stateAt valid bound, mem_entities] at there
  obtain ⟨_, inside, name, there⟩ := there
  obtain ⟨frame, isFrame, rfl⟩ := List.mem_map.mp inside
  obtain ⟨⟨name', index⟩, entry, same⟩ := List.mem_map.mp there
  obtain ⟨level, -, rfl⟩ := List.mem_map.mp isFrame
  obtain ⟨before, -, -, declared⟩ := mem_frameAt.mp entry
  exact ⟨index, name', before, declared, congrArg Prod.snd same⟩

theorem lookupInner_stateAt (valid : program.errors = []) (bound : count ≤ program.actions.length)
    (name : String) :
    (program.stateAt count).scopes.lookupInner name =
      (List.lookup name (frameAt program.actions count (depthAt program.actions count))).map
        (entityAt program.actions) := by
  simp only [Scopes.lookupInner, frames_stateAt valid bound, Scopes.lookup_mapFrame]

/-- A valid program leaves only scopes that it has entered. -/
theorem exists_exit?_of_exitScope (valid : program.errors = [])
    (here : program.actions[index]? = some .exitScope) :
    ∃ closed, (program.stateAt index).scopes.exit? = some closed := by
  have balanced := accepted valid here
  cases closed : (program.stateAt index).scopes.exit? with
  | some result => exact ⟨result, rfl⟩
  | none =>
      simp only [Validation.step, Scopes.exit?_map, closed, Option.map_none] at balanced
      exact absurd balanced (by simp)

theorem depthAt_pos_of_exitScope (valid : program.errors = [])
    (here : program.actions[index]? = some .exitScope) : 0 < depthAt program.actions index := by
  have frames := frames_stateAt valid (Nat.le_of_lt (List.getElem?_eq_some_iff.mp here).1)
  obtain ⟨result, closed⟩ := exists_exit?_of_exitScope valid here
  by_contra outermost
  have level : depthAt program.actions index = 0 := by omega
  rw [level] at frames
  simp [Scopes.exit?, frames, framesBelow] at closed

/-- A declaration of a valid program declares the name that it is written with. -/
theorem declaredAt_of_declaredName (valid : program.errors = [])
    (here : program.actions[index]? = some action) {name : String}
    (named : action.declaredName = some name) : declaredAt program.actions index = some name := by
  have visible := Validation.not_isBlank_of_declaredName (accepted valid here) named
  rw [declaredAt_of_getElem? here, Action.declares, named, Option.filter_some_pos]
  simp [visible]

/-- The target of a reference that is declared in a valid program means a binding. -/
theorem exists_binding?_of_declareReference (valid : program.errors = []) {name target : String}
    {kind : BorrowKind} {isMutable : Bool}
    (here : program.actions[index]? = some (.declareReference name kind isMutable target)) :
    ∃ id, (program.stateAt index).binding? target = some id :=
  Validation.exists_binding?_of_use rfl (List.append_eq_nil_iff.mp (accepted valid here)).1

/-- **A reference is known as what it is declared as**, from its declaration on. -/
theorem identity_stateAt (valid : program.errors = []) (bound : count ≤ program.actions.length)
    {name target : String} {kind : BorrowKind} {isMutable : Bool}
    (here : program.actions[index]? = some (.declareReference name kind isMutable target))
    (before : index < count) :
    (program.stateAt count).identity (referenceNumber program.actions index) =
      some (name, kind, isMutable) := by
  induction count with
  | zero => exact absurd before (Nat.not_lt_zero index)
  | succ count ih =>
      by_cases now : index = count
      · -- The declaration itself: the reference gets the next number.
        subst now
        obtain ⟨id, found⟩ := exists_binding?_of_declareReference valid here
        have number := (size_stateAt valid (show index ≤ program.actions.length by omega)).2
        rw [stateAt_succ here, ← number]
        simp only [State.step, found]
        exact identity_declareReference _ name kind isMutable id
      · rw [stateAt_succ (List.getElem?_eq_getElem bound)]
        exact identity_step (ih (by omega) (by omega)) _

theorem exists_isMutable_eq (valid : program.errors = []) (bound : count ≤ program.actions.length)
    {name target : String} {kind : BorrowKind} {isMutable : Bool}
    (here : program.actions[index]? = some (.declareReference name kind isMutable target))
    (before : index < count) :
    ∃ reference,
      (program.stateAt count).references[referenceNumber program.actions index]? =
        some reference ∧ reference.isMutable = isMutable := by
  obtain ⟨reference, known, same⟩ :=
    Option.map_eq_some_iff.mp (identity_stateAt valid bound here before)
  rw [Prod.mk.injEq, Prod.mk.injEq] at same
  exact ⟨reference, known, same.2.2⟩

end Program

end Lending
