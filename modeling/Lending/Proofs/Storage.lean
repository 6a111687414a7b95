import Lending.Proofs.Declarations
import Lending.Proofs.Footprint
import Lending.Proofs.Order

/-!
# The storage of the machine

The machine goes to slots and targets by their numbers, also in programs that nobody has checked,
and only a dereference asks whether the slot that it leads to is alive. Still no number is ever out
of range, and what is met by name is alive (`Program.storage_safe`):

* **slots** — a slot is alive exactly as long as the declaration of its binding is in force
  (`denotedAt_eq_binding_iff`, with the frames of the machine as what connects the two);
* **targets** — a reference points to a slot that there is, dead or alive, and every statement keeps
  this (`TargetsKnown.step`);
* **the guarded machine** — it does what the machine does, but stops with a reason of its own where
  an entry is not there (`guardedStep`). Where all numbers are in range it never does
  (`guardedStep_eq`).
-/

namespace Lending

open Checker Lexical

namespace Evaluation

/-! ## The guarded machine -/

/-- Why the guarded machine stops. -/
inductive Stop where
  /-- The machine stops too. -/
  | fault (fault : Fault)
  /-- There is no entry with this number. -/
  | outOfRange (number : Nat)
deriving DecidableEq, Repr

/-- The entry with the given number. -/
def fetch {α : Type} (entries : Array α) (number : Nat) : Except Stop α :=
  match entries[number]? with
  | some entry => .ok entry
  | none => .error (.outOfRange number)

namespace Machine

/-- The slot that a reference points to, if it is alive. -/
def guardedDeref (machine : Machine) (name : String) : Except Stop Nat := do
  let id ← (machine.referenceId name).mapError .fault
  let slot ← fetch machine.targets id
  let found ← fetch machine.slots slot
  if found.isAlive then return slot else throw (.fault (.danglingReference name))

/-- The value in a slot. -/
def guardedLoad (machine : Machine) (slot : Nat) : Except Stop Word := do
  let found ← fetch machine.slots slot
  match found.value with
  | some value => return value
  | none => throw (.fault (.uninitializedRead found.name))

/-- The value of an expression. -/
def guardedEval (machine : Machine) : Expr → Except Stop Word
  | .int value => .ok value
  | .var name => do
      let slot ← (machine.bindingSlot name).mapError .fault
      machine.guardedLoad slot
  | .deref name => do
      let slot ← machine.guardedDeref name
      machine.guardedLoad slot
  | .binary op lhs rhs => do
      let left ← machine.guardedEval lhs
      let right ← machine.guardedEval rhs
      (arithmetic op left right).mapError .fault

/-- Stores a value in a slot. -/
def guardedStore (machine : Machine) (slot : Nat) (value : Word) :
    Except Stop (Machine × Option Reading) := do
  let _ ← fetch machine.slots slot
  return (machine.store slot value, none)

/-- Marks the slot of an entity as dead. -/
def guardedKill (machine : Machine) (entity : Denoted) : Except Stop Machine :=
  match entity with
  | .reference _ => .ok machine
  | .binding slot => do
      let _ ← fetch machine.slots slot
      return machine.kill (.binding slot)

/-- **The guarded machine.** Carries out one statement, and stops where it would go to an entry that
is not there. -/
def guardedStep (machine : Machine) : Action → Except Stop (Machine × Option Reading)
  | .declareBinding name _ _ none => .ok (machine.declareBinding name none, none)
  | .declareBinding name _ _ (some init) => do
      let value ← machine.guardedEval init
      return (machine.declareBinding name (some value), none)
  | .declareReference name _ _ target => do
      let slot ← (machine.bindingSlot target).mapError .fault
      return (machine.declareReference name slot, none)
  | .rebindReference name target => do
      let id ← (machine.referenceId name).mapError .fault
      let slot ← (machine.bindingSlot target).mapError .fault
      let _ ← fetch machine.targets id
      return ({ machine with targets := machine.targets.modify id fun _ => slot }, none)
  | .assignBinding name expr => do
      let value ← machine.guardedEval expr
      let slot ← (machine.bindingSlot name).mapError .fault
      machine.guardedStore slot value
  | .assignThrough reference expr => do
      let value ← machine.guardedEval expr
      let slot ← machine.guardedDeref reference
      machine.guardedStore slot value
  | .readBinding name => do
      let value ← machine.guardedEval (.var name)
      return (machine, some { name, value })
  | .readThrough (.borrow name) => do
      let value ← machine.guardedEval (.var name)
      return (machine, some { name, value })
  | .readThrough (.deref name) => do
      let value ← machine.guardedEval (.deref name)
      return (machine, some { name := "*" ++ name, value })
  | .enterScope => .ok ({ machine with scopes := machine.scopes.enter }, none)
  | .exitScope =>
      match machine.scopes.exit? with
      | some (entities, scopes) => do
          let after ← entities.foldlM guardedKill { machine with scopes }
          return (after, none)
      | none => .ok (machine, none)

end Machine

/-- What the reads from `index` on see, or where and why the guarded machine stops. -/
def guardedFrom (machine : Machine) (index : Nat) :
    List Action → Except (Nat × Stop) (List Observation)
  | [] => .ok []
  | action :: rest =>
      match machine.guardedStep action with
      | .error stop => .error (index, stop)
      | .ok result => (guardedFrom result.1 (index + 1) rest).map (observed index result.2 ++ ·)

/-! ## Where all numbers are in range -/

theorem mapError_bind {ε ε' α β : Type} (first : Except ε α) (next : α → Except ε β)
    (change : ε → ε') :
    (first >>= next).mapError change =
      first.mapError change >>= fun value => (next value).mapError change := by
  cases first <;> rfl

theorem ok_bind {ε α β : Type} (value : α) (next : α → Except ε β) :
    (Except.ok value >>= next) = next value :=
  rfl

theorem fetch_of_getElem? {α : Type} {entries : Array α} {number : Nat} {entry : α}
    (there : entries[number]? = some entry) : fetch entries number = .ok entry := by
  simp only [fetch, there]

namespace Machine

/-- Every reference points to a slot that there is. -/
def TargetsKnown (machine : Machine) : Prop :=
  ∀ (id slot : Nat), machine.targets[id]? = some slot → slot < machine.slots.size

/-- Every number by which the machine may go to an entry is that of one. -/
structure InRange (machine : Machine) : Prop where
  slot : ∀ {slot}, .binding slot ∈ machine.scopes.frames.flatMap Scopes.destructionOrder →
    slot < machine.slots.size
  reference : ∀ {id}, .reference id ∈ machine.scopes.frames.flatMap Scopes.destructionOrder →
    id < machine.targets.size
  target : machine.TargetsKnown

variable {machine : Machine}

theorem InRange.lt_of_bindingSlot (inRange : machine.InRange) {name : String} {slot : Nat}
    (found : machine.bindingSlot name = .ok slot) : slot < machine.slots.size :=
  inRange.slot (Scopes.mem_flatMap_of_lookup (bindingSlot_eq_ok_iff.mp found))

theorem InRange.lt_of_referenceId (inRange : machine.InRange) {name : String} {id : Nat}
    (found : machine.referenceId name = .ok id) : id < machine.targets.size :=
  inRange.reference (Scopes.mem_flatMap_of_lookup (referenceId_eq_ok_iff.mp found))

theorem lt_of_derefSlot {name : String} {slot : Nat} (led : machine.derefSlot name = .ok slot) :
    slot < machine.slots.size := by
  obtain ⟨id, -, -, alive⟩ := derefSlot_eq_ok_iff.mp led
  exact lt_size_of_isAlive alive

theorem guardedDeref_eq (inRange : machine.InRange) (name : String) :
    machine.guardedDeref name = (machine.derefSlot name).mapError .fault := by
  cases meaning : machine.referenceId name with
  | error fault =>
      simp only [guardedDeref, derefSlot, meaning]
      rfl
  | ok id =>
      obtain ⟨slot, points⟩ : ∃ slot, machine.targets[id]? = some slot :=
        ⟨_, Array.getElem?_eq_getElem (inRange.lt_of_referenceId meaning)⟩
      obtain ⟨found, there⟩ : ∃ found, machine.slots[slot]? = some found :=
        ⟨_, Array.getElem?_eq_getElem (inRange.target id slot points)⟩
      simp only [guardedDeref, derefSlot, meaning, Except.mapError, ok_bind, points, there,
        fetch_of_getElem? points, fetch_of_getElem? there, Option.map_some, Option.getD_some]
      cases found.isAlive <;> rfl

theorem guardedLoad_eq {slot : Nat} (bound : slot < machine.slots.size) :
    machine.guardedLoad slot = (machine.load slot).mapError .fault := by
  have there := Array.getElem?_eq_getElem bound
  simp only [guardedLoad, load, there, fetch_of_getElem? there, ok_bind]
  cases machine.slots[slot].value <;> rfl

theorem guardedEval_eq (inRange : machine.InRange) (expr : Expr) :
    machine.guardedEval expr = (machine.eval expr).mapError .fault := by
  induction expr with
  | int value => rfl
  | var name =>
      rw [guardedEval, eval_var, mapError_bind]
      cases found : machine.bindingSlot name with
      | error fault => rfl
      | ok slot => exact guardedLoad_eq (inRange.lt_of_bindingSlot found)
  | deref name =>
      rw [guardedEval, eval_deref, mapError_bind, guardedDeref_eq inRange]
      cases led : machine.derefSlot name with
      | error fault => rfl
      | ok slot => exact guardedLoad_eq (lt_of_derefSlot led)
  | binary op lhs rhs left right =>
      simp only [guardedEval, eval_binary, mapError_bind, left, right]

theorem guardedStore_eq {slot : Nat} (bound : slot < machine.slots.size) (value : Word) :
    machine.guardedStore slot value = .ok (machine.store slot value, none) := by
  simp only [guardedStore, fetch_of_getElem? (Array.getElem?_eq_getElem bound)]
  rfl

theorem foldlM_guardedKill {entities : List Denoted}
    (known : ∀ slot, .binding slot ∈ entities → slot < machine.slots.size) :
    entities.foldlM guardedKill machine = .ok (entities.foldl kill machine) := by
  induction entities generalizing machine with
  | nil => rfl
  | cons entity rest ih =>
      have first : machine.guardedKill entity = .ok (machine.kill entity) := by
        cases entity with
        | reference id => rfl
        | binding slot =>
            have bound := known slot List.mem_cons_self
            simp only [guardedKill, fetch_of_getElem? (Array.getElem?_eq_getElem bound)]
            rfl
      rw [List.foldlM_cons, List.foldl_cons, first]
      apply ih
      intro slot there
      rw [size_kill]
      exact known slot (List.mem_cons_of_mem _ there)

/-- **Where all numbers are in range the guarded machine does what the machine does.** -/
theorem guardedStep_eq (inRange : machine.InRange) (action : Action) :
    machine.guardedStep action = (machine.step action).mapError .fault := by
  have evaluated := guardedEval_eq inRange
  cases action with
  | declareBinding name isMutable tag init =>
      cases init with
      | none => rfl
      | some expr =>
          simp only [guardedStep, step, evaluated, mapError_bind]
          rfl
  | declareReference name kind isMutable target =>
      simp only [guardedStep, step, mapError_bind]
      rfl
  | rebindReference name target =>
      simp only [guardedStep, step]
      cases meaning : machine.referenceId name with
      | error fault => rfl
      | ok id =>
          have bound := inRange.lt_of_referenceId meaning
          simp only [Except.mapError, ok_bind, fetch_of_getElem? (Array.getElem?_eq_getElem bound)]
          cases machine.bindingSlot target <;> rfl
  | assignBinding name expr =>
      simp only [guardedStep, step, evaluated, mapError_bind]
      congr
      funext value
      cases found : machine.bindingSlot name with
      | error fault => rfl
      | ok slot => exact guardedStore_eq (inRange.lt_of_bindingSlot found) value
  | assignThrough name expr =>
      simp only [guardedStep, step, evaluated, mapError_bind, guardedDeref_eq inRange]
      congr
      funext value
      cases led : machine.derefSlot name with
      | error fault => rfl
      | ok slot => exact guardedStore_eq (lt_of_derefSlot led) value
  | readBinding name =>
      simp only [guardedStep, step, evaluated, mapError_bind]
      rfl
  | readThrough path =>
      cases path with
      | borrow name =>
          simp only [guardedStep, step, evaluated, mapError_bind]
          rfl
      | deref name =>
          simp only [guardedStep, step, evaluated, mapError_bind]
          rfl
  | enterScope => rfl
  | exitScope =>
      simp only [guardedStep, step]
      cases closed : machine.scopes.exit? with
      | none => rfl
      | some result =>
          obtain ⟨entities, scopes⟩ := result
          have killed : entities.foldlM guardedKill { machine with scopes } =
              .ok (entities.foldl kill { machine with scopes }) := by
            apply foldlM_guardedKill
            intro slot there
            obtain ⟨frame, next, outer, stack, same⟩ := Scopes.frames_of_exit? closed
            obtain ⟨rfl, -⟩ := Prod.mk.inj same
            apply inRange.slot
            rw [stack]
            exact List.mem_append_left _ there
          simp only [killed]
          rfl

end Machine

/-! ## Targets -/

/-- **Statements keep the targets in range.** -/
theorem Machine.TargetsKnown.step {machine after : Machine} {action : Action}
    {reading : Option Reading} (known : machine.TargetsKnown)
    (visible : ∀ {name slot}, machine.bindingSlot name = .ok slot → slot < machine.slots.size)
    (stepped : machine.step action = .ok (after, reading)) : after.TargetsKnown := by
  intro id slot points
  -- No statement removes a slot, so the targets that stay are known as before.
  suffices bound : slot < machine.slots.size by
    have grows := (Declares.of_step stepped).slots
    omega
  cases Effect.of_step stepped with
  | @declareReference name kind isMutable target slot' found =>
      have pushed : (machine.targets.push slot')[id]? = some slot := points
      rw [Array.getElem?_push] at pushed
      split at pushed
      · rw [← Option.some.inj pushed]
        exact visible found
      · exact known id slot pushed
  | @rebindReference name target id' slot' found found' =>
      have moved : (machine.targets.modify id' fun _ => slot')[id]? = some slot := points
      rw [getElem?_modify_ite] at moved
      split at moved
      · obtain ⟨_, -, same⟩ := Option.map_eq_some_iff.mp moved
        rw [← same]
        exact visible found'
      · exact known id slot moved
  | @exitScope entities scopes closed =>
      rw [(foldl_kill_frame entities { machine with scopes }).2.1] at points
      exact known id slot points
  | declareBinding | assignBinding | assignThrough | readBinding | readBorrowed | readThrough
  | enterScope | exitNothing => exact known id slot points

variable {actions : List Action} {machine : Machine}

theorem targetsKnown_of_reached (reached : machineAfter {} actions = .ok machine) :
    machine.TargetsKnown := by
  induction actions using List.reverseRecOn generalizing machine with
  | nil =>
      obtain rfl : {} = machine := Except.ok.inj reached
      intro id slot points
      exact absurd points (by simp)
  | append_singleton before action ih =>
      obtain ⟨machine', reading, reached', stepped⟩ := machineAfter_snoc_eq_ok_iff.mp reached
      refine (ih reached').step ?_ stepped
      intro name slot found
      exact Machine.lt_size_of_isAlive (isAlive_of_bindingSlot reached' found)

/-- **All numbers are in range** in every machine that a run reaches. -/
theorem inRange_of_reached (reached : machineAfter {} actions = .ok machine) :
    machine.InRange where
  slot := by
    intro slot declared
    apply Machine.lt_size_of_isAlive
    rw [(agrees_run reached).isAlive_iff (coherent_stateAfter actions)]
    exact declared
  reference := (agrees_run reached).lt_targets_size (coherent_stateAfter actions)
  target := targetsKnown_of_reached reached

/-- The guarded machine gets through any statements as the machine does. -/
theorem guardedFrom_eq {done : List Action} (reached : machineAfter {} done = .ok machine)
    (index : Nat) (left : List Action) :
    guardedFrom machine index left =
      (runFrom machine index left).mapError fun error => (error.index, .fault error.fault) := by
  induction left generalizing done machine index with
  | nil => rfl
  | cons action rest ih =>
      rw [guardedFrom, runFrom_cons, Machine.guardedStep_eq (inRange_of_reached reached)]
      cases stepped : machine.step action with
      | error fault => rfl
      | ok result =>
          obtain ⟨after, reading⟩ := result
          have later := ih (machineAfter_snoc_eq_ok_iff.mpr ⟨machine, reading, reached, stepped⟩)
            (index + 1)
          simp only [Except.mapError, later]
          cases runFrom after (index + 1) rest <;> rfl

end Evaluation

/-! ## Slots and their declarations -/

namespace Lexical

/-- What a declaration declares is a binding exactly if it says so. -/
theorem denotedAt_eq_binding_iff {actions : List Action} {count declared slot : Nat}
    (inForce : InForce actions count declared) :
    denotedAt actions declared = .binding slot ↔
      (∃ name isMutable tag init,
        actions[declared]? = some (.declareBinding name isMutable tag init)) ∧
      bindingNumber actions declared = slot := by
  obtain ⟨action, name, here, named⟩ := inForce.declares
  rw [denotedAt, entityAt_of_getElem? here, here]
  cases action with
  | declareBinding => simp [Action.isReference, Entity.denoted]
  | declareReference => simp [Action.isReference, Entity.denoted]
  | rebindReference | assignBinding | assignThrough | readBinding | readThrough | enterScope
  | exitScope => exact absurd named (by simp [Action.declaredName])

end Lexical

namespace Evaluation

/-- **The laws of the storage**, after the given statements. -/
structure StorageLaws (actions : List Action) (machine : Machine) : Prop where
  some_frame : machine.scopes.frames ≠ []
  /-- A binding in an open frame has a slot. -/
  slot_known : ∀ {frame name slot}, frame ∈ machine.scopes.frames →
    (name, .binding slot) ∈ frame → slot < machine.slots.size
  /-- A reference in an open frame has a target. -/
  reference_known : ∀ {frame name id}, frame ∈ machine.scopes.frames →
    (name, .reference id) ∈ frame → id < machine.targets.size
  /-- Every target is a slot. -/
  target_known : ∀ slot ∈ machine.targets, slot < machine.slots.size
  /-- A slot is alive exactly if it stands in an open frame. -/
  alive_iff_framed : ∀ slot, machine.isAlive slot = true ↔
    ∃ frame ∈ machine.scopes.frames, ∃ name, (name, .binding slot) ∈ frame
  /-- That is, if the scope in which it was declared is still open. -/
  alive_iff_open : ∀ slot, machine.isAlive slot = true ↔
    ∃ declared, (∃ name isMutable tag init,
      actions[declared]? = some (.declareBinding name isMutable tag init)) ∧
      bindingNumber actions declared = slot ∧ StillOpen actions declared actions.length
  /-- What a name means as a binding is alive. -/
  found_alive : ∀ {name slot}, machine.bindingSlot name = .ok slot → machine.isAlive slot = true
  /-- No statement leads out of range, whichever comes next. -/
  in_range : ∀ action, machine.guardedStep action = (machine.step action).mapError .fault

theorem storageLaws_of_reached {actions : List Action} {machine : Machine}
    (reached : machineAfter {} actions = .ok machine) : StorageLaws actions machine := by
  have inRange := inRange_of_reached reached
  have alive_iff : ∀ slot, machine.isAlive slot = true ↔
      .binding slot ∈ machine.scopes.frames.flatMap Scopes.destructionOrder := by
    intro slot
    exact (agrees_run reached).isAlive_iff (coherent_stateAfter actions)
  have whole : machineAfter {} (actions.take actions.length) = .ok machine := by
    rw [List.take_length]
    exact reached
  have framed : ∀ {found : Denoted},
      found ∈ machine.scopes.frames.flatMap Scopes.destructionOrder ↔
        ∃ frame ∈ machine.scopes.frames, ∃ name, (name, found) ∈ frame := by
    simp [Scopes.destructionOrder]
  refine ⟨?_, ?_, ?_, ?_, ?_, ?_, isAlive_of_bindingSlot reached, Machine.guardedStep_eq inRange⟩
  · obtain ⟨-, depth⟩ := levels_of_reached (Nat.le_refl _) whole
    intro none
    rw [none] at depth
    exact absurd depth (by simp)
  · intro frame name slot inside there
    exact inRange.slot (framed.mpr ⟨frame, inside, name, there⟩)
  · intro frame name id inside there
    exact inRange.reference (framed.mpr ⟨frame, inside, name, there⟩)
  · intro slot there
    obtain ⟨id, points⟩ := Array.getElem?_of_mem there
    exact inRange.target id slot points
  · intro slot
    rw [alive_iff, framed]
  · intro slot
    rw [alive_iff, mem_frames_iff (Nat.le_refl _) whole]
    apply exists_congr
    intro declared
    constructor
    · intro held
      obtain ⟨inForce, same⟩ := held
      obtain ⟨declares, number⟩ := (denotedAt_eq_binding_iff inForce).mp same
      exact ⟨declares, number, inForce.isOpen⟩
    · intro held
      obtain ⟨⟨name, isMutable, tag, init, here⟩, number, isOpen⟩ := held
      have inForce : InForce actions actions.length declared :=
        ⟨(List.getElem?_eq_some_iff.mp here).1, ⟨_, name, here, rfl⟩, isOpen⟩
      exact ⟨inForce, (denotedAt_eq_binding_iff inForce).mpr ⟨⟨_, _, _, _, here⟩, number⟩⟩

end Evaluation

open Evaluation

/-- **The machine is safe in any program.** Whatever statements of a program have been carried out,
valid or not, a frame is open, names and references lead to entries that are there, a slot is alive
exactly as long as the scope is open in which it was declared, and no statement leads out of range.
So the guarded machine runs the program as the machine does. -/
theorem Program.storage_safe (program : Program) :
    (∀ count machine, machineAfter {} (program.actions.take count) = .ok machine →
      StorageLaws (program.actions.take count) machine) ∧
    guardedFrom {} 0 program.actions =
      program.run.mapError fun error => (error.index, .fault error.fault) := by
  refine ⟨?_, ?_⟩
  · intro count machine reached
    exact storageLaws_of_reached reached
  · exact guardedFrom_eq (show machineAfter {} [] = .ok {} from rfl) 0 program.actions

/-- `} let a = 0; let mut r = &a; { let  = 0; rebind r -> ; } read a; read *r;`, where the inner
binding has an empty name: an exit that closes nothing, then a reference to a slot that has died. -/
def stranded : Program where
  statements := [
    { action := .exitScope },
    { action := .declareBinding "a" false "i64" (some (.int default)) },
    { action := .declareReference "r" .shared true "a" },
    { action := .enterScope },
    { action := .declareBinding "" false "i64" (some (.int default)) },
    { action := .rebindReference "r" "" },
    { action := .exitScope },
    { action := .readBinding "a" },
    { action := .readThrough (.deref "r") }]

/-- After the block the only target is the slot that died with it, and it is still in range. The
guarded machine stops where the machine does. -/
theorem Program.storage_safe_stranded :
    ∃ machine, machineAfter {} (stranded.actions.take 7) = .ok machine ∧
      machine.targets = #[1] ∧ machine.isAlive 0 = true ∧ machine.isAlive 1 = false ∧
      StorageLaws (stranded.actions.take 7) machine ∧
      guardedFrom {} 0 stranded.actions = .error (8, .fault (.danglingReference "r")) := by
  obtain ⟨laws, guarded⟩ := Program.storage_safe stranded
  have failed : stranded.run = .error ⟨8, .danglingReference "r"⟩ := by decide
  rw [failed] at guarded
  refine ⟨_, rfl, ?_, ?_, ?_, laws 7 _ rfl, guarded⟩ <;> decide

end Lending
