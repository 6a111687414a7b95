import Lending.Proofs.Evaluation

/-!
# Footprints of statements

Which slots a statement reads and writes, as far as the names in it say:

* **writes** — a statement keeps the value of every slot that none of the names it assigns leads to
  (`valueAt_of_step`);
* **reads** — a statement does the same, whatever the value of a slot that none of its names leads
  to (`step_withValue`).
-/

namespace Lending

/-- The names whose values an action reads. -/
def Action.reads : Action → List NameUse
  | .declareBinding _ _ _ none => []
  | .declareBinding _ _ _ (some init) => init.names
  | .declareReference .. => []
  | .rebindReference .. => []
  | .assignBinding _ value => value.names
  | .assignThrough _ value => value.names
  | .readBinding name => [⟨name, false⟩]
  | .readThrough (.deref name) => [⟨name, true⟩]
  | .readThrough (.borrow name) => [⟨name, false⟩]
  | .enterScope => []
  | .exitScope => []

/-- The name whose value an action assigns, if it assigns one. -/
def Action.writes : Action → List NameUse
  | .assignBinding name _ => [⟨name, false⟩]
  | .assignThrough reference _ => [⟨reference, true⟩]
  | _ => []

/-- The names of the references that an action follows. -/
def Action.dereferences (action : Action) : List String :=
  ((action.reads ++ action.writes).filter (·.isDeref)).map (·.name)

namespace Evaluation

namespace Machine

variable {machine after : Machine} {slot : Nat}

/-- The slot that a name leads to. -/
def reach (machine : Machine) (mention : NameUse) : Except Fault Nat :=
  if mention.isDeref then machine.derefSlot mention.name else machine.bindingSlot mention.name

/-- The value of a slot, if there is such a slot. -/
def valueAt (machine : Machine) (slot : Nat) : Option (Option Word) :=
  machine.slots[slot]?.map (·.value)

/-- The machine with another value in a slot. -/
def withValue (machine : Machine) (slot : Nat) (value : Option Word) : Machine :=
  { machine with slots := machine.slots.modify slot fun found => { found with value } }

theorem lt_size_of_isAlive (alive : machine.isAlive slot = true) : slot < machine.slots.size := by
  rcases Nat.lt_or_ge slot machine.slots.size with bound | beyond
  · exact bound
  · rw [isAlive, Array.getElem?_eq_none beyond] at alive
    exact absurd alive (by simp)

/-! ## Writes -/

theorem valueAt_store {other : Nat} (different : other ≠ slot) (value : Word) :
    (machine.store other value).valueAt slot = machine.valueAt slot := by
  show (machine.slots.modify other _)[slot]?.map _ = _
  rw [Array.getElem?_modify, if_neg different]
  rfl

theorem valueAt_kill (entity : Denoted) :
    (machine.kill entity).valueAt slot = machine.valueAt slot := by
  cases entity with
  | reference id => rfl
  | binding other => exact map_getElem?_modify machine.slots (fun _ => by rfl) other slot

theorem valueAt_foldl_kill (entities : List Denoted) :
    (entities.foldl kill machine).valueAt slot = machine.valueAt slot := by
  induction entities generalizing machine with
  | nil => rfl
  | cons entity rest ih => rw [List.foldl_cons, ih, valueAt_kill]

theorem valueAt_declareBinding (bound : slot < machine.slots.size) (name : String)
    (value : Option Word) :
    (machine.declareBinding name value).valueAt slot = machine.valueAt slot := by
  show (machine.slots.push _)[slot]?.map _ = _
  rw [Array.getElem?_push, if_neg (Nat.ne_of_lt bound)]
  rfl

/-- **Statements write only where the names they assign lead to.** -/
theorem valueAt_of_step {action : Action} {reading : Option Reading}
    (stepped : machine.step action = .ok (after, reading)) (bound : slot < machine.slots.size)
    (apart : ∀ mention ∈ action.writes, machine.reach mention ≠ .ok slot) :
    after.valueAt slot = machine.valueAt slot := by
  cases Effect.of_step stepped with
  | declareBinding computed => exact valueAt_declareBinding bound _ _
  | declareReference found => rfl
  | rebindReference found found' => rfl
  | assignBinding computed found =>
      apply valueAt_store
      rintro rfl
      exact apart _ List.mem_cons_self found
  | assignThrough computed found =>
      apply valueAt_store
      rintro rfl
      exact apart _ List.mem_cons_self found
  | readBinding computed => rfl
  | readBorrowed computed => rfl
  | readThrough computed => rfl
  | enterScope => rfl
  | exitScope closed => exact valueAt_foldl_kill _
  | exitNothing none => rfl

/-! ## Reads -/

variable (value : Option Word)

theorem isAlive_withValue (other : Nat) :
    (machine.withValue slot value).isAlive other = machine.isAlive other := by
  rw [isAlive, isAlive]
  congr 1
  exact map_getElem?_modify machine.slots (fun _ => by rfl) slot other

theorem valueAt_withValue :
    (machine.withValue slot value).valueAt slot = (machine.valueAt slot).map fun _ => value := by
  show (machine.slots.modify slot _)[slot]?.map _ = _
  rw [Array.getElem?_modify, if_pos rfl, valueAt, Option.map_map, Option.map_map]
  rfl

theorem derefSlot_withValue (name : String) :
    (machine.withValue slot value).derefSlot name = machine.derefSlot name := by
  -- A reference asks whether its slot is alive, not what is in it.
  have alive := @isAlive_withValue machine slot value
  simp only [isAlive] at alive
  simp only [derefSlot, alive]
  rfl

theorem load_withValue {other : Nat} (different : other ≠ slot) :
    (machine.withValue slot value).load other = machine.load other := by
  have found : (machine.withValue slot value).slots[other]? = machine.slots[other]? := by
    show (machine.slots.modify slot _)[other]? = _
    rw [Array.getElem?_modify, if_neg (Ne.symm different)]
  simp only [load, found]

theorem bindingSlot_withValue (name : String) :
    (machine.withValue slot value).bindingSlot name = machine.bindingSlot name := rfl

theorem eval_withValue {expr : Expr}
    (apart : ∀ mention ∈ expr.names, machine.reach mention ≠ .ok slot) :
    (machine.withValue slot value).eval expr = machine.eval expr := by
  induction expr with
  | int word => rfl
  | var name =>
      simp only [eval, bindingSlot_withValue]
      cases found : machine.bindingSlot name with
      | error fault => rfl
      | ok other =>
          apply load_withValue
          rintro rfl
          exact apart ⟨name, false⟩ List.mem_cons_self found
  | deref name =>
      simp only [eval, derefSlot_withValue]
      cases found : machine.derefSlot name with
      | error fault => rfl
      | ok other =>
          apply load_withValue
          rintro rfl
          exact apart ⟨name, true⟩ List.mem_cons_self found
  | binary op lhs rhs left right =>
      simp only [eval, left (fun _ there => apart _ (List.mem_append_left _ there)),
        right (fun _ there => apart _ (List.mem_append_right _ there))]

theorem store_withValue {other : Nat} (different : other ≠ slot) (word : Word) :
    (machine.withValue slot value).store other word =
      (machine.store other word).withValue slot value := by
  simp only [store, withValue, mk.injEq, and_true]
  exact modify_comm _ (fun same => absurd same different)

/-- How assignments end: with a store to the slot that their target leads to. -/
theorem storeAt_withValue {target : Except Fault Nat} (elsewhere : target ≠ .ok slot)
    (word : Word) :
    (target >>= fun other => pure ((machine.withValue slot value).store other word, none)) =
      Except.map
        (fun result : Machine × Option Reading => (result.1.withValue slot value, result.2))
        (target >>= fun other => pure (machine.store other word, none)) := by
  cases target with
  | error fault => rfl
  | ok other =>
      have different : other ≠ slot := fun same => elsewhere (by rw [same])
      show Except.ok _ = Except.ok _
      rw [store_withValue value different]

theorem kill_withValue (entity : Denoted) :
    (machine.withValue slot value).kill entity = (machine.kill entity).withValue slot value := by
  cases entity with
  | reference id => rfl
  | binding other =>
      simp only [kill, withValue, mk.injEq, and_true]
      exact modify_comm _ (fun _ _ => rfl)

theorem foldl_kill_withValue (entities : List Denoted) :
    entities.foldl kill (machine.withValue slot value) =
      (entities.foldl kill machine).withValue slot value := by
  induction entities generalizing machine with
  | nil => rfl
  | cons entity rest ih => rw [List.foldl_cons, List.foldl_cons, kill_withValue, ih]

theorem declareBinding_withValue (bound : slot < machine.slots.size) (name : String)
    (initial : Option Word) :
    (machine.withValue slot value).declareBinding name initial =
      (machine.declareBinding name initial).withValue slot value := by
  have pushed : ∀ new : Slot,
      (machine.slots.modify slot fun found => { found with value }).push new =
      (machine.slots.push new).modify slot fun found => { found with value } := by
    intro new
    apply Array.ext_getElem?
    intro index
    simp only [Array.getElem?_push, Array.getElem?_modify, Array.size_modify]
    by_cases last : index = machine.slots.size
    · rw [if_pos last, if_neg (by omega), if_pos last]
    · rw [if_neg last, if_neg last]
  simp only [declareBinding, withValue, pushed, Array.size_modify]

/-- **Statements do not see the slots that their names do not lead to.** -/
theorem step_withValue {action : Action} (bound : slot < machine.slots.size)
    (apart : ∀ mention ∈ action.reads ++ action.writes, machine.reach mention ≠ .ok slot) :
    (machine.withValue slot value).step action =
      (machine.step action).map fun result => (result.1.withValue slot value, result.2) := by
  have reads : ∀ mention ∈ action.reads, machine.reach mention ≠ .ok slot :=
    fun mention there => apart mention (List.mem_append_left _ there)
  have writes : ∀ mention ∈ action.writes, machine.reach mention ≠ .ok slot :=
    fun mention there => apart mention (List.mem_append_right _ there)
  cases action with
  | declareBinding name isMutable tag init =>
      cases init with
      | none =>
          simp only [step, Except.map, declareBinding_withValue value bound]
      | some expr =>
          simp only [step, eval_withValue value reads]
          cases machine.eval expr with
          | error fault => rfl
          | ok word =>
              show Except.ok _ = Except.ok _
              rw [declareBinding_withValue value bound]
  | declareReference name kind isMutable target =>
      simp only [step, bindingSlot_withValue]
      cases machine.bindingSlot target <;> rfl
  | rebindReference name target =>
      simp only [step, bindingSlot_withValue]
      show (machine.referenceId name >>= _) = _
      cases machine.referenceId name with
      | error fault => rfl
      | ok id => cases machine.bindingSlot target <;> rfl
  | assignBinding name expr =>
      simp only [step, eval_withValue value reads, bindingSlot_withValue]
      cases machine.eval expr with
      | error fault => rfl
      | ok word => exact storeAt_withValue value (writes _ List.mem_cons_self) word
  | assignThrough name expr =>
      simp only [step, eval_withValue value reads, derefSlot_withValue]
      cases machine.eval expr with
      | error fault => rfl
      | ok word => exact storeAt_withValue value (writes _ List.mem_cons_self) word
  | readBinding name =>
      have same : (machine.withValue slot value).eval (.var name) = machine.eval (.var name) :=
        eval_withValue value reads
      simp only [step, same]
      cases machine.eval (.var name) <;> rfl
  | readThrough path =>
      cases path with
      | borrow name =>
          have same : (machine.withValue slot value).eval (.var name) = machine.eval (.var name) :=
            eval_withValue value reads
          simp only [step, same]
          cases machine.eval (.var name) <;> rfl
      | deref name =>
          have same : (machine.withValue slot value).eval (.deref name) =
              machine.eval (.deref name) := eval_withValue value reads
          simp only [step, same]
          cases machine.eval (.deref name) <;> rfl
  | enterScope => rfl
  | exitScope =>
      have scopes : (machine.withValue slot value).scopes = machine.scopes := rfl
      simp only [step, scopes]
      cases machine.scopes.exit? with
      | none => rfl
      | some closed =>
          let inner : Machine := { machine with scopes := closed.2 }
          have same : closed.1.foldl kill (inner.withValue slot value) =
              (closed.1.foldl kill inner).withValue slot value :=
            foldl_kill_withValue value closed.1
          exact congrArg (fun after => Except.ok (after, none)) same

end Machine

end Evaluation

end Lending
