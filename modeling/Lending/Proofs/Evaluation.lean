import Lending.Evaluation
import Lending.Proofs.Scopes

/-!
# Laws of the machine

What one statement does to the machine, and why it fails:

* **effects** — `Effect` lists, one case per kind of statement, what a step that succeeds found and
  what it made of the machine (`Effect.of_step`); every property of a step is read off it;
* **faults** — a step that meets a dead slot met it through the reference that its fault names
  (`derefSlot_of_step_error`), and a step in which all names resolve does not fail for want of a
  name (`step_ne_unknownName`).
-/

namespace Lending

/-- The names that an action uses, in the order in which they are looked up. -/
def Action.uses : Action → List NameUse
  | .declareBinding _ _ _ none => []
  | .declareBinding _ _ _ (some init) => init.names
  | .declareReference _ _ _ target => [⟨target, false⟩]
  | .rebindReference name target => [⟨name, true⟩, ⟨target, false⟩]
  | .assignBinding name value => value.names ++ [⟨name, false⟩]
  | .assignThrough reference value => value.names ++ [⟨reference, true⟩]
  | .readBinding name => [⟨name, false⟩]
  | .readThrough (.deref name) => [⟨name, true⟩]
  | .readThrough (.borrow name) => [⟨name, false⟩]
  | .enterScope => []
  | .exitScope => []

namespace Evaluation

theorem bind_eq_ok_iff {ε α β : Type} {first : Except ε α} {next : α → Except ε β} {result : β} :
    (first >>= next) = .ok result ↔ ∃ value, first = .ok value ∧ next value = .ok result := by
  cases first with
  | error fault => simp [bind, Except.bind]
  | ok value => simp [bind, Except.bind]

theorem bind_eq_error_iff {ε α β : Type} {first : Except ε α} {next : α → Except ε β} {fault : ε} :
    (first >>= next) = .error fault ↔
      first = .error fault ∨ ∃ value, first = .ok value ∧ next value = .error fault := by
  cases first with
  | error other => simp [bind, Except.bind]
  | ok value => simp [bind, Except.bind]

namespace Machine

variable {machine after : Machine}

/-! ## Names -/

theorem bindingSlot_eq_ok_iff {name : String} {slot : Nat} :
    machine.bindingSlot name = .ok slot ↔ machine.scopes.lookup name = some (.binding slot) := by
  unfold bindingSlot
  split
  · rename_i other meaning
    rw [meaning, Except.ok.injEq, Option.some.injEq, Denoted.binding.injEq]
  · rename_i other
    exact ⟨fun found => absurd found (by simp), fun meaning => absurd meaning (other slot)⟩

theorem referenceId_eq_ok_iff {name : String} {id : Nat} :
    machine.referenceId name = .ok id ↔ machine.scopes.lookup name = some (.reference id) := by
  unfold referenceId
  split
  · rename_i other meaning
    rw [meaning, Except.ok.injEq, Option.some.injEq, Denoted.reference.injEq]
  · rename_i other
    exact ⟨fun found => absurd found (by simp), fun meaning => absurd meaning (other id)⟩

/-- Looking a binding up fails in one way only. -/
theorem bindingSlot_error {name : String} {fault : Fault}
    (failed : machine.bindingSlot name = .error fault) : fault = .unknownName name := by
  unfold bindingSlot at failed
  split at failed
  · exact absurd failed (by simp)
  · exact (Except.error.inj failed).symm

theorem referenceId_error {name : String} {fault : Fault}
    (failed : machine.referenceId name = .error fault) : fault = .unknownName name := by
  unfold referenceId at failed
  split at failed
  · exact absurd failed (by simp)
  · exact (Except.error.inj failed).symm

/-- Whether a slot is there and alive. -/
def isAlive (machine : Machine) (slot : Nat) : Bool :=
  (machine.slots[slot]?.map (·.isAlive)).getD false

theorem derefSlot_eq_ok_iff {name : String} {slot : Nat} :
    machine.derefSlot name = .ok slot ↔
      ∃ id, machine.scopes.lookup name = some (.reference id) ∧
        machine.targets[id]? = some slot ∧ machine.isAlive slot = true := by
  unfold derefSlot
  constructor
  · intro found
    split at found
    · exact absurd found (by simp)
    · rename_i id meaning
      split at found
      · exact absurd found (by simp)
      · rename_i target points
        split at found
        · rename_i alive
          obtain rfl : target = slot := Except.ok.inj found
          exact ⟨id, referenceId_eq_ok_iff.mp meaning, points, alive⟩
        · exact absurd found (by simp)
  · rintro ⟨id, meaning, points, alive⟩
    rw [isAlive] at alive
    simp only [referenceId_eq_ok_iff.mpr meaning, points, alive, if_true]

/-- A reference is reported as dangling when it points to a slot that is not alive. -/
theorem derefSlot_eq_dangling_iff {name dangling : String} :
    machine.derefSlot name = .error (.danglingReference dangling) ↔
      dangling = name ∧ ∃ id slot, machine.scopes.lookup name = some (.reference id) ∧
        machine.targets[id]? = some slot ∧ machine.isAlive slot = false := by
  unfold derefSlot
  constructor
  · intro failed
    split at failed
    · rename_i fault missing
      rw [referenceId_error missing] at failed
      exact absurd failed (by simp)
    · rename_i id meaning
      split at failed
      · exact absurd failed (by simp)
      · rename_i slot points
        split at failed
        · exact absurd failed (by simp)
        · rename_i dead
          rw [Except.error.injEq, Fault.danglingReference.injEq] at failed
          exact ⟨failed.symm, id, slot, referenceId_eq_ok_iff.mp meaning, points,
            Bool.eq_false_iff.mpr dead⟩
  · rintro ⟨rfl, id, slot, meaning, points, dead⟩
    rw [isAlive] at dead
    simp only [referenceId_eq_ok_iff.mpr meaning, points, dead, Bool.false_eq_true, if_false]

theorem isAlive_kill_binding (machine : Machine) (slot other : Nat) :
    (machine.kill (.binding slot)).isAlive other =
      if other = slot then false else machine.isAlive other := by
  show ((machine.slots.modify slot _)[other]?.map _).getD false = _
  rw [getElem?_modify_ite]
  split
  · cases machine.slots[slot]? <;> rfl
  · rfl

theorem isAlive_store (machine : Machine) (slot other : Nat) (value : Word) :
    (machine.store slot value).isAlive other = machine.isAlive other := by
  rw [isAlive, isAlive]
  congr 1
  exact map_getElem?_modify machine.slots (fun _ => by rfl) slot other

theorem kill_scopes (machine : Machine) (entity : Denoted) :
    (machine.kill entity).scopes = machine.scopes := by
  cases entity <;> rfl

theorem kill_targets (machine : Machine) (entity : Denoted) :
    (machine.kill entity).targets = machine.targets := by
  cases entity <;> rfl

theorem size_kill (machine : Machine) (entity : Denoted) :
    (machine.kill entity).slots.size = machine.slots.size := by
  cases entity with
  | reference id => rfl
  | binding slot => exact Array.size_modify

/-- Killing slots changes nothing but whether they are alive. -/
theorem foldl_kill_frame (entities : List Denoted) (machine : Machine) :
    (entities.foldl kill machine).scopes = machine.scopes ∧
      (entities.foldl kill machine).targets = machine.targets ∧
      (entities.foldl kill machine).slots.size = machine.slots.size := by
  induction entities generalizing machine with
  | nil => exact ⟨rfl, rfl, rfl⟩
  | cons entity rest ih =>
      obtain ⟨scopes, targets, slots⟩ := ih (machine.kill entity)
      rw [List.foldl_cons, scopes, targets, slots, kill_scopes, kill_targets, size_kill]
      exact ⟨rfl, rfl, rfl⟩

/-! ## Effects -/

/-- What a statement that succeeds does: the machine after it, and what it read. -/
inductive Effect (machine : Machine) : Action → Machine → Option Reading → Prop
  | declareBinding {name : String} {isMutable : Bool} {tag : String} {init : Option Expr}
      {value : Option Word} :
      init.mapM machine.eval = .ok value →
      Effect machine (.declareBinding name isMutable tag init)
        (machine.declareBinding name value) none
  | declareReference {name : String} {kind : BorrowKind} {isMutable : Bool} {target : String}
      {slot : Nat} :
      machine.bindingSlot target = .ok slot →
      Effect machine (.declareReference name kind isMutable target)
        (machine.declareReference name slot) none
  | rebindReference {name target : String} {id slot : Nat} :
      machine.referenceId name = .ok id → machine.bindingSlot target = .ok slot →
      Effect machine (.rebindReference name target)
        { machine with targets := machine.targets.modify id fun _ => slot } none
  | assignBinding {name : String} {expr : Expr} {value : Word} {slot : Nat} :
      machine.eval expr = .ok value → machine.bindingSlot name = .ok slot →
      Effect machine (.assignBinding name expr) (machine.store slot value) none
  | assignThrough {name : String} {expr : Expr} {value : Word} {slot : Nat} :
      machine.eval expr = .ok value → machine.derefSlot name = .ok slot →
      Effect machine (.assignThrough name expr) (machine.store slot value) none
  | readBinding {name : String} {value : Word} :
      machine.eval (.var name) = .ok value →
      Effect machine (.readBinding name) machine (some { name, value })
  | readBorrowed {name : String} {value : Word} :
      machine.eval (.var name) = .ok value →
      Effect machine (.readThrough (.borrow name)) machine (some { name, value })
  | readThrough {name : String} {value : Word} :
      machine.eval (.deref name) = .ok value →
      Effect machine (.readThrough (.deref name)) machine (some { name := "*" ++ name, value })
  | enterScope :
      Effect machine .enterScope { machine with scopes := machine.scopes.enter } none
  | exitScope {entities : List Denoted} {scopes : Scopes Denoted} :
      machine.scopes.exit? = some (entities, scopes) →
      Effect machine .exitScope (entities.foldl kill { machine with scopes }) none
  | exitNothing :
      machine.scopes.exit? = none → Effect machine .exitScope machine none

theorem pure_eq_ok_iff {ε α : Type} {value result : α} :
    (pure value : Except ε α) = .ok result ↔ value = result := by
  show Except.ok value = _ ↔ _
  rw [Except.ok.injEq]

/-- **Steps have effects.** -/
theorem Effect.of_step {action : Action} {reading : Option Reading}
    (stepped : machine.step action = .ok (after, reading)) :
    Effect machine action after reading := by
  cases action with
  | declareBinding name isMutable tag init =>
      cases init with
      | none =>
          obtain ⟨rfl, rfl⟩ := Prod.mk.inj (Except.ok.inj stepped)
          exact .declareBinding rfl
      | some expr =>
          obtain ⟨value, computed, rest⟩ := bind_eq_ok_iff.mp stepped
          obtain ⟨rfl, rfl⟩ := Prod.mk.inj (pure_eq_ok_iff.mp rest)
          refine .declareBinding ?_
          rw [Option.mapM_some, computed]
          rfl
  | declareReference name kind isMutable target =>
      obtain ⟨slot, found, rest⟩ := bind_eq_ok_iff.mp stepped
      obtain ⟨rfl, rfl⟩ := Prod.mk.inj (pure_eq_ok_iff.mp rest)
      exact .declareReference found
  | rebindReference name target =>
      obtain ⟨id, found, rest⟩ := bind_eq_ok_iff.mp stepped
      obtain ⟨slot, found', rest⟩ := bind_eq_ok_iff.mp rest
      obtain ⟨rfl, rfl⟩ := Prod.mk.inj (pure_eq_ok_iff.mp rest)
      exact .rebindReference found found'
  | assignBinding name expr =>
      obtain ⟨value, computed, rest⟩ := bind_eq_ok_iff.mp stepped
      obtain ⟨slot, found, rest⟩ := bind_eq_ok_iff.mp rest
      obtain ⟨rfl, rfl⟩ := Prod.mk.inj (pure_eq_ok_iff.mp rest)
      exact .assignBinding computed found
  | assignThrough name expr =>
      obtain ⟨value, computed, rest⟩ := bind_eq_ok_iff.mp stepped
      obtain ⟨slot, found, rest⟩ := bind_eq_ok_iff.mp rest
      obtain ⟨rfl, rfl⟩ := Prod.mk.inj (pure_eq_ok_iff.mp rest)
      exact .assignThrough computed found
  | readBinding name =>
      obtain ⟨value, computed, rest⟩ := bind_eq_ok_iff.mp stepped
      obtain ⟨rfl, rfl⟩ := Prod.mk.inj (pure_eq_ok_iff.mp rest)
      exact .readBinding computed
  | readThrough path =>
      cases path with
      | borrow name =>
          obtain ⟨value, computed, rest⟩ := bind_eq_ok_iff.mp stepped
          obtain ⟨rfl, rfl⟩ := Prod.mk.inj (pure_eq_ok_iff.mp rest)
          exact .readBorrowed computed
      | deref name =>
          obtain ⟨value, computed, rest⟩ := bind_eq_ok_iff.mp stepped
          obtain ⟨rfl, rfl⟩ := Prod.mk.inj (pure_eq_ok_iff.mp rest)
          exact .readThrough computed
  | enterScope =>
      obtain ⟨rfl, rfl⟩ := Prod.mk.inj (Except.ok.inj stepped)
      exact .enterScope
  | exitScope =>
      rw [step] at stepped
      split at stepped
      · rename_i entities scopes closed
        obtain ⟨rfl, rfl⟩ := Prod.mk.inj (Except.ok.inj stepped)
        exact .exitScope closed
      · rename_i none
        obtain ⟨rfl, rfl⟩ := Prod.mk.inj (Except.ok.inj stepped)
        exact .exitNothing none

/-! ## Faults -/

theorem eval_var (name : String) :
    machine.eval (.var name) = machine.bindingSlot name >>= machine.load := by
  rw [eval]
  cases machine.bindingSlot name <;> rfl

theorem eval_deref (name : String) :
    machine.eval (.deref name) = machine.derefSlot name >>= machine.load := by
  rw [eval]
  cases machine.derefSlot name <;> rfl

theorem eval_binary (op : BinOp) (lhs rhs : Expr) :
    machine.eval (.binary op lhs rhs) =
      machine.eval lhs >>= fun left => machine.eval rhs >>= fun right =>
        arithmetic op left right := by
  rw [eval]
  cases machine.eval lhs with
  | error fault => rfl
  | ok left => cases machine.eval rhs <;> rfl

theorem load_error {slot : Nat} {fault : Fault} (failed : machine.load slot = .error fault) :
    ∃ name, fault = .uninitializedRead name := by
  unfold load at failed
  split at failed
  · exact ⟨"", (Except.error.inj failed).symm⟩
  · rename_i found _
    split at failed
    · exact absurd failed (by simp)
    · exact ⟨found.name, (Except.error.inj failed).symm⟩

theorem arithmetic_error {op : BinOp} {lhs rhs : Word} {fault : Fault}
    (failed : arithmetic op lhs rhs = .error fault) : fault = .overflow := by
  unfold arithmetic at failed
  split at failed
  · exact absurd failed (by simp)
  · exact (Except.error.inj failed).symm

/-- A dead slot that an expression meets is met through the reference that the fault names. -/
theorem derefSlot_of_eval_error {expr : Expr} {name : String}
    (failed : machine.eval expr = .error (.danglingReference name)) :
    machine.derefSlot name = .error (.danglingReference name) := by
  induction expr with
  | int value => exact absurd failed (by simp [eval])
  | var other =>
      rw [eval] at failed
      split at failed
      · obtain ⟨_, impossible⟩ := load_error failed
        exact absurd impossible (by simp)
      · rename_i fault missing
        rw [bindingSlot_error missing] at failed
        exact absurd failed (by simp)
  | deref other =>
      rw [eval] at failed
      split at failed
      · obtain ⟨_, impossible⟩ := load_error failed
        exact absurd impossible (by simp)
      · -- A fault of the reference names the reference itself.
        rename_i fault dead
        rw [Except.error.inj failed] at dead
        obtain ⟨rfl, -⟩ := derefSlot_eq_dangling_iff.mp dead
        exact dead
  | binary op lhs rhs left right =>
      rw [eval] at failed
      split at failed
      · rename_i fault stuck
        rw [Except.error.inj failed] at stuck
        exact left stuck
      · split at failed
        · rename_i fault stuck
          rw [Except.error.inj failed] at stuck
          exact right stuck
        · exact absurd (arithmetic_error failed) (by simp)

/-- What a statement that fails fails at. -/
inductive Failure (machine : Machine) : Action → Fault → Prop
  | init {name : String} {isMutable : Bool} {tag : String} {expr : Expr} {fault : Fault} :
      machine.eval expr = .error fault →
      Failure machine (.declareBinding name isMutable tag (some expr)) fault
  | target {name : String} {kind : BorrowKind} {isMutable : Bool} {target : String}
      {fault : Fault} :
      machine.bindingSlot target = .error fault →
      Failure machine (.declareReference name kind isMutable target) fault
  | rebound {name target : String} {fault : Fault} :
      machine.referenceId name = .error fault →
      Failure machine (.rebindReference name target) fault
  | newTarget {name target : String} {fault : Fault} :
      machine.bindingSlot target = .error fault →
      Failure machine (.rebindReference name target) fault
  | value {name : String} {expr : Expr} {fault : Fault} :
      machine.eval expr = .error fault → Failure machine (.assignBinding name expr) fault
  | assigned {name : String} {expr : Expr} {fault : Fault} :
      machine.bindingSlot name = .error fault → Failure machine (.assignBinding name expr) fault
  | valueThrough {name : String} {expr : Expr} {fault : Fault} :
      machine.eval expr = .error fault → Failure machine (.assignThrough name expr) fault
  | assignedThrough {name : String} {expr : Expr} {fault : Fault} :
      machine.derefSlot name = .error fault → Failure machine (.assignThrough name expr) fault
  | read {name : String} {fault : Fault} :
      machine.eval (.var name) = .error fault → Failure machine (.readBinding name) fault
  | readBorrowed {name : String} {fault : Fault} :
      machine.eval (.var name) = .error fault →
      Failure machine (.readThrough (.borrow name)) fault
  | readThrough {name : String} {fault : Fault} :
      machine.eval (.deref name) = .error fault →
      Failure machine (.readThrough (.deref name)) fault

theorem pure_ne_error {ε α : Type} {value : α} {fault : ε} :
    (pure value : Except ε α) ≠ .error fault := by
  intro impossible
  cases impossible

/-- **Steps fail at something.** -/
theorem Failure.of_step {action : Action} {fault : Fault}
    (failed : machine.step action = .error fault) : Failure machine action fault := by
  cases action with
  | declareBinding name isMutable tag init =>
      cases init with
      | none => exact absurd failed (by simp [step])
      | some expr =>
          rcases bind_eq_error_iff.mp failed with stuck | ⟨value, -, impossible⟩
          · exact .init stuck
          · exact absurd impossible pure_ne_error
  | declareReference name kind isMutable target =>
      rcases bind_eq_error_iff.mp failed with missing | ⟨slot, -, impossible⟩
      · exact .target missing
      · exact absurd impossible pure_ne_error
  | rebindReference name target =>
      rcases bind_eq_error_iff.mp failed with missing | ⟨id, -, rest⟩
      · exact .rebound missing
      · rcases bind_eq_error_iff.mp rest with missing | ⟨slot, -, impossible⟩
        · exact .newTarget missing
        · exact absurd impossible pure_ne_error
  | assignBinding name expr =>
      rcases bind_eq_error_iff.mp failed with stuck | ⟨value, -, rest⟩
      · exact .value stuck
      · rcases bind_eq_error_iff.mp rest with missing | ⟨slot, -, impossible⟩
        · exact .assigned missing
        · exact absurd impossible pure_ne_error
  | assignThrough name expr =>
      rcases bind_eq_error_iff.mp failed with stuck | ⟨value, -, rest⟩
      · exact .valueThrough stuck
      · rcases bind_eq_error_iff.mp rest with missing | ⟨slot, -, impossible⟩
        · exact .assignedThrough missing
        · exact absurd impossible pure_ne_error
  | readBinding name =>
      rcases bind_eq_error_iff.mp failed with stuck | ⟨value, -, impossible⟩
      · exact .read stuck
      · exact absurd impossible pure_ne_error
  | readThrough path =>
      cases path with
      | borrow name =>
          rcases bind_eq_error_iff.mp failed with stuck | ⟨value, -, impossible⟩
          · exact .readBorrowed stuck
          · exact absurd impossible pure_ne_error
      | deref name =>
          rcases bind_eq_error_iff.mp failed with stuck | ⟨value, -, impossible⟩
          · exact .readThrough stuck
          · exact absurd impossible pure_ne_error
  | enterScope => exact absurd failed (by simp [step])
  | exitScope =>
      rw [step] at failed
      split at failed <;> exact absurd failed (by simp)

/-- A dead slot that a statement meets is met through the reference that the fault names. -/
theorem derefSlot_of_step_error {action : Action} {name : String}
    (failed : machine.step action = .error (.danglingReference name)) :
    machine.derefSlot name = .error (.danglingReference name) := by
  cases Failure.of_step failed with
  | init stuck => exact derefSlot_of_eval_error stuck
  | target missing => exact absurd (bindingSlot_error missing) (by simp)
  | rebound missing => exact absurd (referenceId_error missing) (by simp)
  | newTarget missing => exact absurd (bindingSlot_error missing) (by simp)
  | value stuck => exact derefSlot_of_eval_error stuck
  | assigned missing => exact absurd (bindingSlot_error missing) (by simp)
  | valueThrough stuck => exact derefSlot_of_eval_error stuck
  | assignedThrough dead =>
      obtain ⟨rfl, -⟩ := derefSlot_eq_dangling_iff.mp dead
      exact dead
  | read stuck => exact derefSlot_of_eval_error stuck
  | readBorrowed stuck => exact derefSlot_of_eval_error stuck
  | readThrough stuck => exact derefSlot_of_eval_error stuck

/-! ## Names that resolve -/

/-- A name stands for what its use needs: a binding, or behind a dereference a reference. -/
def Resolves (machine : Machine) (mention : NameUse) : Prop :=
  if mention.isDeref then
    ∃ id slot, machine.scopes.lookup mention.name = some (.reference id) ∧
      machine.targets[id]? = some slot
  else ∃ slot, machine.scopes.lookup mention.name = some (.binding slot)

theorem Resolves.bindingSlot {name : String} (resolves : machine.Resolves ⟨name, false⟩) :
    ∃ slot, machine.bindingSlot name = .ok slot := by
  obtain ⟨slot, meaning⟩ := resolves
  exact ⟨slot, bindingSlot_eq_ok_iff.mpr meaning⟩

theorem Resolves.referenceId {name : String} (resolves : machine.Resolves ⟨name, true⟩) :
    ∃ id, machine.referenceId name = .ok id := by
  obtain ⟨id, slot, meaning, -⟩ := resolves
  exact ⟨id, referenceId_eq_ok_iff.mpr meaning⟩

theorem Resolves.derefSlot_ne {name : String} (resolves : machine.Resolves ⟨name, true⟩)
    (unknown : String) : machine.derefSlot name ≠ .error (.unknownName unknown) := by
  obtain ⟨id, slot, meaning, points⟩ := resolves
  simp only [derefSlot, referenceId_eq_ok_iff.mpr meaning, points]
  split <;> simp

/-- An expression whose names all resolve does not fail for want of a name. -/
theorem eval_ne_unknownName {expr : Expr}
    (resolve : ∀ mention ∈ expr.names, machine.Resolves mention) (unknown : String) :
    machine.eval expr ≠ .error (.unknownName unknown) := by
  intro failed
  induction expr with
  | int value => exact absurd failed (by simp [eval])
  | var name =>
      obtain ⟨slot, found⟩ := (resolve ⟨name, false⟩ (by simp [Expr.names])).bindingSlot
      simp only [eval, found] at failed
      obtain ⟨_, impossible⟩ := load_error failed
      exact absurd impossible (by simp)
  | deref name =>
      have found := (resolve ⟨name, true⟩ (by simp [Expr.names])).derefSlot_ne unknown
      rw [eval] at failed
      split at failed
      · obtain ⟨_, impossible⟩ := load_error failed
        exact absurd impossible (by simp)
      · rename_i fault stuck
        rw [Except.error.inj failed] at stuck
        exact found stuck
  | binary op lhs rhs left right =>
      rw [eval] at failed
      split at failed
      · rename_i fault stuck
        rw [Except.error.inj failed] at stuck
        exact left (fun mention there => resolve mention (List.mem_append_left _ there)) stuck
      · split at failed
        · rename_i fault stuck
          rw [Except.error.inj failed] at stuck
          exact right (fun mention there => resolve mention (List.mem_append_right _ there)) stuck
        · exact absurd (arithmetic_error failed) (by simp)

/-- A statement whose names all resolve does not fail for want of a name. -/
theorem step_ne_unknownName {action : Action}
    (resolve : ∀ mention ∈ action.uses, machine.Resolves mention) (unknown : String) :
    machine.step action ≠ .error (.unknownName unknown) := by
  intro failed
  cases Failure.of_step failed with
  | init stuck => exact eval_ne_unknownName resolve unknown stuck
  | target missing =>
      obtain ⟨slot, found⟩ := (resolve _ List.mem_cons_self).bindingSlot
      rw [found] at missing
      exact absurd missing (by simp)
  | rebound missing =>
      obtain ⟨id, found⟩ := (resolve _ List.mem_cons_self).referenceId
      rw [found] at missing
      exact absurd missing (by simp)
  | newTarget missing =>
      obtain ⟨slot, found⟩ :=
        (resolve _ (List.mem_cons_of_mem _ List.mem_cons_self)).bindingSlot
      rw [found] at missing
      exact absurd missing (by simp)
  | value stuck =>
      exact eval_ne_unknownName (fun _ there => resolve _ (List.mem_append_left _ there)) _ stuck
  | assigned missing =>
      obtain ⟨slot, found⟩ := (resolve _ (List.mem_append_right _ List.mem_cons_self)).bindingSlot
      rw [found] at missing
      exact absurd missing (by simp)
  | valueThrough stuck =>
      exact eval_ne_unknownName (fun _ there => resolve _ (List.mem_append_left _ there)) _ stuck
  | assignedThrough missing =>
      exact (resolve _ (List.mem_append_right _ List.mem_cons_self)).derefSlot_ne _ missing
  | read stuck =>
      refine eval_ne_unknownName ?_ unknown stuck
      exact resolve
  | readBorrowed stuck =>
      refine eval_ne_unknownName ?_ unknown stuck
      exact resolve
  | readThrough stuck =>
      refine eval_ne_unknownName ?_ unknown stuck
      exact resolve

end Machine

end Evaluation

end Lending
