import Lending.Proofs.Footprint
import Lending.Proofs.Simulation
import Lending.Proofs.Validity

/-!
# Renaming

Names only matter through which of them are equal and which are blank. A `Renaming` keeps both, and
carries a program and all that is reported of it to their renamed copies. This module says how
validation and evaluation follow it; both look names up in a stack of frames, and a renamed stack
finds for a renamed name what the stack finds for the name (`Scopes.lookup_rename`):

* **validation** finds the same defects under the new names (`Validation.step_rename`), and so the
  same errors (`Validation.errorsFrom_rename`). What it suggests depends on how names are spelled,
  so suggestions are left out;
* **evaluation** takes the renamed machine to the renamed machine (`Machine.step_rename`), and so a
  run of the renamed program is the renamed run (`Evaluation.runFrom_rename`).
-/

namespace Lending

/-- A renaming of identifiers. Different names stay different, and blank names stay blank. -/
structure Renaming where
  apply : String → String
  injective : Function.Injective apply
  isBlank_apply : ∀ name, Text.isBlank (apply name) = Text.isBlank name

instance : CoeFun Renaming fun _ => String → String := ⟨Renaming.apply⟩

/-! ## Programs and reports -/

section Definitions

variable (f : Renaming)

def Expr.rename : Expr → Expr
  | .int value => .int value
  | .var name => .var (f name)
  | .deref name => .deref (f name)
  | .binary op lhs rhs => .binary op lhs.rename rhs.rename

def NameUse.rename (mention : NameUse) : NameUse :=
  { mention with name := f mention.name }

def AccessPath.rename : AccessPath → AccessPath
  | .deref name => .deref (f name)
  | .borrow name => .borrow (f name)

def Action.rename : Action → Action
  | .declareBinding name isMutable tag init =>
      .declareBinding (f name) isMutable tag (init.map (Expr.rename f))
  | .declareReference name kind isMutable target =>
      .declareReference (f name) kind isMutable (f target)
  | .rebindReference name target => .rebindReference (f name) (f target)
  | .assignBinding name value => .assignBinding (f name) (value.rename f)
  | .assignThrough reference value => .assignThrough (f reference) (value.rename f)
  | .readBinding name => .readBinding (f name)
  | .readThrough path => .readThrough (path.rename f)
  | .enterScope => .enterScope
  | .exitScope => .exitScope

def Statement.rename (statement : Statement) : Statement :=
  { statement with action := statement.action.rename f }

/-- The program with every identifier renamed. -/
def Program.rename (program : Program) : Program :=
  { program with statements := program.statements.map (Statement.rename f) }

def Defect.rename : Defect → Defect
  | .unknownName name suggestions => .unknownName (f name) (suggestions.map f)
  | .notAReference name => .notAReference (f name)
  | .notABinding name => .notABinding (f name)
  | .writeThroughShared name => .writeThroughShared (f name)
  | .unbalancedScope => .unbalancedScope
  | .emptyIdentifier => .emptyIdentifier

def ProgramError.rename (error : ProgramError) : ProgramError :=
  { error with defect := error.defect.rename f }

def Fault.rename : Fault → Fault
  | .unknownName name => .unknownName (f name)
  | .uninitializedRead name => .uninitializedRead (f name)
  | .overflow => .overflow
  | .danglingReference name => .danglingReference (f name)

def EvalError.rename (error : EvalError) : EvalError :=
  { error with fault := error.fault.rename f }

/-- What is observed of a read, renamed. A read through a reference shows its name behind a star,
which is no part of the identifier. -/
def Action.renameShown (action : Action) (shown : String) : String :=
  match action with
  | .readThrough (.deref _) => "*" ++ f (String.ofList (shown.toList.drop 1))
  | _ => f shown

def Reading.rename (action : Action) (reading : Reading) : Reading :=
  { reading with name := action.renameShown f reading.name }

/-- An observation of a run of the given statements, renamed. -/
def Observation.rename (actions : List Action) (observation : Observation) : Observation :=
  { observation with
    name := (actions[observation.index]?.map fun action =>
      action.renameShown f observation.name).getD observation.name }

/-- What a run of the given statements ends with, renamed. -/
def renameOutcome (actions : List Action) :
    Except EvalError (List Observation) → Except EvalError (List Observation)
  | .ok trace => .ok (trace.map (Observation.rename f actions))
  | .error error => .error (error.rename f)

end Definitions

variable {f : Renaming}

theorem Expr.names_rename (expr : Expr) :
    (expr.rename f).names = expr.names.map (NameUse.rename f) := by
  induction expr with
  | int value => rfl
  | var name => rfl
  | deref name => rfl
  | binary op lhs rhs left right => simp only [rename, names, left, right, List.map_append]

theorem Program.actions_rename (program : Program) :
    (program.rename f).actions = program.actions.map (Action.rename f) := by
  simp only [actions, rename, List.map_map]
  rfl

/-! ## Stacks of frames -/

namespace Scopes

variable {α : Type}

/-- The frame with its names renamed. -/
def renameFrame (f : Renaming) (frame : Frame α) : Frame α :=
  frame.map fun entry => (f entry.1, entry.2)

/-- The stack with its names renamed. -/
def rename (f : Renaming) (scopes : Scopes α) : Scopes α :=
  { frames := scopes.frames.map (renameFrame f) }

theorem lookup_renameFrame (frame : Frame α) (name : String) :
    List.lookup (f name) (renameFrame f frame) = List.lookup name frame := by
  induction frame with
  | nil => rfl
  | cons entry rest ih =>
      obtain ⟨first, entity⟩ := entry
      show List.lookup (f name) ((f first, entity) :: renameFrame f rest) = _
      rw [lookup_cons_ite, lookup_cons_ite, ih]
      simp only [f.injective.eq_iff]

@[simp]
theorem lookup_rename (scopes : Scopes α) (name : String) :
    (scopes.rename f).lookup (f name) = scopes.lookup name := by
  obtain ⟨frames⟩ := scopes
  show (frames.map (renameFrame f)).findSome? _ = frames.findSome? _
  induction frames with
  | nil => rfl
  | cons frame outer ih =>
      rw [List.map_cons, List.findSome?_cons, List.findSome?_cons, lookup_renameFrame, ih]

@[simp]
theorem lookupInner_rename (scopes : Scopes α) (name : String) :
    (scopes.rename f).lookupInner (f name) = scopes.lookupInner name := by
  obtain ⟨frames⟩ := scopes
  cases frames with
  | nil => rfl
  | cons frame outer => exact lookup_renameFrame frame name

theorem rename_declare (scopes : Scopes α) (name : String) (entity : α) :
    (scopes.declare name entity).rename f = (scopes.rename f).declare (f name) entity := by
  obtain ⟨frames⟩ := scopes
  cases frames <;> rfl

theorem destructionOrder_renameFrame (frame : Frame α) :
    destructionOrder (renameFrame f frame) = destructionOrder frame := by
  simp [destructionOrder, renameFrame]

theorem exit?_rename (scopes : Scopes α) :
    (scopes.rename f).exit? = scopes.exit?.map fun closed => (closed.1, closed.2.rename f) := by
  obtain ⟨frames⟩ := scopes
  match frames with
  | [] => rfl
  | [_] => rfl
  | frame :: next :: outer => simp [exit?, rename, destructionOrder_renameFrame]

theorem finish_rename (scopes : Scopes α) :
    (scopes.rename f).finish = (scopes.finish.1, scopes.finish.2.rename f) := by
  simp only [finish, rename, List.flatMap_map, destructionOrder_renameFrame, List.map_nil]

end Scopes

/-! ## Validation -/

namespace Validation

variable (names : Names)

theorem use_rename (name : String) (expected : Expected) :
    (use (names.rename f) (f name) expected).map Defect.bare =
      (use names name expected).map fun defect => (defect.rename f).bare := by
  simp only [use, f.isBlank_apply, Scopes.lookup_rename]
  split
  · rfl
  · cases names.lookup name with
    | none => rfl
    | some declared => cases declared <;> cases expected <;> rfl

theorem useAll_rename (expr : Expr) :
    (useAll (names.rename f) (expr.rename f)).map Defect.bare =
      (useAll names expr).map fun defect => (defect.rename f).bare := by
  simp only [useAll, Expr.names_rename, List.flatMap_map, List.map_flatMap]
  exact List.flatMap_congr fun mention _ => use_rename names mention.name _

theorem useToWrite_rename (reference : String) :
    (useToWrite (names.rename f) (f reference)).map Defect.bare =
      (useToWrite names reference).map fun defect => (defect.rename f).bare := by
  have used := use_rename (f := f) names reference .reference
  simp only [useToWrite, Scopes.lookup_rename]
  cases found : use names reference .reference with
  | nil =>
      rw [found, List.map_nil, List.map_eq_nil_iff] at used
      rw [used]
      split <;> rfl
  | cons first rest =>
      -- Without their suggestions the defects are only known to be as many.
      have some' : use (names.rename f) (f reference) .reference ≠ [] := by
        intro none
        rw [none, found] at used
        exact absurd used (by simp)
      obtain ⟨first', rest', found'⟩ := List.exists_cons_of_ne_nil some'
      rw [found, found'] at used
      rw [found']
      exact used

theorem declare_rename (name : String) (declared : Declared) :
    declare (names.rename f) (f name) declared =
      ((declare names name declared).1.rename f, (declare names name declared).2) := by
  simp only [declare, f.isBlank_apply]
  split
  · rfl
  · rw [Scopes.rename_declare]

/-- **Validation follows a renaming**, statement by statement. -/
theorem step_rename (action : Action) :
    (step (names.rename f) (action.rename f)).1 = (step names action).1.rename f ∧
    (step (names.rename f) (action.rename f)).2.map Defect.bare =
      (step names action).2.map fun defect => (defect.rename f).bare := by
  have blank : ∀ name declared, (declare names name declared).2.map Defect.bare =
      (declare names name declared).2.map fun defect => (defect.rename f).bare := by
    intro name declared
    rw [snd_declare]
    split <;> rfl
  cases action with
  | declareBinding name isMutable tag init =>
      simp only [Action.rename, step, declare_rename, true_and]
      cases init with
      | none => exact blank name .binding
      | some expr =>
          simp only [Option.map_some, List.map_append, useAll_rename, blank]
  | declareReference name kind isMutable target =>
      simp only [Action.rename, step, declare_rename, true_and, List.map_append, use_rename, blank]
  | rebindReference name target =>
      simp only [Action.rename, step, true_and, List.map_append, use_rename]
  | assignBinding name value =>
      simp only [Action.rename, step, true_and, List.map_append, use_rename, useAll_rename]
  | assignThrough reference value =>
      simp only [Action.rename, step, true_and, List.map_append, useAll_rename, useToWrite_rename]
  | readBinding name => exact ⟨rfl, use_rename names name _⟩
  | readThrough path => cases path <;> exact ⟨rfl, use_rename names _ _⟩
  | enterScope => exact ⟨rfl, rfl⟩
  | exitScope =>
      simp only [Action.rename, step, Scopes.exit?_rename]
      cases names.exit? <;> exact ⟨rfl, rfl⟩

theorem errorsFrom_rename (index : Nat) (actions : List Action) :
    (errorsFrom (names.rename f) index (actions.map (Action.rename f))).map ProgramError.bare =
      (errorsFrom names index actions).map fun error => (error.rename f).bare := by
  induction actions generalizing names index with
  | nil => rfl
  | cons action rest ih =>
      obtain ⟨after, defects⟩ := step_rename (f := f) names action
      have placed := congrArg
        (List.map fun defect => ({ index, defect } : ProgramError)) defects
      simp only [List.map_map] at placed
      simp only [List.map_cons, errorsFrom, List.map_append, List.map_map, after, ih]
      congr 1

end Validation

/-! ## Evaluation -/

namespace Evaluation

def Slot.rename (f : Renaming) (slot : Slot) : Slot :=
  { slot with name := f slot.name }

namespace Machine

def rename (f : Renaming) (machine : Machine) : Machine :=
  { machine with
    slots := machine.slots.map (Slot.rename f)
    scopes := machine.scopes.rename f }

theorem rename_init : rename f {} = {} := by
  simp [rename, Scopes.rename, Scopes.root, Scopes.renameFrame]

/-- What a statement leads to, renamed. -/
def renameResult (f : Renaming) (action : Action) :
    Except Fault (Machine × Option Reading) → Except Fault (Machine × Option Reading)
  | .ok (after, reading) => .ok (after.rename f, reading.map (Reading.rename f action))
  | .error fault => .error (fault.rename f)

variable (machine : Machine)

theorem bindingSlot_rename (name : String) :
    (machine.rename f).bindingSlot (f name) =
      (machine.bindingSlot name).mapError (Fault.rename f) := by
  simp only [bindingSlot, rename, Scopes.lookup_rename]
  cases machine.scopes.lookup name with
  | none => rfl
  | some denoted => cases denoted <;> rfl

theorem referenceId_rename (name : String) :
    (machine.rename f).referenceId (f name) =
      (machine.referenceId name).mapError (Fault.rename f) := by
  simp only [referenceId, rename, Scopes.lookup_rename]
  cases machine.scopes.lookup name with
  | none => rfl
  | some denoted => cases denoted <;> rfl

theorem derefSlot_rename (name : String) :
    (machine.rename f).derefSlot (f name) = (machine.derefSlot name).mapError (Fault.rename f) := by
  simp only [derefSlot, referenceId_rename]
  cases machine.referenceId name with
  | error fault => rfl
  | ok id =>
      simp only [Except.mapError, rename, Array.getElem?_map, Option.map_map]
      cases machine.targets[id]? with
      | none => rfl
      | some slot =>
          show (if machine.isAlive slot then _ else _) =
            Except.mapError _ (if machine.isAlive slot then _ else _)
          split <;> rfl

/-- The name of a slot is shown if it has no value, so the slot has to be there. -/
theorem load_rename {slot : Nat} (bound : slot < machine.slots.size) :
    (machine.rename f).load slot = (machine.load slot).mapError (Fault.rename f) := by
  simp only [load, rename, Array.getElem?_map, Array.getElem?_eq_getElem bound, Option.map_some,
    Slot.rename]
  cases machine.slots[slot].value <;> rfl

theorem eval_rename
    (bound : ∀ name slot, machine.bindingSlot name = .ok slot → slot < machine.slots.size)
    (expr : Expr) :
    (machine.rename f).eval (expr.rename f) = (machine.eval expr).mapError (Fault.rename f) := by
  induction expr with
  | int value => rfl
  | var name =>
      simp only [Expr.rename, eval, bindingSlot_rename]
      cases found : machine.bindingSlot name with
      | error fault => rfl
      | ok slot => exact load_rename machine (bound name slot found)
  | deref name =>
      simp only [Expr.rename, eval, derefSlot_rename]
      cases found : machine.derefSlot name with
      | error fault => rfl
      | ok slot =>
          obtain ⟨-, -, -, alive⟩ := derefSlot_eq_ok_iff.mp found
          exact load_rename machine (lt_size_of_isAlive alive)
  | binary op lhs rhs left right =>
      simp only [Expr.rename, eval, left]
      cases machine.eval lhs with
      | error fault => rfl
      | ok leftValue =>
          simp only [Except.mapError, right]
          cases machine.eval rhs with
          | error fault => rfl
          | ok rightValue =>
              simp only [arithmetic]
              split <;> rfl

theorem store_rename (slot : Nat) (value : Word) :
    (machine.rename f).store slot value = (machine.store slot value).rename f := by
  simp only [store, rename, mk.injEq, and_true]
  exact modify_map machine.slots (fun _ => by rfl) slot

theorem kill_rename (entity : Denoted) :
    (machine.rename f).kill entity = (machine.kill entity).rename f := by
  cases entity with
  | reference id => rfl
  | binding slot =>
      simp only [kill, rename, mk.injEq, and_true]
      exact modify_map machine.slots (fun _ => by rfl) slot

theorem foldl_kill_rename (entities : List Denoted) :
    entities.foldl kill (machine.rename f) = (entities.foldl kill machine).rename f := by
  induction entities generalizing machine with
  | nil => rfl
  | cons entity rest ih => rw [List.foldl_cons, List.foldl_cons, kill_rename, ih]

theorem declareBinding_rename (name : String) (value : Option Word) :
    (machine.rename f).declareBinding (f name) value =
      (machine.declareBinding name value).rename f := by
  simp only [declareBinding, rename, Array.size_map, Array.map_push, Scopes.rename_declare]
  rfl

theorem declareReference_rename (name : String) (slot : Nat) :
    (machine.rename f).declareReference (f name) slot =
      (machine.declareReference name slot).rename f := by
  simp only [declareReference, rename, Scopes.rename_declare]

theorem rename_reading_deref (name : String) (value : Word) :
    Reading.rename f (.readThrough (.deref name)) { name := "*" ++ name, value } =
      { name := "*" ++ f name, value } := by
  simp [Reading.rename, Action.renameShown]

/-- **Evaluation follows a renaming**, statement by statement. -/
theorem step_rename
    (bound : ∀ name slot, machine.bindingSlot name = .ok slot → slot < machine.slots.size)
    (action : Action) :
    (machine.rename f).step (action.rename f) = renameResult f action (machine.step action) := by
  have value := eval_rename (f := f) machine bound
  cases action with
  | declareBinding name isMutable tag init =>
      cases init with
      | none =>
          simp only [Action.rename, Option.map_none, step, declareBinding_rename]
          rfl
      | some expr =>
          simp only [Action.rename, Option.map_some, step, value, declareBinding_rename]
          cases machine.eval expr <;> rfl
  | declareReference name kind isMutable target =>
      simp only [Action.rename, step, bindingSlot_rename, declareReference_rename]
      cases machine.bindingSlot target <;> rfl
  | rebindReference name target =>
      simp only [Action.rename, step, referenceId_rename, bindingSlot_rename]
      cases machine.referenceId name with
      | error fault => rfl
      | ok id => cases machine.bindingSlot target <;> rfl
  | assignBinding name expr =>
      simp only [Action.rename, step, value, bindingSlot_rename, store_rename]
      cases machine.eval expr with
      | error fault => rfl
      | ok word => cases machine.bindingSlot name <;> rfl
  | assignThrough reference expr =>
      simp only [Action.rename, step, value, derefSlot_rename, store_rename]
      cases machine.eval expr with
      | error fault => rfl
      | ok word => cases machine.derefSlot reference <;> rfl
  | readBinding name =>
      have read := value (.var name)
      simp only [Expr.rename] at read
      simp only [Action.rename, step, read]
      cases machine.eval (.var name) <;> rfl
  | readThrough path =>
      cases path with
      | borrow name =>
          have read := value (.var name)
          simp only [Expr.rename] at read
          simp only [Action.rename, AccessPath.rename, step, read]
          cases machine.eval (.var name) <;> rfl
      | deref name =>
          have read := value (.deref name)
          simp only [Expr.rename] at read
          simp only [Action.rename, AccessPath.rename, step, read]
          cases machine.eval (.deref name) with
          | error fault => rfl
          | ok word =>
              show Except.ok (_, some _) = Except.ok (_, some (Reading.rename f _ _))
              rw [rename_reading_deref]
  | enterScope => rfl
  | exitScope =>
      simp only [Action.rename, step]
      rw [show (machine.rename f).scopes = machine.scopes.rename f from rfl, Scopes.exit?_rename]
      cases machine.scopes.exit? with
      | none => rfl
      | some closed =>
          have killed := foldl_kill_rename (f := f) { machine with scopes := closed.2 } closed.1
          exact congrArg (fun after => Except.ok (after, none)) killed

end Machine

/-- **Runs follow a renaming.** The statements that are `left` run after those that are `done`. -/
theorem runFrom_rename {done : List Action} {machine : Machine}
    (reached : machineAfter {} done = .ok machine) (left : List Action) :
    runFrom (machine.rename f) done.length (left.map (Action.rename f)) =
      renameOutcome f (done ++ left) (runFrom machine done.length left) := by
  induction left generalizing done machine with
  | nil => rfl
  | cons action rest ih =>
      have stepped := machine.step_rename (f := f)
        (fun name slot found => Machine.lt_size_of_isAlive (isAlive_of_bindingSlot reached found))
        action
      simp only [List.map_cons, runFrom, stepped]
      cases result : machine.step action with
      | error fault => rfl
      | ok taken =>
          obtain ⟨after, reading⟩ := taken
          have later := ih (machineAfter_snoc_eq_ok_iff.mpr ⟨machine, reading, reached, result⟩)
          rw [List.length_append, List.append_assoc] at later
          simp only [Machine.renameResult]
          rw [show runFrom (after.rename f) (done.length + 1) (rest.map (Action.rename f)) = _
            from later]
          cases runFrom after (done.length + 1) rest with
          | error error => rfl
          | ok trace =>
              cases reading with
              | none => rfl
              | some reading =>
                  -- The statement that was read is the one at `done.length`.
                  simp [renameOutcome, Observation.rename, Reading.rename]

end Evaluation

end Lending
