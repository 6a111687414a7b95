import Lending.Checker
import Lending.Evaluation
import Mathlib.Data.List.Induction

/-!
# Runs of statements

Validation, checking and evaluation walk the statements of a program from front to back. Here each
walk is taken apart into what stands before a statement and what the statement does, so that a
property of all runs follows from a property of one step:

* **validation** — a run without errors has no defect at any step (`defects_eq_nil`);
* **checking** — the violations of a run are reported, each at a statement of that run
  (`exists_diagnostic_of_violation`), and a program is clean up to a statement exactly when the run
  through it has no violation;
* **evaluation** — a run ends in a machine after each of its steps, and an error of a program is the
  fault of one step (`exists_step_of_run_error`).
-/

namespace Lending

/-! ## Validation -/

namespace Validation

theorem namesAfter_append (names : Names) (first second : List Action) :
    namesAfter names (first ++ second) = namesAfter (namesAfter names first) second := by
  simp only [namesAfter, List.foldl_append]

theorem namesAfter_snoc (names : Names) (actions : List Action) (action : Action) :
    namesAfter names (actions ++ [action]) = (step (namesAfter names actions) action).1 := by
  rw [namesAfter_append]
  rfl

theorem errorsFrom_append (names : Names) (index : Nat) (first second : List Action) :
    errorsFrom names index (first ++ second) =
      errorsFrom names index first ++
        errorsFrom (namesAfter names first) (index + first.length) second := by
  induction first generalizing names index with
  | nil => rfl
  | cons action rest ih =>
      simp only [List.cons_append, errorsFrom, ih, List.append_assoc, List.length_cons]
      rw [Nat.add_assoc index 1, Nat.add_comm 1]
      rfl

/-- A run without errors has none before its last step, and no defect at it. -/
theorem defects_eq_nil {names : Names} {index : Nat} {actions : List Action} {action : Action}
    (valid : errorsFrom names index (actions ++ [action]) = []) :
    errorsFrom names index actions = [] ∧ (step (namesAfter names actions) action).2 = [] := by
  rw [errorsFrom_append, List.append_eq_nil_iff] at valid
  refine ⟨valid.1, ?_⟩
  have last := valid.2
  simp only [errorsFrom, List.append_nil, List.map_eq_nil_iff] at last
  exact last

end Validation

/-- The first statements of a valid program have no errors either. -/
theorem Program.errorsFrom_take {program : Program} (valid : program.errors = []) (count : Nat) :
    Validation.errorsFrom .root 0 (program.actions.take count) = [] := by
  have split := Validation.errorsFrom_append .root 0 (program.actions.take count)
    (program.actions.drop count)
  rw [List.take_append_drop] at split
  rw [Program.errors, split, List.append_eq_nil_iff] at valid
  exact valid.1

/-- One statement more. -/
theorem take_succ_of_getElem? {actions : List Action} {index : Nat} {action : Action}
    (here : actions[index]? = some action) :
    actions.take (index + 1) = actions.take index ++ [action] := by
  rw [List.take_add_one, here]
  rfl

/-! ## Checking -/

namespace Checker

theorem stateAfter_snoc (state : State) (actions : List Action) (action : Action) :
    stateAfter state (actions ++ [action]) = ((stateAfter state actions).step action).1 := by
  simp only [stateAfter, List.foldl_append, List.foldl_cons, List.foldl_nil]

/-- The violations of the given statements, in order. -/
def violationsAfter (state : State) : List Action → List Violation
  | [] => []
  | action :: rest => (state.step action).2 ++ violationsAfter (state.step action).1 rest

theorem violationsAfter_snoc (state : State) (actions : List Action) (action : Action) :
    violationsAfter state (actions ++ [action]) =
      violationsAfter state actions ++ ((stateAfter state actions).step action).2 := by
  induction actions generalizing state with
  | nil => simp [violationsAfter, stateAfter]
  | cons first rest ih =>
      simp only [List.cons_append, violationsAfter, ih, List.append_assoc]
      rfl

/-- Each violation of the first statements is reported, and at one of them. -/
theorem exists_diagnostic_of_violation {state : State} (index : Nat) {count : Nat}
    {statements : List Statement} {violation : Violation}
    (found : violation ∈ violationsAfter state ((statements.take count).map (·.action))) :
    ∃ diagnostic ∈ diagnosticsFrom state index statements, diagnostic.violation = violation ∧
      ∃ position, diagnostic.position = some position ∧ position.index < index + count := by
  induction statements generalizing state index count with
  | nil => exact absurd found (by simp [violationsAfter])
  | cons statement rest ih =>
      cases count with
      | zero => exact absurd found (by simp [violationsAfter])
      | succ count =>
          rw [List.take_succ_cons, List.map_cons, violationsAfter, List.mem_append] at found
          rcases found with here | later
          · refine ⟨{ violation, position := some (.statement index statement.span) }, ?_, rfl,
              _, rfl, ?_⟩
            · exact List.mem_append_left _ (List.mem_map_of_mem here)
            · show index < index + (count + 1)
              omega
          · obtain ⟨diagnostic, reported, same, position, placed, before⟩ :=
              ih (index + 1) later
            refine ⟨diagnostic, List.mem_append_right _ reported, same, position, placed, ?_⟩
            omega

/-- **What is reported where.** A diagnostic stands at a statement of the walk and is a violation of
the step taken there, or it stands at the end and is one of what is destroyed there. -/
theorem mem_diagnosticsFrom_iff {state : State} {index : Nat} {statements : List Statement}
    {diagnostic : Diagnostic} :
    diagnostic ∈ diagnosticsFrom state index statements ↔
      (∃ offset statement, statements[offset]? = some statement ∧
        diagnostic.position = some (.statement (index + offset) statement.span) ∧
        diagnostic.violation ∈
          ((stateAfter state ((statements.take offset).map (·.action))).step
            statement.action).2) ∨
      (diagnostic.position = some (.atEnd (index + statements.length)) ∧
        diagnostic.violation ∈ (stateAfter state (statements.map (·.action))).finish.2) := by
  obtain ⟨violation, position⟩ := diagnostic
  induction statements generalizing state index with
  | nil =>
      simp only [diagnosticsFrom, List.mem_map, Diagnostic.mk.injEq]
      constructor
      · rintro ⟨found, here, rfl, rfl⟩
        exact .inr ⟨rfl, here⟩
      · rintro (⟨offset, statement, impossible, -⟩ | ⟨placed, here⟩)
        · exact absurd impossible (by simp)
        · exact ⟨violation, here, rfl, placed.symm⟩
  | cons statement rest ih =>
      simp only [diagnosticsFrom, List.mem_append, List.mem_map, Diagnostic.mk.injEq, ih]
      -- The rest counts from the next statement on.
      have shift : ∀ offset, index + 1 + offset = index + (offset + 1) := by omega
      constructor
      · rintro (⟨found, here, rfl, rfl⟩ | ⟨offset, later, there, placed, found⟩ | ⟨placed, found⟩)
        · exact .inl ⟨0, statement, rfl, rfl, here⟩
        · exact .inl ⟨offset + 1, later, there, by rw [← shift]; exact placed, found⟩
        · exact .inr ⟨by rw [List.length_cons, ← shift]; exact placed, found⟩
      · rintro (⟨offset, later, there, placed, found⟩ | ⟨placed, found⟩)
        · cases offset with
          | zero =>
              obtain rfl : statement = later := Option.some.inj there
              exact .inl ⟨violation, found, rfl, placed.symm⟩
          | succ offset =>
              exact .inr (.inl ⟨offset, later, there, by rw [shift]; exact placed, found⟩)
        · rw [List.length_cons, ← shift] at placed
          exact .inr (.inr ⟨placed, found⟩)

end Checker

/-- The lexical analysis of a valid program is the walk of the checker. -/
theorem Program.analyze_of_valid {program : Program} (valid : program.errors = []) :
    program.analyze .lexical = Checker.walk program := by
  simp only [Program.analyze, valid]

/-- What is reported at a statement of a valid program is what the step there finds. -/
theorem Program.mem_analyze_iff {program : Program} (valid : program.errors = []) {index : Nat}
    {action : Action} (here : program.actions[index]? = some action) {violation : Violation} :
    { violation, position := some (program.position index) } ∈ program.analyze .lexical ↔
      violation ∈ ((Checker.stateAfter {} (program.actions.take index)).step action).2 := by
  obtain ⟨statement, found, rfl⟩ : ∃ statement, program.statements[index]? = some statement ∧
      statement.action = action := by
    rw [Program.actions, List.getElem?_map, Option.map_eq_some_iff] at here
    exact here
  have placed : program.position index = .statement index statement.span := by
    simp only [Program.position, found]
  rw [Program.analyze_of_valid valid, Checker.walk, Checker.mem_diagnosticsFrom_iff, placed,
    Program.actions, ← List.map_take]
  simp only [Nat.zero_add, Option.some.injEq]
  constructor
  · rintro (⟨offset, other, there, same, violated⟩ | ⟨same, -⟩)
    · obtain rfl : index = offset := congrArg Position.index same
      obtain rfl : statement = other := Option.some.inj (found.symm.trans there)
      exact violated
    · have impossible := congrArg Position.endOfProgram same
      exact absurd impossible (by simp [Position.statement, Position.atEnd])
  · intro violated
    exact .inl ⟨index, statement, found, rfl, violated⟩

/-- A program whose analysis reports nothing is valid. -/
theorem Program.valid_of_analyze {program : Program} (clean : program.analyze .lexical = []) :
    program.errors = [] := by
  cases errors : program.errors with
  | nil => rfl
  | cons first rest =>
      simp only [Program.analyze, errors, List.map_cons] at clean
      exact absurd clean (by simp)

/-- Nothing is reported at the statements up to `index`, that one included. -/
def Program.CleanThrough (program : Program) (index : Nat) : Prop :=
  ∀ diagnostic ∈ program.analyze .lexical, ∀ position, diagnostic.position = some position →
    index < position.index

theorem Program.cleanThrough_of_analyze {program : Program} (clean : program.analyze .lexical = [])
    (index : Nat) : program.CleanThrough index := by
  intro diagnostic reported
  rw [clean] at reported
  exact absurd reported (by simp)

theorem Program.exists_diagnostic {program : Program} (valid : program.errors = []) {count : Nat}
    {violation : Violation}
    (found : violation ∈ Checker.violationsAfter {} (program.actions.take count)) :
    ∃ diagnostic ∈ program.analyze .lexical, diagnostic.violation = violation ∧
      ∃ position, diagnostic.position = some position ∧ position.index < count := by
  rw [Program.actions, ← List.map_take] at found
  rw [Program.analyze_of_valid valid]
  have reported := Checker.exists_diagnostic_of_violation 0 found
  rw [Nat.zero_add] at reported
  exact reported

/-- A valid program that is clean through a statement has no violation in the run through it. -/
theorem Program.CleanThrough.violations_eq_nil {program : Program} {index : Nat}
    (clean : program.CleanThrough index) (valid : program.errors = []) :
    Checker.violationsAfter {} (program.actions.take (index + 1)) = [] := by
  rw [List.eq_nil_iff_forall_not_mem]
  intro violation found
  obtain ⟨diagnostic, reported, -, position, placed, before⟩ :=
    Program.exists_diagnostic valid found
  have after := clean diagnostic reported position placed
  omega

/-! ## Evaluation -/

namespace Evaluation

theorem machineAfter_cons (machine : Machine) (action : Action) (rest : List Action) :
    machineAfter machine (action :: rest) =
      match machine.step action with
      | .error fault => .error fault
      | .ok (after, _) => machineAfter after rest := by
  cases stepped : machine.step action with
  | error fault =>
      simp only [machineAfter, List.foldlM_cons, stepped]
      rfl
  | ok result =>
      simp only [machineAfter, List.foldlM_cons, stepped]
      rfl

theorem machineAfter_snoc_eq_ok_iff {machine after : Machine} {actions : List Action}
    {action : Action} :
    machineAfter machine (actions ++ [action]) = .ok after ↔
      ∃ before reading, machineAfter machine actions = .ok before ∧
        before.step action = .ok (after, reading) := by
  induction actions generalizing machine with
  | nil =>
      rw [List.nil_append, machineAfter_cons]
      cases stepped : machine.step action with
      | error fault =>
          constructor
          · exact fun impossible => absurd impossible (by simp)
          · rintro ⟨before, reading, same, step⟩
            obtain rfl : machine = before := Except.ok.inj same
            rw [stepped] at step
            exact absurd step (by simp)
      | ok result =>
          obtain ⟨next, reading⟩ := result
          constructor
          · intro same
            obtain rfl : next = after := Except.ok.inj same
            exact ⟨machine, reading, rfl, stepped⟩
          · rintro ⟨before, reading', same, step⟩
            obtain rfl : machine = before := Except.ok.inj same
            rw [stepped, Except.ok.injEq, Prod.mk.injEq] at step
            rw [step.1]
            rfl
  | cons first rest ih =>
      rw [List.cons_append, machineAfter_cons, machineAfter_cons]
      cases machine.step first with
      | error fault => simp
      | ok result => exact ih

/-- An error of a run is the fault of one of its steps, taken in the machine that the statements
before it lead to. -/
theorem exists_step_of_runFrom_error {machine : Machine} {index : Nat} {actions : List Action}
    {error : EvalError} (failed : runFrom machine index actions = .error error) :
    ∃ count before action, error.index = index + count ∧
      machineAfter machine (actions.take count) = .ok before ∧ actions[count]? = some action ∧
      before.step action = .error error.fault := by
  induction actions generalizing machine index with
  | nil => exact absurd failed (by simp [runFrom])
  | cons action rest ih =>
      rw [runFrom] at failed
      cases stepped : machine.step action with
      | error fault =>
          rw [stepped] at failed
          obtain rfl : { index, fault } = error := Except.error.inj failed
          exact ⟨0, machine, action, rfl, rfl, rfl, stepped⟩
      | ok result =>
          obtain ⟨after, reading⟩ := result
          simp only [stepped] at failed
          cases later : runFrom after (index + 1) rest with
          | ok trace =>
              rw [later] at failed
              exact absurd failed (by simp)
          | error error' =>
              rw [later] at failed
              obtain rfl : error' = error := Except.error.inj failed
              -- The rest counts from the next statement on, so its count is one short.
              obtain ⟨count, before, action', placed, reached, here, fault⟩ := ih later
              refine ⟨count + 1, before, action', by omega, ?_, here, fault⟩
              rw [List.take_succ_cons, machineAfter_cons, stepped]
              exact reached

end Evaluation

theorem Program.exists_step_of_run_error {program : Program} {error : EvalError}
    (failed : program.run = .error error) :
    ∃ before action,
      Evaluation.machineAfter {} (program.actions.take error.index) = .ok before ∧
      program.actions[error.index]? = some action ∧ before.step action = .error error.fault := by
  obtain ⟨count, before, action, placed, reached, here, fault⟩ :=
    Evaluation.exists_step_of_runFrom_error failed
  rw [Nat.zero_add] at placed
  rw [placed]
  exact ⟨before, action, reached, here, fault⟩

end Lending
