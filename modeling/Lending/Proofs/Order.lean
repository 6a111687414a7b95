import Lending.Proofs.Runs

/-!
# Program order and causality

Validation, checking and evaluation report what they find with the index of a statement. They go
through the statements from front to back, so the reports stand in program order, and what is
reported of the first statements does not depend on those that follow (`Program.reports_causal`):

* **order** — `InOrder` says of a list of reports that its indexes never fall and are those of a
  range of statements. It is put together along a walk (`InOrder.append`), and it cuts the list at a
  statement (`InOrder.filter_lt`);
* **prefixes** — a walk over two runs of statements is the walk over the first, followed by that
  over the second from the state that the first leads to (`errorsFrom_append`,
  `diagnosticsFrom_append`, `runFrom_append`).
-/

namespace Lending

/-- The index of the statement at which a diagnostic stands. -/
def Diagnostic.index (diagnostic : Diagnostic) : Nat :=
  (diagnostic.position.map (·.index)).getD 0

/-- Whether a diagnostic stands at the end of the program. -/
def Diagnostic.isAtEnd (diagnostic : Diagnostic) : Bool :=
  diagnostic.position.any (·.endOfProgram)

/-! ## Order -/

/-- **Reports in program order.** Their indexes never fall, and they are those of the statements
from `first` up to `last`, which is excluded. -/
structure InOrder {α : Type} (index : α → Nat) (first last : Nat) (reports : List α) : Prop where
  sorted : reports.Pairwise fun earlier later => index earlier ≤ index later
  bounded : ∀ report ∈ reports, first ≤ index report ∧ index report < last

namespace InOrder

variable {α : Type} {index : α → Nat} {first middle last : Nat} {reports more : List α}

theorem nil : InOrder index first last [] :=
  ⟨List.Pairwise.nil, by simp⟩

/-- The reports of one statement. -/
theorem of_statement (here : ∀ report ∈ reports, index report = first) :
    InOrder index first (first + 1) reports where
  sorted := by
    rw [List.pairwise_iff_forall_sublist]
    intro earlier later pair
    have left := here earlier (pair.subset List.mem_cons_self)
    have right := here later (pair.subset (List.mem_cons_of_mem _ List.mem_cons_self))
    omega
  bounded := by
    intro report there
    have same := here report there
    omega

theorem append (before : InOrder index first middle reports)
    (after : InOrder index middle last more) (nonempty : first ≤ middle) (rest : middle ≤ last) :
    InOrder index first last (reports ++ more) where
  sorted := by
    refine List.pairwise_append.mpr ⟨before.sorted, after.sorted, ?_⟩
    intro earlier left later right
    have less := (before.bounded earlier left).2
    have more := (after.bounded later right).1
    omega
  bounded := by
    intro report there
    rcases List.mem_append.mp there with left | right
    · have bounds := before.bounded report left
      omega
    · have bounds := after.bounded report right
      omega

/-- The reports of one statement and those of the statements that follow it. -/
theorem cons (here : ∀ report ∈ reports, index report = first)
    (later : InOrder index (first + 1) last more) (rest : first + 1 ≤ last) :
    InOrder index first last (reports ++ more) :=
  (of_statement here).append later (Nat.le_succ first) rest

/-- The reports up to a statement are those with a smaller index. -/
theorem filter_lt (before : InOrder index first middle reports)
    (after : InOrder index middle last more) :
    (reports ++ more).filter (fun report => decide (index report < middle)) = reports := by
  have kept : reports.filter (fun report => decide (index report < middle)) = reports := by
    rw [List.filter_eq_self]
    intro report there
    exact decide_eq_true (before.bounded report there).2
  have dropped : more.filter (fun report => decide (index report < middle)) = [] := by
    rw [List.filter_eq_nil_iff]
    intro report there
    have bounds := after.bounded report there
    simp only [decide_eq_true_eq]
    omega
  rw [List.filter_append, kept, dropped, List.append_nil]

end InOrder

theorem Program.actions_take (program : Program) (count : Nat) :
    (program.take count).actions = program.actions.take count :=
  List.map_take

theorem Program.length_actions (program : Program) :
    program.actions.length = program.statements.length :=
  List.length_map _

/-! ## Validation -/

theorem Validation.errorsFrom_inOrder (names : Names) (index : Nat) (actions : List Action) :
    InOrder ProgramError.index index (index + actions.length) (errorsFrom names index actions) := by
  induction actions generalizing names index with
  | nil => exact .nil
  | cons action rest ih =>
      have later := ih (step names action).1 (index + 1)
      rw [Nat.add_assoc, Nat.add_comm 1] at later
      refine .cons (fun error there => ?_) later (by simp)
      obtain ⟨defect, -, rfl⟩ := List.mem_map.mp there
      rfl

/-- The errors of the first statements are those of the program up to there. -/
theorem Program.errors_take {program : Program} {count : Nat}
    (bound : count ≤ program.statements.length) :
    (program.take count).errors =
      program.errors.filter fun error => decide (error.index < count) := by
  have length : (program.actions.take count).length = count := by
    rw [List.length_take, program.length_actions, Nat.min_eq_left bound]
  have before := Validation.errorsFrom_inOrder .root 0 (program.actions.take count)
  have after := Validation.errorsFrom_inOrder
    (Validation.namesAfter .root (program.actions.take count)) (0 + count)
    (program.actions.drop count)
  have split := Validation.errorsFrom_append .root 0 (program.actions.take count)
    (program.actions.drop count)
  rw [List.take_append_drop, length] at split
  rw [length, Nat.zero_add] at before
  rw [Nat.zero_add] at after split
  rw [Program.errors, Program.actions_take, Program.errors, split, before.filter_lt after]

/-! ## Checking -/

namespace Checker

/-- The diagnostics of the statements from `index` on, without those of the end of the program. -/
def reportsFrom (state : State) (index : Nat) : List Statement → List Diagnostic
  | [] => []
  | statement :: rest =>
      ((state.step statement.action).2.map fun violation =>
          { violation, position := some (.statement index statement.span) }) ++
        reportsFrom (state.step statement.action).1 (index + 1) rest

/-- **Statements in two parts.** -/
theorem diagnosticsFrom_append (state : State) (index : Nat) (first second : List Statement) :
    diagnosticsFrom state index (first ++ second) =
      reportsFrom state index first ++ diagnosticsFrom (stateAfter state (first.map (·.action)))
        (index + first.length) second := by
  induction first generalizing state index with
  | nil => rfl
  | cons statement rest ih =>
      simp only [List.cons_append, diagnosticsFrom, reportsFrom, ih, List.append_assoc,
        List.length_cons]
      rw [Nat.add_assoc index 1, Nat.add_comm 1]
      rfl

/-- The statements, and then the end of the program. -/
theorem diagnosticsFrom_eq (state : State) (index : Nat) (statements : List Statement) :
    diagnosticsFrom state index statements =
      reportsFrom state index statements ++ diagnosticsFrom
        (stateAfter state (statements.map (·.action))) (index + statements.length) [] := by
  have split := diagnosticsFrom_append state index statements []
  rw [List.append_nil] at split
  exact split

theorem reportsFrom_inOrder (state : State) (index : Nat) (statements : List Statement) :
    InOrder Diagnostic.index index (index + statements.length)
      (reportsFrom state index statements) := by
  induction statements generalizing state index with
  | nil => exact .nil
  | cons statement rest ih =>
      have later := ih (state.step statement.action).1 (index + 1)
      rw [Nat.add_assoc, Nat.add_comm 1] at later
      refine .cons (fun diagnostic there => ?_) later (by simp)
      obtain ⟨violation, -, rfl⟩ := List.mem_map.mp there
      rfl

/-- The end of the program counts as one statement more. -/
theorem diagnosticsFrom_inOrder (state : State) (index : Nat) (statements : List Statement) :
    InOrder Diagnostic.index index (index + statements.length + 1)
      (diagnosticsFrom state index statements) := by
  have before := reportsFrom_inOrder state index statements
  rw [diagnosticsFrom_eq]
  refine before.append (.of_statement ?_) (by omega) (by omega)
  intro diagnostic there
  obtain ⟨violation, -, rfl⟩ := List.mem_map.mp there
  rfl

theorem isAtEnd_of_mem_reportsFrom {state : State} {index : Nat} {statements : List Statement}
    {diagnostic : Diagnostic} (there : diagnostic ∈ reportsFrom state index statements) :
    diagnostic.isAtEnd = false := by
  induction statements generalizing state index with
  | nil => exact absurd there (by simp [reportsFrom])
  | cons statement rest ih =>
      rcases List.mem_append.mp there with here | later
      · obtain ⟨violation, -, rfl⟩ := List.mem_map.mp here
        rfl
      · exact ih later

/-- What is not at the end of the program is reported of its statements. -/
theorem filter_not_isAtEnd (state : State) (index : Nat) (statements : List Statement) :
    (diagnosticsFrom state index statements).filter (fun diagnostic => !diagnostic.isAtEnd) =
      reportsFrom state index statements := by
  have kept : (reportsFrom state index statements).filter (fun diagnostic => !diagnostic.isAtEnd) =
      reportsFrom state index statements := by
    rw [List.filter_eq_self]
    intro diagnostic there
    rw [isAtEnd_of_mem_reportsFrom there]
    rfl
  have dropped : (diagnosticsFrom (stateAfter state (statements.map (·.action)))
      (index + statements.length) []).filter (fun diagnostic => !diagnostic.isAtEnd) = [] := by
    rw [List.filter_eq_nil_iff]
    intro diagnostic there
    obtain ⟨violation, -, rfl⟩ := List.mem_map.mp there
    simp [Diagnostic.isAtEnd, Position.atEnd]
  rw [diagnosticsFrom_eq, List.filter_append, kept, dropped, List.append_nil]

/-- The destruction of a binding is reported if references still hold it. -/
theorem State.snd_destroy_binding (state : State) (id : BindingId) :
    (state.destroy (.binding id)).2 =
      if (state.loans.liveReferences id).isEmpty then []
      else [.danglingReferent (state.bindingName id)
        ((state.loans.liveReferences id).map state.referenceName)] := rfl

theorem State.snd_destroyAll_cons (state : State) (entity : Entity) (rest : List Entity) :
    (state.destroyAll (entity :: rest)).2 =
      (state.destroy entity).2 ++ ((state.destroy entity).1.destroyAll rest).2 := rfl

/-- All that is reported of destructions is that references dangle. -/
theorem kind_destroyAll {state : State} {gone : List Entity} {violation : Violation}
    (found : violation ∈ (state.destroyAll gone).2) : violation.kind = .danglingReferent := by
  induction gone generalizing state with
  | nil => exact absurd found (by simp [State.destroyAll])
  | cons entity rest ih =>
      rw [State.snd_destroyAll_cons, List.mem_append] at found
      rcases found with here | later
      · cases entity with
        | reference id => exact absurd here (by simp [State.destroy])
        | binding id =>
            rw [State.snd_destroy_binding] at here
            split at here
            · exact absurd here (by simp)
            · rw [List.mem_singleton.mp here]
              rfl
      · exact ih later

end Checker

namespace Program

open Checker

variable {program : Program}

/-- The diagnostics of the first statements, those of their end apart, are those of the program up
to there. -/
theorem analyze_take (valid : program.errors = []) {count : Nat}
    (bound : count ≤ program.statements.length) :
    ((program.take count).analyze .lexical).filter (fun diagnostic => !diagnostic.isAtEnd) =
      (program.analyze .lexical).filter fun diagnostic => decide (diagnostic.index < count) := by
  have valid' : (program.take count).errors = [] := by
    rw [errors_take bound, valid]
    rfl
  have length : (program.statements.take count).length = count := by
    rw [List.length_take, Nat.min_eq_left bound]
  have before := reportsFrom_inOrder {} 0 (program.statements.take count)
  have after := diagnosticsFrom_inOrder
    (stateAfter {} ((program.statements.take count).map (·.action))) (0 + count)
    (program.statements.drop count)
  have split := diagnosticsFrom_append {} 0 (program.statements.take count)
    (program.statements.drop count)
  rw [List.take_append_drop, length] at split
  rw [length, Nat.zero_add] at before
  rw [Nat.zero_add] at after split
  rw [analyze_of_valid valid, analyze_of_valid valid', walk, walk, split, before.filter_lt after]
  exact filter_not_isAtEnd {} 0 (program.statements.take count)

theorem position_of_lt {index : Nat} (bound : index < program.statements.length) :
    program.position index = .statement index (program.statements[index]).span := by
  simp only [position, List.getElem?_eq_getElem bound]

/-- The diagnostics of a program that is not valid stand at its errors. -/
theorem analyze_of_errors (invalid : program.errors ≠ []) :
    program.analyze .lexical = program.errors.map fun error => {
      violation := .malformedProgram error
      position := some (program.position error.index) } := by
  simp only [analyze]

theorem index_lt_of_mem_errors {error : ProgramError} (there : error ∈ program.errors) :
    error.index < program.statements.length := by
  have bounds := (Validation.errorsFrom_inOrder .root 0 program.actions).bounded error there
  rw [program.length_actions] at bounds
  omega

/-- **The diagnostics of any program stand in program order.** -/
theorem analyze_sorted (program : Program) :
    (program.analyze .lexical).Pairwise fun earlier later => earlier.index ≤ later.index := by
  by_cases valid : program.errors = []
  · rw [analyze_of_valid valid]
    exact (diagnosticsFrom_inOrder {} 0 program.statements).sorted
  · rw [analyze_of_errors valid, List.pairwise_map]
    refine (Validation.errorsFrom_inOrder .root 0 program.actions).sorted.imp_of_mem ?_
    intro earlier later left right less
    have placed : ∀ {error}, error ∈ program.errors →
        (program.position error.index).index = error.index := by
      intro error there
      rw [position_of_lt (index_lt_of_mem_errors there)]
      rfl
    simpa only [Diagnostic.index, Option.map_some, Option.getD_some, placed left, placed right]
      using less

/-- **Every diagnostic has a place**: one of the statements, or the end of the program, where only
references are left to dangle. -/
theorem position_of_mem_analyze {diagnostic : Diagnostic}
    (reported : diagnostic ∈ program.analyze .lexical) :
    (∃ index < program.statements.length,
      diagnostic.position = some (program.position index)) ∨
    (diagnostic.position = some (.atEnd program.statements.length) ∧
      diagnostic.violation.kind = .danglingReferent) := by
  by_cases valid : program.errors = []
  · rw [analyze_of_valid valid, walk, mem_diagnosticsFrom_iff] at reported
    simp only [Nat.zero_add] at reported
    rcases reported with ⟨index, statement, here, placed, -⟩ | ⟨placed, found⟩
    · obtain ⟨bound, rfl⟩ := List.getElem?_eq_some_iff.mp here
      exact .inl ⟨index, bound, by rw [placed, position_of_lt bound]⟩
    · exact .inr ⟨placed, kind_destroyAll found⟩
  · rw [analyze_of_errors valid] at reported
    obtain ⟨error, there, rfl⟩ := List.mem_map.mp reported
    exact .inl ⟨error.index, index_lt_of_mem_errors there, rfl⟩

end Program

/-! ## Evaluation -/

namespace Evaluation

/-- A run that fails fails at one of its statements. -/
theorem index_of_runFrom_error {machine : Machine} {index : Nat} {actions : List Action}
    {error : EvalError} (failed : runFrom machine index actions = .error error) :
    index ≤ error.index ∧ error.index < index + actions.length := by
  obtain ⟨count, before, action, placed, -, here, -⟩ := exists_step_of_runFrom_error failed
  have bound := (List.getElem?_eq_some_iff.mp here).1
  omega

/-- What a statement is observed to read, with its index. -/
def observed (index : Nat) (reading : Option Reading) : List Observation :=
  (reading.map fun found => { index, name := found.name, value := found.value }).toList

/-- One statement, and then the rest. -/
theorem runFrom_cons (machine : Machine) (index : Nat) (action : Action) (rest : List Action) :
    runFrom machine index (action :: rest) =
      match machine.step action with
      | .error fault => .error { index, fault }
      | .ok result =>
          (runFrom result.1 (index + 1) rest).map (observed index result.2 ++ ·) := by
  rw [runFrom]
  cases machine.step action with
  | error fault => rfl
  | ok result =>
      obtain ⟨after, reading⟩ := result
      simp only
      cases runFrom after (index + 1) rest with
      | error error => rfl
      | ok trace => cases reading <;> rfl

/-- A run that gets through takes its first statement and then gets through the rest. -/
theorem runFrom_cons_eq_ok_iff {machine : Machine} {index : Nat} {action : Action}
    {rest : List Action} {trace : List Observation} :
    runFrom machine index (action :: rest) = .ok trace ↔
      ∃ after reading later, machine.step action = .ok (after, reading) ∧
        runFrom after (index + 1) rest = .ok later ∧ observed index reading ++ later = trace := by
  rw [runFrom_cons]
  cases machine.step action with
  | error fault => simp
  | ok result =>
      obtain ⟨after, reading⟩ := result
      cases ran : runFrom after (index + 1) rest <;> simp [ran, Except.map]

/-- A run that gets through ends in a machine. -/
theorem exists_machineAfter_of_runFrom {machine : Machine} {index : Nat} {actions : List Action}
    {trace : List Observation} (ran : runFrom machine index actions = .ok trace) :
    ∃ after, machineAfter machine actions = .ok after := by
  induction actions generalizing machine index trace with
  | nil => exact ⟨machine, rfl⟩
  | cons action rest ih =>
      obtain ⟨next, reading, later, stepped, ran', -⟩ := runFrom_cons_eq_ok_iff.mp ran
      obtain ⟨after, reached⟩ := ih ran'
      refine ⟨after, ?_⟩
      rw [machineAfter_cons, stepped]
      exact reached

theorem runFrom_inOrder {machine : Machine} {index : Nat} {actions : List Action}
    {trace : List Observation} (ran : runFrom machine index actions = .ok trace) :
    InOrder Observation.index index (index + actions.length) trace := by
  induction actions generalizing machine index trace with
  | nil =>
      obtain rfl : [] = trace := Except.ok.inj ran
      exact .nil
  | cons action rest ih =>
      obtain ⟨after, reading, later, -, ran', rfl⟩ := runFrom_cons_eq_ok_iff.mp ran
      have ordered := ih ran'
      rw [Nat.add_assoc, Nat.add_comm 1] at ordered
      refine .cons (fun observation there => ?_) ordered (by simp)
      obtain ⟨found, -, rfl⟩ := Option.map_eq_some_iff.mp (Option.mem_toList.mp there)
      rfl

/-- **Statements in two parts.** A run over both fails where the run over the first fails; otherwise
it goes on with the second in the machine that the first leads to. -/
theorem runFrom_append (machine : Machine) (index : Nat) (first second : List Action) :
    (∃ error, runFrom machine index first = .error error ∧
      runFrom machine index (first ++ second) = .error error) ∨
    ∃ trace after, runFrom machine index first = .ok trace ∧
      runFrom machine index (first ++ second) =
        (runFrom after (index + first.length) second).map (trace ++ ·) := by
  induction first generalizing machine index with
  | nil =>
      refine .inr ⟨[], machine, rfl, ?_⟩
      show runFrom machine index second = (runFrom machine index second).map ([] ++ ·)
      cases runFrom machine index second <;> rfl
  | cons action rest ih =>
      simp only [List.cons_append, runFrom_cons]
      cases machine.step action with
      | error fault => exact .inl ⟨_, rfl, rfl⟩
      | ok result =>
          simp only
          rcases ih result.1 (index + 1) with ⟨error, failed, both⟩ | ⟨trace, after, ran, both⟩
          · rw [failed, both]
            exact .inl ⟨error, rfl, rfl⟩
          · rw [ran, both]
            refine .inr ⟨observed index result.2 ++ trace, after, rfl, ?_⟩
            rw [List.length_cons, Nat.add_comm rest.length, ← Nat.add_assoc]
            cases runFrom after (index + 1 + rest.length) second with
            | error error => rfl
            | ok trace' => exact congrArg Except.ok (List.append_assoc ..).symm

end Evaluation

namespace Program

open Evaluation

variable {program : Program} {count : Nat}

/-- **A run, up to a statement.** The run of the first statements fails with the program, at one of
them, or it succeeds; then the program goes on from there, and fails later if at all. -/
theorem run_take (bound : count ≤ program.statements.length) :
    (∃ error, (program.take count).run = .error error ∧ program.run = .error error ∧
      error.index < count) ∨
    ∃ trace, (program.take count).run = .ok trace ∧
      (∀ whole, program.run = .ok whole →
        whole.filter (fun observation => decide (observation.index < count)) = trace) ∧
      ∀ error, program.run = .error error → count ≤ error.index := by
  have length : (program.actions.take count).length = count := by
    rw [List.length_take, program.length_actions, Nat.min_eq_left bound]
  have parts := runFrom_append {} 0 (program.actions.take count) (program.actions.drop count)
  rw [List.take_append_drop, length, Nat.zero_add] at parts
  simp only [run, actions_take]
  rcases parts with ⟨error, failed, both⟩ | ⟨trace, after, ran, both⟩
  · have placed := index_of_runFrom_error failed
    exact .inl ⟨error, failed, both, by omega⟩
  · refine .inr ⟨trace, ran, fun whole succeeded => ?_, fun error failed => ?_⟩
    · have before := runFrom_inOrder ran
      rw [length, Nat.zero_add] at before
      cases later : runFrom after count (program.actions.drop count) with
      | error error =>
          rw [both, later] at succeeded
          exact absurd succeeded (by simp [Except.map])
      | ok rest =>
          rw [both, later] at succeeded
          obtain rfl : trace ++ rest = whole := Except.ok.inj succeeded
          exact before.filter_lt (runFrom_inOrder later)
    · cases later : runFrom after count (program.actions.drop count) with
      | ok rest =>
          rw [both, later] at failed
          exact absurd failed (by simp [Except.map])
      | error error' =>
          rw [both, later] at failed
          obtain rfl : error' = error := Except.error.inj failed
          exact (index_of_runFrom_error later).1

/-- **Program order and causality.** The diagnostics of any program stand in program order, each at
a statement or, if references dangle there, at the end. What validation, the checker and the machine
find at the first `count` statements is the same whatever follows: the errors of these statements
alone are the errors of the program below `count`; if the program is valid, so are the diagnostics,
those of the end apart; and a run of these statements observes what the run of the program observes
below `count`, fails as it does if that is below `count`, and succeeds if that is later. -/
theorem reports_causal (program : Program) {count : Nat}
    (bound : count ≤ program.statements.length) :
    ((program.analyze .lexical).Pairwise (fun earlier later => earlier.index ≤ later.index) ∧
      ∀ diagnostic ∈ program.analyze .lexical,
        (∃ index < program.statements.length,
          diagnostic.position = some (program.position index)) ∨
        (diagnostic.position = some (.atEnd program.statements.length) ∧
          diagnostic.violation.kind = .danglingReferent)) ∧
    (program.take count).errors =
      program.errors.filter (fun error => decide (error.index < count)) ∧
    (program.errors = [] →
      ((program.take count).analyze .lexical).filter (fun diagnostic => !diagnostic.isAtEnd) =
        (program.analyze .lexical).filter fun diagnostic => decide (diagnostic.index < count)) ∧
    (∀ trace, program.run = .ok trace → (program.take count).run =
      .ok (trace.filter fun observation => decide (observation.index < count))) ∧
    ∀ error, program.run = .error error →
      (error.index < count → (program.take count).run = .error error) ∧
      (count ≤ error.index → ∃ trace, (program.take count).run = .ok trace) := by
  refine ⟨⟨program.analyze_sorted, fun _ => position_of_mem_analyze⟩, errors_take bound,
    fun valid => analyze_take valid bound, fun trace ran => ?_, fun error failed => ?_⟩
  · rcases run_take bound with ⟨error, -, failed, -⟩ | ⟨trace', ran', observed, -⟩
    · exact absurd (failed.symm.trans ran) (by simp)
    · rw [ran', observed trace ran]
  · rcases run_take bound with ⟨error', failed', failed'', before⟩ | ⟨trace, ran, -, later⟩
    · obtain rfl : error' = error := Except.error.inj (failed''.symm.trans failed)
      exact ⟨fun _ => failed', fun after => by omega⟩
    · have after := later error failed
      exact ⟨fun before => by omega, fun _ => ⟨trace, ran⟩⟩

end Program

/-- `let mut a = 0; let mut r = &mut a; a = 0; { let b = 0; rebind r -> b; read *r; read b;`: the
owner writes `a` while it is lent out and reads `b` likewise, and at the end of the program, where
the scope is still open, `r` outlives `b`. -/
def unclosed : Program where
  statements := [
    { action := .declareBinding "a" true "i64" (some (.int default)) },
    { action := .declareReference "r" .exclusive true "a" },
    { action := .assignBinding "a" (.int default) },
    { action := .enterScope },
    { action := .declareBinding "b" false "i64" (some (.int default)) },
    { action := .rebindReference "r" "b" },
    { action := .readThrough (.deref "r") },
    { action := .readBinding "b" }]

/-- Without the last statement the write of `a` is still reported and the read of `*r` observed. The
end of the shorter program has a report of its own, which does not count. -/
theorem Program.reports_causal_unclosed :
    unclosed.errors = [] ∧ (unclosed.analyze .lexical).map Diagnostic.index = [2, 7, 8] ∧
    ((unclosed.take 7).analyze .lexical).map Diagnostic.index = [2, 7] ∧
    ((unclosed.take 7).analyze .lexical).filter (fun diagnostic => !diagnostic.isAtEnd) =
      (unclosed.analyze .lexical).filter (fun diagnostic => decide (diagnostic.index < 7)) ∧
    (unclosed.take 7).run = .ok [⟨6, "*r", default⟩] := by
  have valid : unclosed.errors = [] := by decide
  have bound : 7 ≤ unclosed.statements.length := by decide
  have ran : unclosed.run = .ok [⟨6, "*r", default⟩,
      ⟨7, "b", default⟩] := by decide
  obtain ⟨-, -, diagnostics, observations, -⟩ := Program.reports_causal unclosed bound
  exact ⟨valid, by decide, by decide, diagnostics valid, observations _ ran⟩

end Lending
