import Lending.Proofs.Coherence
import Lending.Proofs.Order

/-!
# Erasing reads and writes

A statement that only reads or writes a value leaves the state of the checker and the names of
validation as they are, a read through a loan of its own included. So it can be erased from a valid
program without any effect on what is reported of the others (`Program.access_erasable`):

* **validity** — the rest of the program finds the same names (`Program.errors_erase`);
* **reports** — the rest of the walk starts in the same state, one statement earlier, and so its
  reports are the same with indexes that are smaller by one (`map_closeGap_diagnosticsFrom`).
-/

namespace Lending

open Checker

/-- The position in the program without the statement at `erased`: what comes after moves up. -/
def Position.closeGap (erased : Nat) (position : Position) : Position :=
  if erased < position.index then { position with index := position.index - 1 } else position

theorem Position.closeGap_succ {erased index : Nat} (after : erased ≤ index)
    (span : Option FileSpan) (endOfProgram : Bool) :
    Position.closeGap erased { index := index + 1, span, endOfProgram } =
      { index, span, endOfProgram } := by
  rw [closeGap, if_pos (Nat.lt_succ_of_le after)]
  rfl

/-- The diagnostic in the program without the statement at `erased`. -/
def Diagnostic.closeGap (erased : Nat) (diagnostic : Diagnostic) : Diagnostic :=
  { diagnostic with position := diagnostic.position.map (Position.closeGap erased) }

/-- The program without the statement at `index`. -/
def Program.erase (program : Program) (index : Nat) : Program :=
  { program with statements := program.statements.eraseIdx index }

/-! ## Validity -/

namespace Validation

/-- Reads and writes declare nothing and leave no scope. -/
theorem fst_step_of_isAccess (names : Names) {action : Action} (access : isAccess action = true) :
    (step names action).1 = names := by
  cases action with
  | declareBinding | declareReference | rebindReference | enterScope | exitScope =>
      exact absurd access (by simp [isAccess])
  | assignBinding | assignThrough | readBinding => rfl
  | readThrough path => cases path <;> rfl

/-- Whether statements have errors does not depend on their indexes. -/
theorem errorsFrom_eq_nil_iff (names : Names) (index other : Nat) (actions : List Action) :
    errorsFrom names index actions = [] ↔ errorsFrom names other actions = [] := by
  induction actions generalizing names index other with
  | nil => simp [errorsFrom]
  | cons action rest ih =>
      simp only [errorsFrom, List.append_eq_nil_iff, List.map_eq_nil_iff]
      rw [ih _ (index + 1) (other + 1)]

end Validation

namespace Program

variable {program : Program} {index : Nat} {statement : Statement}

/-- A program, taken apart at one of its statements. -/
theorem statements_eq (here : program.statements[index]? = some statement) :
    program.statements =
      program.statements.take index ++ statement :: program.statements.drop (index + 1) := by
  obtain ⟨bound, rfl⟩ := List.getElem?_eq_some_iff.mp here
  rw [← List.drop_eq_getElem_cons bound, List.take_append_drop]

theorem statements_erase (program : Program) (index : Nat) :
    (program.erase index).statements =
      program.statements.take index ++ program.statements.drop (index + 1) :=
  List.eraseIdx_eq_take_drop_succ ..

theorem length_take_of_getElem? (here : program.statements[index]? = some statement) :
    (program.statements.take index).length = index := by
  have bound := (List.getElem?_eq_some_iff.mp here).1
  rw [List.length_take, Nat.min_eq_left (Nat.le_of_lt bound)]

/-- **A valid program stays valid** without one of its reads or writes. -/
theorem errors_erase (valid : program.errors = [])
    (here : program.statements[index]? = some statement)
    (access : isAccess statement.action = true) : (program.erase index).errors = [] := by
  rw [errors, actions, statements_eq here, List.map_append, List.map_cons,
    Validation.errorsFrom_append, List.append_eq_nil_iff] at valid
  obtain ⟨before, after⟩ := valid
  simp only [Validation.errorsFrom, List.append_eq_nil_iff] at after
  rw [Validation.fst_step_of_isAccess _ access] at after
  rw [errors, actions, statements_erase, List.map_append, Validation.errorsFrom_append,
    List.append_eq_nil_iff]
  exact ⟨before, (Validation.errorsFrom_eq_nil_iff _ _ _ _).mp after.2⟩

end Program

/-! ## Reports -/

/-- Of reports in order only those of one statement have its index. -/
theorem InOrder.filter_ne {α : Type} {index : α → Nat} {first middle last : Nat}
    {reports here more : List α} (before : InOrder index first middle reports)
    (same : ∀ report ∈ here, index report = middle)
    (after : InOrder index (middle + 1) last more) :
    (reports ++ (here ++ more)).filter (fun report => decide (index report ≠ middle)) =
      reports ++ more := by
  have kept : reports.filter (fun report => decide (index report ≠ middle)) = reports := by
    rw [List.filter_eq_self]
    intro report there
    have bounds := before.bounded report there
    exact decide_eq_true (by omega)
  have dropped : here.filter (fun report => decide (index report ≠ middle)) = [] := by
    rw [List.filter_eq_nil_iff]
    intro report there
    simp [same report there]
  have kept' : more.filter (fun report => decide (index report ≠ middle)) = more := by
    rw [List.filter_eq_self]
    intro report there
    have bounds := after.bounded report there
    exact decide_eq_true (by omega)
  rw [List.filter_append, List.filter_append, kept, dropped, kept', List.nil_append]

namespace Checker

/-- Reports before the gap stay where they are. -/
theorem map_closeGap_of_inOrder {first erased : Nat} {reports : List Diagnostic}
    (before : InOrder Diagnostic.index first erased reports) :
    reports.map (Diagnostic.closeGap erased) = reports := by
  have stays : ∀ diagnostic ∈ reports, diagnostic.closeGap erased = id diagnostic := by
    intro diagnostic there
    have bounds := before.bounded diagnostic there
    obtain ⟨violation, position⟩ := diagnostic
    cases position with
    | none => rfl
    | some position =>
        have early : ¬erased < position.index := Nat.lt_asymm bounds.2
        simp only [Diagnostic.closeGap, Option.map_some, Position.closeGap, if_neg early, id]
  exact (List.map_congr_left stays).trans (List.map_id reports)

/-- **A walk that starts one statement earlier** reports the same one statement earlier. -/
theorem map_closeGap_diagnosticsFrom (state : State) {erased index : Nat} (after : erased ≤ index)
    (statements : List Statement) :
    (diagnosticsFrom state (index + 1) statements).map (Diagnostic.closeGap erased) =
      diagnosticsFrom state index statements := by
  have moved : ∀ {position position' : Position} (violations : List Violation),
      position.closeGap erased = position' →
      (violations.map fun violation => ({ violation, position := some position } :
        Diagnostic)).map (Diagnostic.closeGap erased) =
      violations.map fun violation => { violation, position := some position' } := by
    rintro position _ violations rfl
    rw [List.map_map]
    rfl
  induction statements generalizing state index with
  | nil => exact moved _ (Position.closeGap_succ after none true)
  | cons statement rest ih =>
      simp only [diagnosticsFrom, List.map_append]
      rw [ih _ (Nat.le_succ_of_le after)]
      congr 1
      exact moved _ (Position.closeGap_succ after statement.span false)

end Checker

namespace Program

variable {program : Program} {index : Nat} {statement : Statement}

/-- The analysis of a valid program, taken apart at a read or a write: the rest goes on in the state
before it. -/
theorem analyze_of_access (valid : program.errors = [])
    (here : program.statements[index]? = some statement)
    (access : isAccess statement.action = true) {state : State}
    (reached : stateAfter {} ((program.statements.take index).map (·.action)) = state) :
    program.analyze .lexical =
      reportsFrom {} 0 (program.statements.take index) ++
        ((state.step statement.action).2.map (fun violation =>
            { violation, position := some (.statement index statement.span) }) ++
          diagnosticsFrom state (index + 1) (program.statements.drop (index + 1))) := by
  have unmoved : (state.step statement.action).1 = state :=
    (reached ▸ coherent_stateAfter _ : Coherent state).step_of_isAccess access
  have split := diagnosticsFrom_append {} 0 (program.statements.take index)
    (statement :: program.statements.drop (index + 1))
  rw [← statements_eq here, length_take_of_getElem? here, Nat.zero_add, reached] at split
  rw [analyze_of_valid valid, walk, split, diagnosticsFrom]
  simp only [unmoved]

theorem analyze_erase (valid : (program.erase index).errors = [])
    (here : program.statements[index]? = some statement) {state : State}
    (reached : stateAfter {} ((program.statements.take index).map (·.action)) = state) :
    (program.erase index).analyze .lexical =
      reportsFrom {} 0 (program.statements.take index) ++
        diagnosticsFrom state index (program.statements.drop (index + 1)) := by
  rw [analyze_of_valid valid, walk, statements_erase, diagnosticsFrom_append,
    length_take_of_getElem? here, Nat.zero_add, reached]

/-- **Reads and writes can be erased.** A valid program without one of its reads or writes is valid,
and what is reported of it is what was reported before, in the same order, without the reports of
the erased statement and with indexes smaller by one for all that comes after it. -/
theorem access_erasable {program : Program} (valid : program.errors = []) {index : Nat}
    {action : Action} (here : program.actions[index]? = some action)
    (access : isAccess action = true) :
    (program.erase index).errors = [] ∧
    (program.erase index).analyze .lexical =
      ((program.analyze .lexical).filter fun diagnostic => decide (diagnostic.index ≠ index)).map
        (Diagnostic.closeGap index) := by
  obtain ⟨statement, found, rfl⟩ : ∃ statement, program.statements[index]? = some statement ∧
      statement.action = action := by
    rw [actions, List.getElem?_map, Option.map_eq_some_iff] at here
    exact here
  have valid' := errors_erase valid found access
  refine ⟨valid', ?_⟩
  have before := reportsFrom_inOrder {} 0 (program.statements.take index)
  rw [length_take_of_getElem? found, Nat.zero_add] at before
  have after := diagnosticsFrom_inOrder
    (stateAfter {} ((program.statements.take index).map (·.action))) (index + 1)
    (program.statements.drop (index + 1))
  rw [analyze_of_access valid found access rfl, before.filter_ne _ after, List.map_append,
    map_closeGap_of_inOrder before, map_closeGap_diagnosticsFrom _ (Nat.le_refl index),
    analyze_erase valid' found rfl]
  intro diagnostic there
  obtain ⟨violation, -, rfl⟩ := List.mem_map.mp there
  rfl

end Program

/-- `let mut a; let mut r = &mut a; read a; read &a; let q = &a; { let b; rebind r -> b;`: both
reads and the second loan of `a` are refused, and `r` outlives `b` at the end. -/
def crowded : Program where
  statements := [
    { action := .declareBinding "a" true "i64" none },
    { action := .declareReference "r" .exclusive true "a" },
    { action := .readBinding "a" },
    { action := .readThrough (.borrow "a") },
    { action := .declareReference "q" .shared false "a" },
    { action := .enterScope },
    { action := .declareBinding "b" false "i64" none },
    { action := .rebindReference "r" "b" }]

/-- Of the four reports the one of the read through a loan of its own goes, and the two behind it
move up. -/
theorem Program.access_erasable_crowded :
    crowded.errors = [] ∧ (crowded.analyze .lexical).map Diagnostic.index = [2, 3, 4, 8] ∧
    (crowded.erase 3).errors = [] ∧
    (crowded.erase 3).analyze .lexical =
      ((crowded.analyze .lexical).filter fun diagnostic => decide (diagnostic.index ≠ 3)).map
        (Diagnostic.closeGap 3) ∧
    ((crowded.erase 3).analyze .lexical).map Diagnostic.index = [2, 3, 7] := by
  have valid : crowded.errors = [] := by decide
  have here : crowded.actions[3]? = some (.readThrough (.borrow "a")) := rfl
  obtain ⟨valid', reports⟩ := Program.access_erasable valid here rfl
  exact ⟨valid, by decide, valid', reports, by decide⟩

end Lending
