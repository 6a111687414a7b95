import Lending.Proofs.Simulation

/-!
# Soundness of the checker

What the machine may meet in a program that is valid, and in one that the checker accepts:

* **names** — in a valid program every name resolves at every step that is reached, so no run fails
  for want of a name (`run_ne_unknownName`);
* **dead slots** — a reference that leads to a dead slot has lost its loan or its target before, and
  the checker reported that under the name of the reference, at an earlier statement
  (`exists_blame_of_dangling`).
-/

namespace Lending

open Checker Evaluation

/-- A dead slot is met through a reference that is blamed for something. -/
theorem Agrees.blamed_of_dangling {past : List Violation} {state : State} {machine : Machine}
    (coherent : Coherent state) (agrees : Agrees past state machine) {name : String}
    (failed : machine.derefSlot name = .error (.danglingReference name)) : Blamed past name := by
  obtain ⟨-, id, slot, meaning, points, dead⟩ := Machine.derefSlot_eq_dangling_iff.mp failed
  have found := agrees.referenceId_eq_ok_iff.mp (Machine.referenceId_eq_ok_iff.mpr meaning)
  rcases agrees.blamed_or_ledger coherent found with blamed | ⟨target, kind, points', entry⟩
  · exact blamed
  · -- The loan would keep the slot alive.
    obtain rfl : slot = target := Option.some.inj (points.symm.trans points')
    have alive := agrees.isAlive_of_kind? (coherent.records.kind?_eq entry)
    rw [dead] at alive
    exact absurd alive (by simp)

/-- The names of a statement of a valid program resolve in every machine that reaches it. -/
theorem Program.resolves_of_valid {program : Program} (valid : program.errors = []) {index : Nat}
    {action : Action} (here : program.actions[index]? = some action) {machine : Machine}
    (reached : machineAfter {} (program.actions.take index) = .ok machine) {mention : NameUse}
    (used : mention ∈ action.uses) : machine.Resolves mention := by
  have through := program.errorsFrom_take valid (index + 1)
  rw [take_succ_of_getElem? here] at through
  obtain ⟨before, accepted⟩ := Validation.defects_eq_nil through
  exact (agrees_run reached).resolves (coherent_stateAfter _) (Validation.scopes_eq_map before)
    (Validation.use_eq_nil_of_mem_uses accepted used)

/-- A run of a valid program does not fail for want of a name. -/
theorem Program.run_ne_unknownName {program : Program} (valid : program.errors = []) (index : Nat)
    (name : String) : program.run ≠ .error ⟨index, .unknownName name⟩ := by
  intro failed
  obtain ⟨machine, action, reached, here, fault⟩ := Program.exists_step_of_run_error failed
  exact Machine.step_ne_unknownName
    (fun mention used => Program.resolves_of_valid valid here reached used) name fault

/-- A run of a valid program that meets a dead slot was warned of: something is reported at an
earlier statement about a reference of the name through which the slot is met. -/
theorem Program.exists_blame_of_dangling {program : Program} (valid : program.errors = [])
    {index : Nat} {name : String}
    (failed : program.run = .error ⟨index, .danglingReference name⟩) :
    ∃ diagnostic ∈ program.analyze .lexical, diagnostic.violation.Blames name ∧
      ∃ position, diagnostic.position = some position ∧ position.index < index := by
  obtain ⟨machine, action, reached, here, fault⟩ := Program.exists_step_of_run_error failed
  obtain ⟨violation, found, blames⟩ := (agrees_run reached).blamed_of_dangling
    (coherent_stateAfter _) (Machine.derefSlot_of_step_error fault)
  obtain ⟨diagnostic, reported, rfl, placed⟩ := Program.exists_diagnostic valid found
  exact ⟨diagnostic, reported, blames, placed⟩

/-- **Soundness.** A run of a valid program never fails for want of a name, and if it meets a dead
slot, then the analysis reports something about the reference at an earlier statement. So a program
of which nothing is reported runs to its end, or stops because a binding has no value yet or because
a result is no word. -/
theorem Program.analysis_sound (program : Program) :
    (program.errors = [] →
      (∀ index name, program.run ≠ .error ⟨index, .unknownName name⟩) ∧
      ∀ index name, program.run = .error ⟨index, .danglingReference name⟩ →
        ∃ diagnostic ∈ program.analyze .lexical, diagnostic.violation.Blames name ∧
          ∃ position, diagnostic.position = some position ∧ position.index < index) ∧
    (program.analyze .lexical = [] →
      (∃ trace, program.run = .ok trace) ∨
      (∃ index name, program.run = .error ⟨index, .uninitializedRead name⟩) ∨
      ∃ index, program.run = .error ⟨index, .overflow⟩) := by
  refine ⟨fun valid => ⟨Program.run_ne_unknownName valid,
    fun index name => Program.exists_blame_of_dangling valid⟩, fun clean => ?_⟩
  have valid := Program.valid_of_analyze clean
  cases ran : program.run with
  | ok trace => exact .inl ⟨trace, rfl⟩
  | error error =>
      obtain ⟨index, fault⟩ := error
      cases fault with
      | unknownName name => exact absurd ran (Program.run_ne_unknownName valid index name)
      | uninitializedRead name => exact .inr (.inl ⟨index, name, rfl⟩)
      | overflow => exact .inr (.inr ⟨index, rfl⟩)
      | danglingReference name =>
          obtain ⟨diagnostic, reported, -⟩ := Program.exists_blame_of_dangling valid ran
          rw [clean] at reported
          exact absurd reported (by simp)

/-- `let a; let r = &a; { let b; rebind r -> b; } read *r;`: the checker refuses the rebind, for `r`
is not mutable, and leaves `r` where it was, but the machine carries it out. -/
def drifting : Program where
  statements := [
    { action := .declareBinding "a" false "i32" none },
    { action := .declareReference "r" .shared false "a" },
    { action := .enterScope },
    { action := .declareBinding "b" false "i32" none },
    { action := .rebindReference "r" "b" },
    { action := .exitScope },
    { action := .readThrough (.deref "r") }]

/-- The read meets the dead slot of `b`, and a report before it is about `r`. -/
theorem Program.analysis_sound_drifting :
    drifting.errors = [] ∧ drifting.run = .error ⟨6, .danglingReference "r"⟩ ∧
      ∃ diagnostic ∈ drifting.analyze .lexical, diagnostic.violation.Blames "r" ∧
        ∃ position, diagnostic.position = some position ∧ position.index < 6 := by
  have valid : drifting.errors = [] := by decide
  have failed : drifting.run = .error ⟨6, .danglingReference "r"⟩ := by decide
  exact ⟨valid, failed, ((Program.analysis_sound drifting).1 valid).2 6 "r" failed⟩

end Lending
