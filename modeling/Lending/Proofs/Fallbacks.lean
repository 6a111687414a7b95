import Lending.Proofs.Numbering

/-!
# No fallback is taken

Where the checker looks for something and finds nothing it goes on without a word: a name that is
not what it is used as is passed over, and so is an exit without a scope. A write through a
reference is not checked at all, for a live reference that may be written through ought to hold its
target alone. On a program that is not valid all of this would hide violations. On a valid one none
of it happens (`Program.fallbacks_unreachable`):

* **the strict checker** — it does what the checker does, but gives up where the checker would fall
  back, or where a write finds a live reference that does not hold its target alone (`strictStep`).
  It gets through a statement exactly if nothing hinders the statement, and then does what the
  checker does (`strictStep_eq_some_iff`), in any state;
* **valid programs** — validation and the checker resolve names alike, so every name is found, and
  so is a scope to exit (`Program.unhindered`). A reference that validation lets be written through
  is exclusive, and the loan table gives the target of a live one to it alone
  (`writesAlone_of_use`).
-/

namespace Lending

namespace Checker

namespace State

/-! ## What can hinder a statement -/

/-- The name stands for what it is used as. -/
def Finds (state : State) (mention : NameUse) : Prop :=
  if mention.isDeref then ∃ id, state.reference? mention.name = some id
  else ∃ id, state.binding? mention.name = some id

/-- A reference that is live is exclusive and alone in holding its target. -/
def HoldsAlone (state : State) (id : ReferenceId) (reference : Reference) : Prop :=
  reference.status = .live → reference.kind = .exclusive ∧
    (state.loans.state reference.target).holders = [.reference id]

instance (state : State) (id : ReferenceId) (reference : Reference) :
    Decidable (state.HoldsAlone id reference) :=
  inferInstanceAs (Decidable (_ → _))

/-- The name stands for a reference that can be written through without a check. -/
def WritesAlone (state : State) (name : String) : Prop :=
  ∃ id reference, state.reference? name = some id ∧ state.references[id]? = some reference ∧
    state.HoldsAlone id reference

/-- **Nothing hinders the statement**: all that it looks for is there, and what it takes for granted
holds. -/
structure Unhindered (state : State) (action : Action) : Prop where
  /-- Every name that it uses stands for what it is used as. -/
  finds : ∀ mention ∈ action.uses, state.Finds mention
  /-- An exit has a frame to close. -/
  closes : action = .exitScope → ∃ closed, state.scopes.exit? = some closed
  /-- A write goes through a reference that holds its target alone, if it holds it. -/
  writes : ∀ {name value}, action = .assignThrough name value → state.WritesAlone name

/-! ## The strict checker -/

/-- The violations of one read in an expression. -/
def checkedRead (state : State) (target : Option BindingId) (mention : NameUse) : List Violation :=
  if mention.isDeref then []
  else match state.binding? mention.name with
    | some id => if some id = target then [] else state.ownerAccess id .read
    | none => []

/-- The violations of one read, unless its name is not what it is used as. -/
def strictRead (state : State) (target : Option BindingId) (mention : NameUse) :
    Option (List Violation) :=
  if mention.isDeref then (state.reference? mention.name).map fun _ => []
  else (state.binding? mention.name).map fun id =>
    if some id = target then [] else state.ownerAccess id .read

/-- The violations of all reads, unless one of them gives up. -/
def strictReads (state : State) (target : Option BindingId) : List NameUse → Option (List Violation)
  | [] => some []
  | mention :: rest =>
      (state.strictRead target mention).bind fun first =>
        (state.strictReads target rest).map fun more => first ++ more

/-- Gives up a write through a reference that is live and does not hold its target alone. -/
def strictWrite (state : State) (name : String) : Option ReferenceId :=
  (state.reference? name).filter fun id =>
    state.references[id]?.any fun reference => decide (state.HoldsAlone id reference)

/-- **The strict checker.** Takes one statement, and gives up where the checker would fall back or
would go on although what it takes for granted does not hold. -/
def strictStep (state : State) : Action → Option Checked
  | .declareBinding name isMutable _ init =>
      (state.strictReads none (init.elim [] Expr.names)).map fun found =>
        (state.declareBinding name isMutable, found)
  | .declareReference name kind isMutable target =>
      (state.binding? target).map fun id => state.declareReference name kind isMutable id
  | .rebindReference name target =>
      (state.reference? name).bind fun reference =>
        (state.binding? target).map fun binding => state.rebind reference binding
  | .assignBinding name value =>
      (state.binding? name).bind fun id =>
        (state.strictReads (some id) value.names).map fun found =>
          let isMutable := (state.bindings[id]?.map (·.isMutable)).getD true
          (state, found ++ state.ownerAccess id .write ++
            if isMutable then [] else [.immutableAssignment name])
  | .assignThrough name value =>
      (state.strictReads none value.names).bind fun found =>
        (state.strictWrite name).map fun _ => (state, found)
  | .readBinding name => (state.binding? name).map fun id => (state, state.ownerAccess id .read)
  | .readThrough (.deref name) => (state.reference? name).map fun _ => (state, [])
  | .readThrough (.borrow name) => (state.binding? name).map fun id => state.temporaryRead id
  | .enterScope => some ({ state with scopes := state.scopes.enter }, [])
  | .exitScope =>
      state.scopes.exit?.map fun closed => { state with scopes := closed.2 }.destroyAll closed.1

end State

/-- The diagnostics of the statements from `index` on and of the end of the program, as the strict
checker finds them if it gets there. -/
def strictFrom (state : State) (index : Nat) : List Statement → Option (List Diagnostic)
  | [] => some (state.finish.2.map fun violation => { violation, position := some (.atEnd index) })
  | statement :: rest =>
      (state.strictStep statement.action).bind fun taken =>
        (strictFrom taken.1 (index + 1) rest).map fun more =>
          taken.2.map (fun violation =>
            { violation, position := some (.statement index statement.span) }) ++ more

/-- The diagnostics of a program, as the strict checker finds them if it gets to the end. -/
def strictWalk (program : Program) : Option (List Diagnostic) :=
  strictFrom {} 0 program.statements

/-! ## Where the strict checker gets through -/

namespace State

variable {state : State} {target : Option BindingId}

theorem finds_reference {name : String} :
    state.Finds ⟨name, true⟩ ↔ ∃ id, state.reference? name = some id :=
  Iff.rfl

theorem finds_binding {name : String} :
    state.Finds ⟨name, false⟩ ↔ ∃ id, state.binding? name = some id :=
  Iff.rfl

theorem exprReads_eq (expr : Expr) :
    state.exprReads expr target = expr.names.flatMap (state.checkedRead target) :=
  rfl

theorem strictRead_eq_some_iff {mention : NameUse} {found : List Violation} :
    state.strictRead target mention = some found ↔
      state.Finds mention ∧ state.checkedRead target mention = found := by
  obtain ⟨name, isDeref⟩ := mention
  cases isDeref with
  | true =>
      show (state.reference? name).map (fun _ => []) = some found ↔ _ ∧ [] = found
      rw [finds_reference, Option.map_eq_some_iff]
      constructor
      · rintro ⟨id, meaning, none⟩
        exact ⟨⟨id, meaning⟩, none⟩
      · rintro ⟨⟨id, meaning⟩, none⟩
        exact ⟨id, meaning, none⟩
  | false =>
      rw [finds_binding]
      cases meaning : state.binding? name with
      | none => simp [strictRead, meaning]
      | some id => simp [strictRead, checkedRead, meaning]

theorem strictReads_eq_some_iff {names : List NameUse} {found : List Violation} :
    state.strictReads target names = some found ↔
      (∀ mention ∈ names, state.Finds mention) ∧
        names.flatMap (state.checkedRead target) = found := by
  induction names generalizing found with
  | nil => simp [strictReads]
  | cons mention rest ih =>
      rw [strictReads, Option.bind_eq_some_iff, List.forall_mem_cons, List.flatMap_cons]
      simp only [strictRead_eq_some_iff, Option.map_eq_some_iff, ih]
      constructor
      · rintro ⟨_, ⟨first, rfl⟩, _, ⟨others, rfl⟩, rfl⟩
        exact ⟨⟨first, others⟩, rfl⟩
      · rintro ⟨⟨first, others⟩, rfl⟩
        exact ⟨_, ⟨first, rfl⟩, _, ⟨others, rfl⟩, rfl⟩

theorem exists_strictWrite_iff {name : String} :
    (∃ id, state.strictWrite name = some id) ↔ state.WritesAlone name := by
  simp only [strictWrite, Option.filter_eq_some_iff, Option.any_eq_true, decide_eq_true_eq]
  constructor
  · rintro ⟨id, meaning, reference, known, alone⟩
    exact ⟨id, reference, meaning, known, alone⟩
  · rintro ⟨id, reference, meaning, known, alone⟩
    exact ⟨id, meaning, reference, known, alone⟩

/-- Most statements are hindered by their names only. -/
theorem unhindered_iff {action : Action} (stays : action ≠ .exitScope)
    (keeps : ∀ name value, action ≠ .assignThrough name value) :
    state.Unhindered action ↔ ∀ mention ∈ action.uses, state.Finds mention := by
  constructor
  · intro unhindered
    exact unhindered.finds
  · intro finds
    exact ⟨finds, fun exits => absurd exits stays, fun {name value} writes =>
      absurd writes (keeps name value)⟩

/-- **The strict checker gets through a statement exactly if nothing hinders it**, and then it does
what the checker does. -/
theorem strictStep_eq_some_iff {action : Action} {result : Checked} :
    state.strictStep action = some result ↔
      state.Unhindered action ∧ state.step action = result := by
  cases action with
  | declareBinding name isMutable tag init =>
      rw [unhindered_iff (by simp) (by simp)]
      cases init with
      | none => simp [strictStep, strictReads, Action.uses, step]
      | some expr =>
          simp only [strictStep, Option.elim_some, Option.map_eq_some_iff, strictReads_eq_some_iff]
          constructor
          · rintro ⟨_, ⟨finds, rfl⟩, rfl⟩
            exact ⟨finds, rfl⟩
          · rintro ⟨finds, rfl⟩
            exact ⟨_, ⟨finds, rfl⟩, rfl⟩
  | declareReference name kind isMutable target =>
      rw [unhindered_iff (by simp) (by simp), Action.uses, List.forall_mem_singleton, finds_binding]
      cases meaning : state.binding? target with
      | none => simp [strictStep, meaning]
      | some id => simp [strictStep, step, meaning]
  | rebindReference name target =>
      rw [unhindered_iff (by simp) (by simp), Action.uses, List.forall_mem_cons,
        List.forall_mem_singleton, finds_reference, finds_binding]
      cases meaning : state.reference? name with
      | none => simp [strictStep, meaning]
      | some id =>
          cases meaning' : state.binding? target with
          | none => simp [strictStep, meaning, meaning']
          | some binding => simp [strictStep, step, meaning, meaning']
  | assignBinding name value =>
      rw [unhindered_iff (by simp) (by simp), Action.uses, List.forall_mem_append,
        List.forall_mem_singleton, finds_binding]
      cases meaning : state.binding? name with
      | none => simp [strictStep, meaning]
      | some id =>
          simp only [strictStep, step, meaning, Option.bind_some, Option.map_eq_some_iff,
            strictReads_eq_some_iff, exprReads_eq]
          constructor
          · rintro ⟨_, ⟨finds, rfl⟩, rfl⟩
            exact ⟨⟨finds, id, rfl⟩, rfl⟩
          · rintro ⟨⟨finds, -⟩, rfl⟩
            exact ⟨_, ⟨finds, rfl⟩, rfl⟩
  | assignThrough name value =>
      simp only [strictStep, step, Option.bind_eq_some_iff, Option.map_eq_some_iff,
        strictReads_eq_some_iff, exprReads_eq]
      constructor
      · rintro ⟨_, ⟨finds, rfl⟩, id, written, rfl⟩
        have writes : state.WritesAlone name := exists_strictWrite_iff.mp ⟨id, written⟩
        refine ⟨⟨?_, by simp, by rintro _ _ ⟨⟩; exact writes⟩, rfl⟩
        obtain ⟨other, _, meaning, -⟩ := writes
        rw [Action.uses, List.forall_mem_append, List.forall_mem_singleton, finds_reference]
        exact ⟨finds, other, meaning⟩
      · rintro ⟨unhindered, rfl⟩
        obtain ⟨id, written⟩ := exists_strictWrite_iff.mpr (unhindered.writes rfl)
        have finds := unhindered.finds
        rw [Action.uses, List.forall_mem_append] at finds
        exact ⟨_, ⟨finds.1, rfl⟩, id, written, rfl⟩
  | readBinding name =>
      rw [unhindered_iff (by simp) (by simp), Action.uses, List.forall_mem_singleton, finds_binding]
      cases meaning : state.binding? name with
      | none => simp [strictStep, meaning]
      | some id => simp [strictStep, step, meaning]
  | readThrough path =>
      rw [unhindered_iff (by simp) (by simp)]
      cases path with
      | deref name =>
          rw [Action.uses, List.forall_mem_singleton, finds_reference]
          cases meaning : state.reference? name with
          | none => simp [strictStep, meaning]
          | some id => simp [strictStep, step, meaning]
      | borrow name =>
          rw [Action.uses, List.forall_mem_singleton, finds_binding]
          cases meaning : state.binding? name with
          | none => simp [strictStep, meaning]
          | some id => simp [strictStep, step, meaning]
  | enterScope =>
      rw [unhindered_iff (by simp) (by simp)]
      simp [strictStep, step, Action.uses]
  | exitScope =>
      cases closed : state.scopes.exit? with
      | none =>
          -- Both sides are impossible: the strict checker gives up, and the exit is hindered.
          constructor
          · intro taken
            simp [strictStep, closed] at taken
          · rintro ⟨unhindered, -⟩
            obtain ⟨result, found⟩ := unhindered.closes rfl
            exact absurd (closed.symm.trans found) (by simp)
      | some found =>
          have unhindered : state.Unhindered .exitScope :=
            ⟨by simp [Action.uses], fun _ => ⟨found, closed⟩, by simp⟩
          simp [strictStep, step, closed, unhindered]

end State

/-- A run in which nothing hinders a statement is the same for the strict checker. -/
theorem strictFrom_eq {state : State} {statements : List Statement} (index : Nat)
    (unhindered : ∀ {offset statement}, statements[offset]? = some statement →
      (stateAfter state ((statements.take offset).map (·.action))).Unhindered statement.action) :
    strictFrom state index statements = some (diagnosticsFrom state index statements) := by
  induction statements generalizing state index with
  | nil => rfl
  | cons statement rest ih =>
      have first : state.strictStep statement.action = some (state.step statement.action) :=
        State.strictStep_eq_some_iff.mpr ⟨unhindered (show _ = _ from List.getElem?_cons_zero), rfl⟩
      -- The statements that follow are taken in the state after the first.
      have others := ih (index + 1) fun {offset later} (there : rest[offset]? = some later) =>
        unhindered (show (statement :: rest)[offset + 1]? = some later from there)
      rw [strictFrom, first, Option.bind_some, others]
      rfl

end Checker

/-! ## Valid programs -/

open Checker

namespace Validation

variable {names : Names} {state : State}

/-- The checker finds every name that validation accepts. -/
theorem finds_of_use (same : names = state.scopes.map state.declaredAs) {mention : NameUse}
    (accepted : use names mention.name (if mention.isDeref then .reference else .binding) = []) :
    state.Finds mention := by
  obtain ⟨name, isDeref⟩ := mention
  cases isDeref with
  | true => exact exists_reference?_of_use same accepted
  | false => exact exists_binding?_of_use same accepted

/-- A live reference that validation lets be written through holds its target alone. -/
theorem writesAlone_of_use (coherent : Coherent state)
    (same : names = state.scopes.map state.declaredAs) {name : String}
    (found : state.Finds ⟨name, true⟩) (accepted : useToWrite names name = []) :
    state.WritesAlone name := by
  obtain ⟨id, meaning⟩ := found
  obtain ⟨reference, known, -, -⟩ :=
    State.standing_eq_some_iff.mp (coherent.standing_of_reference? meaning)
  refine ⟨id, reference, meaning, known, ?_⟩
  intro live
  have exclusive := kind_of_useToWrite same accepted meaning known
  -- The books have a live reference under its own kind, and an exclusive loan has one holder.
  have entry : state.ledger id = some (reference.target, .exclusive) :=
    State.ledger_eq_some_iff.mpr ⟨reference, known, live, rfl, exclusive⟩
  exact ⟨exclusive, coherent.records.holders_of_exclusive entry⟩

end Validation

namespace Program

variable {program : Program} {action : Action} {index : Nat}

/-- Nothing hinders a statement of a valid program. -/
theorem unhindered (valid : program.errors = []) (here : program.actions[index]? = some action) :
    (program.stateAt index).Unhindered action := by
  have accepted := accepted valid here
  have finds : ∀ mention ∈ action.uses, (program.stateAt index).Finds mention := by
    intro mention used
    exact Validation.finds_of_use rfl (Validation.use_eq_nil_of_mem_uses accepted used)
  refine ⟨finds, ?_, ?_⟩
  · rintro rfl
    exact exists_exit?_of_exitScope valid here
  · rintro name value rfl
    exact Validation.writesAlone_of_use (program.coherent_stateAt index) rfl
      (finds _ (by simp [Action.uses])) (List.append_eq_nil_iff.mp accepted).2

/-- **Validation makes the fallbacks of the checker unreachable.** At every statement of a valid
program each name that the checker looks up stands for what it is used as, an exit finds a frame to
close, and a write goes through a reference that, if it is live, is exclusive and the only holder of
its target. So the strict checker, which gives up where any of this fails, gets to the end of the
program and reports what the checker reports. -/
theorem fallbacks_unreachable (valid : program.errors = []) :
    (∀ index action, program.actions[index]? = some action →
      (program.stateAt index).Unhindered action) ∧
    strictWalk program = some (program.analyze .lexical) := by
  refine ⟨fun index action here => unhindered valid here, ?_⟩
  rw [analyze_of_valid valid]
  refine strictFrom_eq 0 ?_
  intro offset statement there
  have here : program.actions[offset]? = some statement.action := by
    rw [actions, List.getElem?_map, there, Option.map_some]
  have reached := unhindered valid here
  rw [stateAt, actions, ← List.map_take] at reached
  exact reached

end Program

/-- `let mut a; let r = &mut a; { let mut r; let q = &mut r; *q = *q; let p = &mut a; *p = r; }
*r = *r;`: within the block `r` is a binding, and `p` is refused its loan. -/
def maskedWriter : Program where
  statements := [
    { action := .declareBinding "a" true "i32" none },
    { action := .declareReference "r" .exclusive false "a" },
    { action := .enterScope },
    { action := .declareBinding "r" true "i32" none },
    { action := .declareReference "q" .exclusive false "r" },
    { action := .assignThrough "q" (.deref "q") },
    { action := .declareReference "p" .exclusive false "a" },
    { action := .assignThrough "p" (.var "r") },
    { action := .exitScope },
    { action := .assignThrough "r" (.deref "r") }]

/-- The write through `p` finds it without a loan. At the last one `r` is a reference again, is live
and alone holds `a`. -/
theorem Program.fallbacks_unreachable_maskedWriter :
    maskedWriter.errors = [] ∧
      (maskedWriter.stateAt 7).references[2]?.map (·.status) = some .rejected ∧
      (maskedWriter.stateAt 9).references[0]?.map (·.status) = some .live ∧
      (∃ id reference, (maskedWriter.stateAt 9).reference? "r" = some id ∧
        (maskedWriter.stateAt 9).references[id]? = some reference ∧
        (maskedWriter.stateAt 9).HoldsAlone id reference) ∧
      (maskedWriter.analyze .lexical).length = 2 ∧
      strictWalk maskedWriter = some (maskedWriter.analyze .lexical) := by
  have valid : maskedWriter.errors = [] := by decide
  obtain ⟨unhindered, strict⟩ := Program.fallbacks_unreachable valid
  have last : maskedWriter.actions[9]? = some (.assignThrough "r" (.deref "r")) := rfl
  exact ⟨valid, by decide, by decide, (unhindered 9 _ last).writes rfl, by decide, strict⟩

end Lending
