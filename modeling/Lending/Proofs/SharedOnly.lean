import Lending.Proofs.Dangling
import Lending.Proofs.Isolation
import Lending.Proofs.Soundness

/-!
# Programs that only share

A valid program that borrows only to share, rebinds nothing and assigns no binding gives the checker
nothing to report, whatever it declares, hides and reads and whichever scopes it leaves open
(`Program.sharing_clean`):

* **loans** — none is ever exclusive, for only exclusive references ask for one
  (`onlyShared_stateAt`);
* **statements** — while no loan is exclusive every shared one is granted, and owners may read
  (`OnlyShared.step_eq_nil`);
* **destructions** — a reference that is never rebound is younger than what it holds and goes first,
  so that nothing is destroyed while it is held (`Destroys.destroy_eq_nil`).
-/

namespace Lending

/-- The action borrows only to share, rebinds no reference and assigns no binding. -/
def Action.isSharing : Action → Bool
  | .declareReference _ kind _ _ => !kind.isExclusive
  | .rebindReference _ _ => false
  | .assignBinding _ _ => false
  | _ => true

theorem Action.kind_of_isSharing {name target : String} {kind : BorrowKind} {isMutable : Bool}
    (sharing : (Action.declareReference name kind isMutable target).isSharing = true) :
    kind = .shared := by
  cases kind with
  | shared => rfl
  | exclusive => cases sharing

theorem Action.isRebind_of_isSharing {action : Action} (sharing : action.isSharing = true) :
    action.isRebind = false := by
  cases action with
  | rebindReference => cases sharing
  | declareBinding | declareReference | assignBinding | assignThrough | readBinding | readThrough
  | enterScope | exitScope => rfl

/-! ## Statements -/

namespace Checker.State

variable {state : State}

/-- No loan is exclusive. -/
def OnlyShared (state : State) : Prop :=
  ∀ id, (state.loans.state id).kind? ≠ some .exclusive

theorem OnlyShared.acquire_ne_error (shared : state.OnlyShared) (id : BindingId) (holder : Holder)
    (refusal : Conflict) : state.loans.acquire id holder .shared ≠ .error refusal := by
  intro refused
  obtain ⟨held, kind, exclusive⟩ :=
    LoanState.exists_kind?_of_lend_eq_none (LoanTable.acquire_eq_error_iff.mp refused).1
  rw [exclusive rfl] at kind
  exact shared id kind

theorem OnlyShared.ownerAccess_eq_nil (shared : state.OnlyShared) (id : BindingId) :
    state.ownerAccess id .read = [] := by
  rw [ownerAccess_eq_nil_iff]
  cases kind : (state.loans.state id).kind? with
  | none => exact .inl rfl
  | some held =>
      cases held with
      | shared => exact .inr ⟨rfl, rfl⟩
      | exclusive => exact absurd kind (shared id)

theorem OnlyShared.exprReads_eq_nil (shared : state.OnlyShared) (expr : Expr)
    (target : Option BindingId) : state.exprReads expr target = [] := by
  rw [List.eq_nil_iff_forall_not_mem]
  intro violation found
  obtain ⟨id, here⟩ := mem_exprReads found
  rw [shared.ownerAccess_eq_nil id] at here
  cases here

theorem OnlyShared.temporaryRead_eq_nil (shared : state.OnlyShared) (id : BindingId) :
    (state.temporaryRead id).2 = [] := by
  unfold temporaryRead
  split
  · rfl
  · rename_i refusal refused
    exact absurd refused (shared.acquire_ne_error id _ refusal)

theorem OnlyShared.declareReference_eq_nil (shared : state.OnlyShared) (name : String)
    (isMutable : Bool) (target : BindingId) :
    (state.declareReference name .shared isMutable target).2 = [] := by
  rw [declareReference_eq]
  show ((state.addReference name .shared isMutable target).acquire state.references.size).2 = []
  rw [acquire, getElem?_addReference, if_pos rfl]
  simp only
  split
  · rfl
  · rename_i refusal refused
    exact absurd refused (shared.acquire_ne_error target _ refusal)

/-- **While no loan is exclusive** a statement that only shares is not objected to, unless it leaves
a scope. -/
theorem OnlyShared.step_eq_nil {action : Action} (shared : state.OnlyShared)
    (sharing : action.isSharing = true) (stays : action ≠ .exitScope) :
    (state.step action).2 = [] := by
  cases action with
  | declareBinding name isMutable tag init =>
      cases init with
      | none => rfl
      | some expr => exact shared.exprReads_eq_nil expr none
  | declareReference name kind isMutable target =>
      rw [Action.kind_of_isSharing sharing]
      simp only [step]
      cases state.binding? target with
      | none => rfl
      | some id => exact shared.declareReference_eq_nil name isMutable id
  | rebindReference | assignBinding => cases sharing
  | assignThrough name expr => exact shared.exprReads_eq_nil expr none
  | readBinding name =>
      simp only [step]
      cases state.binding? name with
      | none => rfl
      | some id => exact shared.ownerAccess_eq_nil id
  | readThrough path =>
      cases path with
      | deref name => rfl
      | borrow name =>
          simp only [step]
          cases state.binding? name with
          | none => rfl
          | some id => exact shared.temporaryRead_eq_nil id
  | enterScope => rfl
  | exitScope => exact absurd rfl stays

end Checker.State

open Checker Lexical

namespace Program

variable {program : Program} {count : Nat}

/-- **No loan is exclusive** in a valid program whose references are all shared. -/
theorem onlyShared_stateAt (valid : program.errors = [])
    (sharing : ∀ action ∈ program.actions, action.isSharing = true)
    (bound : count ≤ program.actions.length) : (program.stateAt count).OnlyShared := by
  intro id exclusive
  have records := (program.coherent_stateAt count).records
  obtain ⟨holder, alone⟩ := LoanState.exists_holder_of_kind? exclusive
  have holds : holder ∈ ((program.stateAt count).loans.state id).holders := by
    rw [alone]
    exact List.mem_singleton.mpr rfl
  cases holder with
  | temporary => exact (records.settled id).temporary_not_mem holds
  | reference borrower =>
      obtain ⟨kind, entered⟩ := (records.holder_iff borrower id).mp holds
      have lent := records.kind?_eq entered
      rw [exclusive] at lent
      obtain ⟨reference, known, -, -, kind'⟩ := State.ledger_eq_some_iff.mp entered
      -- The reference is of the kind that it was declared with, which is shared.
      obtain ⟨declared, before, number, name, declaredKind, isMutable, target, here⟩ :=
        exists_declareReference_of_lt valid bound (Array.getElem?_eq_some_iff.mp known).1
      have identity := identity_stateAt valid bound here before
      rw [number, State.identity, known, Option.map_some, Option.some.injEq, Prod.mk.injEq,
        Prod.mk.injEq, kind', ← Option.some.inj lent,
        Action.kind_of_isSharing (sharing _ (List.mem_of_getElem? here))] at identity
      cases identity.2.1

/-! ## Destructions -/

/-- **Nothing is destroyed while it is held** if nothing is rebound. -/
theorem Destroys.destroy_eq_nil {state : State} {id : BindingId} (valid : program.errors = [])
    (fixed : ∀ action ∈ program.actions, action.isRebind = false)
    (destroys : program.Destroys count state (.binding id)) :
    (state.destroy (.binding id)).2 = [] := by
  have unheld : state.loans.liveReferences id = [] := by
    rw [List.eq_nil_iff_forall_not_mem]
    intro holder holds
    obtain ⟨lent, -, -, rebound⟩ := destroys.reboundToYounger valid
    obtain ⟨declared, asked, -, younger⟩ := rebound holder holds
    obtain ⟨called, target, rebinds, -⟩ := younger.rebinds
    exact absurd (fixed _ (List.mem_of_getElem? rebinds)) (by simp [Action.isRebind])
  simp only [State.destroy, unheld, List.isEmpty_nil, if_true]

/-- **Programs that only share are clean.** -/
theorem analyze_eq_nil_of_sharing (valid : program.errors = [])
    (sharing : ∀ action ∈ program.actions, action.isSharing = true) :
    program.analyze .lexical = [] := by
  have fixed : ∀ action ∈ program.actions, action.isRebind = false := by
    intro action there
    exact Action.isRebind_of_isSharing (sharing action there)
  rw [analyze_of_valid valid, walk, List.eq_nil_iff_forall_not_mem]
  intro diagnostic reported
  rw [mem_diagnosticsFrom_iff] at reported
  rcases reported with ⟨index, statement, there, -, found⟩ | ⟨-, found⟩
  · have here : program.actions[index]? = some statement.action := by
      rw [actions, List.getElem?_map, there, Option.map_some]
    rw [List.map_take] at found
    by_cases exits : statement.action = .exitScope
    · rw [exits] at here found
      obtain ⟨state, id, destroys, found'⟩ := exists_destroys_of_exitScope here found
      rw [destroys.destroy_eq_nil valid fixed] at found'
      cases found'
    · have bound := Nat.le_of_lt (List.getElem?_eq_some_iff.mp here).1
      have shared := onlyShared_stateAt valid sharing bound
      have silent := shared.step_eq_nil (sharing _ (List.mem_of_getElem? here)) exits
      have found' : diagnostic.violation ∈ ((program.stateAt index).step statement.action).2 :=
        found
      rw [silent] at found'
      cases found'
  · have last : program.stateAt program.actions.length =
        stateAfter {} (program.statements.map (·.action)) := by
      rw [stateAt, List.take_length, actions]
    rw [← last] at found
    obtain ⟨state, id, destroys, found'⟩ := exists_destroys_of_finish found
    rw [destroys.destroy_eq_nil valid fixed] at found'
    cases found'

/-- **Shared-only programs are always clean.** Of a valid program that borrows only to share and
neither rebinds a reference nor assigns a binding the lexical analysis reports nothing, and its run
gets to the end or stops because a binding has no value yet or because a result is no word. -/
theorem sharing_clean (valid : program.errors = [])
    (sharing : ∀ action ∈ program.actions, action.isSharing = true) :
    program.analyze .lexical = [] ∧
      ((∃ trace, program.run = .ok trace) ∨
        (∃ index name, program.run = .error ⟨index, .uninitializedRead name⟩) ∨
        ∃ index, program.run = .error ⟨index, .overflow⟩) := by
  refine ⟨analyze_eq_nil_of_sharing valid sharing, ?_⟩
  cases ran : program.run with
  | ok trace => exact .inl ⟨trace, rfl⟩
  | error error =>
      obtain ⟨index, fault⟩ := error
      cases fault with
      | unknownName name => exact absurd ran (run_ne_unknownName valid index name)
      | uninitializedRead name => exact .inr (.inl ⟨index, name, rfl⟩)
      | overflow => exact .inr (.inr ⟨index, rfl⟩)
      | danglingReference name =>
          refine absurd ran (run_ne_danglingReference ?_ index name)
          intro action there
          exact Action.isRebind_of_isSharing (sharing action there)

end Program

/-- `let a = 0; let r = &a; { let mut a = a + *r; let mut r = &a; let r = &a; read &a; { let q = &a;
read *q; } read *r; } { let b; let q = &b; read *r; read b;`: names are hidden within a scope and by
inner ones, two references hold one binding, and the last scope is left open. -/
def sharers : Program where
  statements := [
    { action := .declareBinding "a" false "i64" (some (.int default)) },
    { action := .declareReference "r" .shared false "a" },
    { action := .enterScope },
    { action := .declareBinding "a" true "i64" (some (.binary .add (.var "a") (.deref "r"))) },
    { action := .declareReference "r" .shared true "a" },
    { action := .declareReference "r" .shared false "a" },
    { action := .readThrough (.borrow "a") },
    { action := .enterScope },
    { action := .declareReference "q" .shared false "a" },
    { action := .readThrough (.deref "q") },
    { action := .exitScope },
    { action := .readThrough (.deref "r") },
    { action := .exitScope },
    { action := .enterScope },
    { action := .declareBinding "b" false "i64" none },
    { action := .declareReference "q" .shared false "b" },
    { action := .readThrough (.deref "r") },
    { action := .readBinding "b" }]

/-- Nothing is reported of them, though `b` has no value when it is read. -/
theorem Program.sharing_clean_sharers :
    sharers.errors = [] ∧ (∀ action ∈ sharers.actions, action.isSharing = true) ∧
    sharers.analyze .lexical = [] ∧
    sharers.run = .error ⟨17, .uninitializedRead "b"⟩ ∧
    ((∃ trace, sharers.run = .ok trace) ∨
      (∃ index name, sharers.run = .error ⟨index, .uninitializedRead name⟩) ∨
      ∃ index, sharers.run = .error ⟨index, .overflow⟩) := by
  have valid : sharers.errors = [] := by decide
  have sharing : ∀ action ∈ sharers.actions, action.isSharing = true := by decide
  obtain ⟨clean, ends⟩ := Program.sharing_clean valid sharing
  exact ⟨valid, sharing, clean, by decide, ends⟩

end Lending
