import Lending.Proofs.Holders
import Lending.Proofs.Order

/-!
# Reports are consistent

A violation is put together from the loans that are out when it is found: their kind, and the names
of the references among their holders. No type keeps these parts in step. A list of names could be
empty, and the message would speak of a temporary borrow; a request for a shared loan could be
refused because of a shared one. That this never happens (`Program.reports_consistent`) rests on the
loan table:

* **inversion** — what a statement can report at all, one case for each operation of the checker
  that reports something (`State.Reports.of_step`);
* **names** — between two statements a binding that is lent out has a holder, no holder is a read
  that borrows for itself, and an exclusive loan has one holder, so the names show all this
  (`State.namesHolders`);
* **places** — hence every violation fits the statement at which it is reported
  (`fits_of_mem_step`), and a statement reports at most one write of its own
  (`countP_isOwnerWrite_step`).
-/

namespace Lending

/-! ## Names in messages -/

/-- The names of those who hold a loan of kind `held`, as a message lists them. -/
structure NamesHolders (held : BorrowKind) (names : List String) : Prop where
  /-- Somebody is named. -/
  nonempty : names ≠ []
  /-- An exclusive loan has one holder. -/
  alone : held = .exclusive → names.length = 1

/-- The phrase for no name at all is not a list of names. -/
theorem quoteNames_eq_phrase_iff {names : List String} :
    quoteNames names = "a temporary borrow" ↔ names = [] := by
  cases names with
  | nil => simp [quoteNames]
  | cons first rest =>
      refine ⟨fun same => ?_, fun none => absurd none (by simp)⟩
      -- A list of names starts with the mark that stands around each of them.
      have head : (quoteNames (first :: rest)).toList.head? = some '`' := by
        show (", ".intercalate (("`" ++ first ++ "`") :: rest.map _)).toList.head? = some '`'
        rw [String.toList_intercalate, List.map_cons]
        cases rest <;> simp [List.intercalate, String.toList_append]
      rw [same] at head
      exact absurd head (by decide)

namespace LoanState

variable {state : LoanState} {kind : BorrowKind}

/-- A binding that is lent out has a reference among its holders. -/
theorem Settled.references_ne_nil (settled : state.Settled) (lent : state.kind? = some kind) :
    state.references ≠ [] := by
  obtain ⟨holder, held⟩ : ∃ holder, holder ∈ state.holders := by
    apply List.exists_mem_of_ne_nil
    intro none
    rw [settled.kind?_eq_none none] at lent
    exact absurd lent (by simp)
  cases holder with
  | temporary => exact absurd held settled.temporary_not_mem
  | reference id => exact List.ne_nil_of_mem (mem_filterMap_reference?.mpr held)

/-- An exclusive loan has one holder, and it is a reference. -/
theorem Settled.length_references (settled : state.Settled)
    (exclusive : state.kind? = some .exclusive) : state.references.length = 1 := by
  obtain ⟨holder, rfl⟩ := exists_holder_of_kind? exclusive
  cases holder with
  | temporary => exact absurd rfl settled
  | reference id => rfl

end LoanState

namespace Checker

namespace State

variable {state : State} {violation : Violation} {id : BindingId}

theorem namesHolders (settled : (state.loans.state id).Settled) {held : BorrowKind}
    (lent : (state.loans.state id).kind? = some held) :
    NamesHolders held (state.holderNames (state.loans.state id).holders) where
  nonempty := by
    intro none
    exact settled.references_ne_nil lent (List.map_eq_nil_iff.mp none)
  alone := by
    rintro rfl
    rw [holderNames, List.length_map]
    exact settled.length_references lent

/-! ## What a statement can report -/

/-- What an access by the owner reports. -/
theorem mem_ownerAccess {access : Access} (found : violation ∈ state.ownerAccess id access) :
    ∃ held, (state.loans.state id).kind? = some held ∧ (access = .read → held = .exclusive) ∧
      violation = .ownerAccess (state.bindingName id) access held
        (state.holderNames (state.loans.state id).holders) := by
  cases lent : (state.loans.state id).kind? with
  | none => simp [ownerAccess, lent] at found
  | some held =>
      refine ⟨held, rfl, ?_⟩
      cases held <;> cases access <;> simp_all [ownerAccess]

/-- The reads in an expression report accesses by owners. -/
theorem mem_exprReads {expr : Expr} {target : Option BindingId}
    (found : violation ∈ state.exprReads expr target) :
    ∃ id, violation ∈ state.ownerAccess id .read := by
  obtain ⟨mention, -, here⟩ := List.mem_flatMap.mp found
  split at here
  · exact absurd here (by simp)
  · split at here
    · split at here
      · exact absurd here (by simp)
      · exact ⟨_, here⟩
    · exact absurd here (by simp)

/-- **What a statement can report**, one case for each operation that reports something. -/
inductive Reports (state : State) : Action → Violation → Prop
  /-- An owner reads. -/
  | read {action : Action} {violation : Violation} {id : BindingId} :
      violation ∈ state.ownerAccess id .read → Reports state action violation
  /-- The owner writes what is assigned. -/
  | write {name : String} {value : Expr} {id : BindingId} {violation : Violation} :
      state.binding? name = some id → violation ∈ state.ownerAccess id .write →
      Reports state (.assignBinding name value) violation
  /-- What is assigned or rebound is not mutable. -/
  | immutable {action : Action} (name : String) : Reports state action (.immutableAssignment name)
  /-- A reference asks for a loan, after it has given back another one if it had one. -/
  | asked {action : Action} {violation : Violation} {ready : State} {id : ReferenceId} :
      (ready.loans = state.loans ∨
        ∃ binding holder, ready.loans = (state.loans.release binding holder).2) →
      violation ∈ (ready.acquire id).2 → Reports state action violation
  /-- A read borrows for itself. -/
  | borrowed {name : String} {id : BindingId} {violation : Violation} :
      state.binding? name = some id → violation ∈ (state.temporaryRead id).2 →
      Reports state (.readThrough (.borrow name)) violation
  /-- The entities of a scope are destroyed. -/
  | destroyed {closing : State} {gone : List Entity} {violation : Violation} :
      violation ∈ (closing.destroyAll gone).2 → Reports state .exitScope violation

theorem Reports.of_exprReads {action : Action} {expr : Expr} {target : Option BindingId}
    (found : violation ∈ state.exprReads expr target) : state.Reports action violation := by
  obtain ⟨id, here⟩ := mem_exprReads found
  exact .read here

theorem Reports.of_rebind {action : Action} {asking : ReferenceId}
    (found : violation ∈ (state.rebind asking id).2) : state.Reports action violation := by
  cases known : state.references[asking]? with
  | none =>
      simp only [rebind, known] at found
      exact absurd found (by simp)
  | some reference =>
      cases fixed : reference.isMutable with
      | false =>
          rw [rebind_of_not_isMutable known fixed] at found
          rw [List.mem_singleton.mp found]
          exact .immutable reference.name
      | true =>
          rw [rebind_of_isMutable known fixed] at found
          by_cases live : reference.status = .live
          · exact .asked (.inr ⟨reference.target, .reference asking, if_pos live⟩) found
          · exact .asked (.inl (if_neg live)) found

/-- Every violation of a statement is one that it can report. -/
theorem Reports.of_step {action : Action} (found : violation ∈ (state.step action).2) :
    state.Reports action violation := by
  cases action with
  | declareBinding name isMutable tag init =>
      cases init with
      | none => exact absurd found (by simp [step])
      | some expr => exact .of_exprReads found
  | declareReference name kind isMutable target =>
      simp only [step] at found
      split at found
      · rename_i id _
        let added := state.addReference name kind isMutable id
        exact .asked (.inl (rfl : added.loans = state.loans)) found
      · exact absurd found (by simp)
  | rebindReference name target =>
      simp only [step] at found
      split at found
      · exact .of_rebind found
      · exact absurd found (by simp)
  | assignBinding name value =>
      simp only [step] at found
      split at found
      · rename_i id meaning
        rcases List.mem_append.mp found with access | immutable
        · rcases List.mem_append.mp access with reads | writes
          · exact .of_exprReads reads
          · exact .write meaning writes
        · split at immutable
          · exact absurd immutable (by simp)
          · rw [List.mem_singleton.mp immutable]
            exact .immutable name
      · exact absurd found (by simp)
  | assignThrough reference value => exact .of_exprReads found
  | readBinding name =>
      simp only [step] at found
      split at found
      · exact .read found
      · exact absurd found (by simp)
  | readThrough path =>
      cases path with
      | deref name => exact absurd found (by simp [step])
      | borrow name =>
          simp only [step] at found
          split at found
          · rename_i id meaning
            exact .borrowed meaning found
          · exact absurd found (by simp)
  | enterScope => exact absurd found (by simp [step])
  | exitScope =>
      simp only [step] at found
      split at found
      · exact .destroyed found
      · exact absurd found (by simp)

end State

/-! ## Violations fit their places -/

end Checker

/-- The parts of a violation agree with each other and with the statement at which it is reported.
At the end of the program there is no statement. -/
def Violation.Fits (place : Option Action) : Violation → Prop
  | .exclusivity binding requested reference held holders =>
      NamesHolders held holders ∧ (requested = .shared → held = .exclusive) ∧
        (reference = none → requested = .shared ∧ place = some (.readThrough (.borrow binding)))
  | .ownerAccess binding access held holders =>
      NamesHolders held holders ∧ (access = .read → held = .exclusive) ∧
        (access = .write → ∃ value, place = some (.assignBinding binding value))
  | .danglingReferent _ references => references ≠ []
  | _ => True

/-- Whether a violation is a write by the owner. -/
def Violation.isOwnerWrite : Violation → Bool
  | .ownerAccess _ .write _ _ => true
  | _ => false

/-- Whether a diagnostic reports, at the statement with the given index, a write by the owner. -/
def Diagnostic.isOwnerWriteAt (index : Nat) (diagnostic : Diagnostic) : Bool :=
  diagnostic.violation.isOwnerWrite && diagnostic.index == index

/-- The names that the message of a violation lists. -/
def Violation.listedNames : Violation → Option (List String)
  | .exclusivity _ _ _ _ holders => some holders
  | .ownerAccess _ _ _ holders => some holders
  | .danglingReferent _ references => some references
  | _ => none

theorem Violation.Fits.listedNames_ne_nil {violation : Violation} {place : Option Action}
    (fits : violation.Fits place) {names : List String}
    (listed : violation.listedNames = some names) : names ≠ [] := by
  cases violation with
  | exclusivity binding requested reference held holders =>
      obtain rfl : holders = names := Option.some.inj listed
      exact fits.1.nonempty
  | ownerAccess binding access held holders =>
      obtain rfl : holders = names := Option.some.inj listed
      exact fits.1.nonempty
  | danglingReferent binding references =>
      obtain rfl : references = names := Option.some.inj listed
      exact fits
  | immutableAssignment | unsupportedMode | malformedProgram =>
      exact absurd listed (by simp [listedNames])

namespace Checker

variable {state : State} {violation : Violation} {action : Action}

/-- A binding is reported under the name that means it. -/
theorem Invariant.bindingName_of_binding? (coherent : Coherent state) {name : String}
    {id : BindingId} (meaning : state.binding? name = some id) : state.bindingName id = name := by
  obtain ⟨frame, inside, found⟩ :=
    Scopes.exists_frame_of_lookup (State.binding?_eq_some_iff.mp meaning)
  rw [State.bindingName, coherent.binding_named inside (mem_of_lookup found)]
  rfl

/-- A refused request is reported with the loans that stand in its way. -/
theorem fits_of_refusal {place : Option Action} {binding : BindingId} {holder : Holder}
    {kind : BorrowKind} {refusal : Conflict} (settled : (state.loans.state binding).Settled)
    (refused : state.loans.acquire binding holder kind = .error refusal)
    (asking : Option ReferenceId)
    (anonymous : asking = none →
      kind = .shared ∧ place = some (.readThrough (.borrow (state.bindingName binding)))) :
    (state.conflict binding asking refusal).Fits place := by
  obtain ⟨answer, rfl⟩ := LoanTable.acquire_eq_error_iff.mp refused
  obtain ⟨held, lent, blocking⟩ := LoanState.exists_kind?_of_lend_eq_none answer
  have kinds : (Conflict.against kind (state.loans.state binding)).held = held := by
    rw [Conflict.against, lent]
    rfl
  refine ⟨?_, ?_, ?_⟩
  · rw [kinds]
    exact State.namesHolders settled lent
  · rw [kinds]
    exact blocking
  · intro unnamed
    exact anonymous (Option.map_eq_none_iff.mp unnamed)

theorem fits_of_mem_acquire {place : Option Action} {id : ReferenceId}
    (settled : ∀ binding, (state.loans.state binding).Settled)
    (found : violation ∈ (state.acquire id).2) : violation.Fits place := by
  unfold State.acquire at found
  split at found
  · exact absurd found (by simp)
  · split at found
    · exact absurd found (by simp)
    · rename_i reference _ refusal refused
      rw [List.mem_singleton.mp found]
      exact fits_of_refusal (settled _) refused (some id) (by simp)

theorem fits_of_mem_ownerAccess {id : BindingId} {access : Access} {place : Option Action}
    (settled : (state.loans.state id).Settled)
    (assigned : access = .write →
      ∃ value, place = some (.assignBinding (state.bindingName id) value))
    (found : violation ∈ state.ownerAccess id access) : violation.Fits place := by
  obtain ⟨held, lent, read, rfl⟩ := State.mem_ownerAccess found
  exact ⟨State.namesHolders settled lent, read, assigned⟩

/-- Destructions are reported with the references that are left to dangle. -/
theorem fits_of_mem_destroyAll {gone : List Entity} {place : Option Action}
    (found : violation ∈ (state.destroyAll gone).2) : violation.Fits place := by
  induction gone generalizing state with
  | nil => exact absurd found (by simp [State.destroyAll])
  | cons entity rest ih =>
      rw [State.snd_destroyAll_cons, List.mem_append] at found
      rcases found with here | later
      · cases entity with
        | reference id => exact absurd here (by simp [State.destroy])
        | binding id =>
            rw [State.snd_destroy_binding] at here
            split at here
            · exact absurd here (by simp)
            · rename_i held
              rw [List.mem_singleton.mp here]
              intro none
              exact held (by simpa using none)
      · exact ih later

/-- **What a statement reports fits the statement.** -/
theorem fits_of_mem_step (coherent : Coherent state) (found : violation ∈ (state.step action).2) :
    violation.Fits (some action) := by
  have settled := coherent.records.settled
  cases State.Reports.of_step found with
  | read here => exact fits_of_mem_ownerAccess (settled _) (by simp) here
  | @write name value id _ meaning here =>
      refine fits_of_mem_ownerAccess (settled id) ?_ here
      intro _
      exact ⟨value, by rw [coherent.bindingName_of_binding? meaning]⟩
  | immutable name => trivial
  | asked loans here =>
      refine fits_of_mem_acquire ?_ here
      intro binding
      rcases loans with same | ⟨given, holder, back⟩
      · rw [same]
        exact settled binding
      · rw [back, LoanTable.state_release]
        split
        · exact (settled given).giveBack holder
        · exact settled binding
  | @borrowed name id _ meaning here =>
      unfold State.temporaryRead at here
      split at here
      · exact absurd here (by simp)
      · rename_i refusal refused
        rw [List.mem_singleton.mp here]
        refine fits_of_refusal (settled id) refused none ?_
        intro _
        exact ⟨rfl, by rw [coherent.bindingName_of_binding? meaning]⟩
  | destroyed here => exact fits_of_mem_destroyAll here

/-! ## Writes are reported once -/

theorem isOwnerWrite_of_mem_ownerAccess_read {id : BindingId}
    (found : violation ∈ state.ownerAccess id .read) : violation.isOwnerWrite = false := by
  obtain ⟨held, -, -, rfl⟩ := State.mem_ownerAccess found
  rfl

/-- A write by the owner is reported at an assignment to a binding. -/
theorem exists_assignBinding_of_isOwnerWrite (coherent : Coherent state)
    (found : violation ∈ (state.step action).2) (write : violation.isOwnerWrite = true) :
    ∃ name value, action = .assignBinding name value := by
  have fits := fits_of_mem_step coherent found
  unfold Violation.isOwnerWrite at write
  split at write
  · rename_i binding held holders
    obtain ⟨value, place⟩ := fits.2.2 rfl
    exact ⟨binding, value, Option.some.inj place⟩
  · exact absurd write (by simp)

/-- A statement reports at most one write by an owner. -/
theorem countP_isOwnerWrite_step (coherent : Coherent state) (action : Action) :
    (state.step action).2.countP Violation.isOwnerWrite ≤ 1 := by
  by_cases writes : ∃ violation ∈ (state.step action).2, violation.isOwnerWrite = true
  · obtain ⟨violation, found, write⟩ := writes
    obtain ⟨name, value, rfl⟩ := exists_assignBinding_of_isOwnerWrite coherent found write
    simp only [State.step]
    split
    · rename_i id meaning
      -- The reads of the value and the report of an immutable binding do not count.
      have reads : (state.exprReads value (some id)).countP Violation.isOwnerWrite = 0 := by
        rw [List.countP_eq_zero]
        intro violation there
        obtain ⟨other, here⟩ := State.mem_exprReads there
        simp [isOwnerWrite_of_mem_ownerAccess_read here]
      have immutable : ∀ isMutable : Bool, List.countP Violation.isOwnerWrite
          (if isMutable then [] else [.immutableAssignment name]) = 0 := by
        intro isMutable
        cases isMutable <;> rfl
      have access : (state.ownerAccess id .write).length ≤ 1 := by
        unfold State.ownerAccess
        dsimp only
        split <;> simp
      rw [List.countP_append, List.countP_append, reads, immutable, Nat.zero_add, Nat.add_zero]
      exact Nat.le_trans List.countP_le_length access
    · simp
  · have none : (state.step action).2.countP Violation.isOwnerWrite = 0 := by
      rw [List.countP_eq_zero]
      intro violation found write
      exact writes ⟨violation, found, write⟩
    omega

/-- So does a run, at each of its statements. -/
theorem countP_isOwnerWrite_diagnosticsFrom (coherent : Coherent state) (first index : Nat)
    (statements : List Statement) :
    (diagnosticsFrom state first statements).countP (Diagnostic.isOwnerWriteAt index) ≤ 1 := by
  induction statements generalizing state first with
  | nil =>
      -- At the end references may dangle, and nothing is written.
      have none : (diagnosticsFrom state first []).countP
          (Diagnostic.isOwnerWriteAt index) = 0 := by
        rw [List.countP_eq_zero]
        intro diagnostic there
        obtain ⟨violation, found, rfl⟩ := List.mem_map.mp there
        have kind := kind_destroyAll found
        cases violation with
        | danglingReferent => exact Bool.false_ne_true
        | exclusivity | ownerAccess | immutableAssignment | unsupportedMode | malformedProgram =>
            exact absurd kind (by simp [Violation.kind])
      omega
  | cons statement rest ih =>
      have later := ih (coherent.step statement.action) (first + 1)
      rw [diagnosticsFrom, List.countP_append, List.countP_map]
      by_cases now : first = index
      · -- The statements that follow have greater indexes.
        have none : (diagnosticsFrom (state.step statement.action).1 (first + 1) rest).countP
            (Diagnostic.isOwnerWriteAt index) = 0 := by
          rw [List.countP_eq_zero]
          intro diagnostic there
          have bounds := (diagnosticsFrom_inOrder _ _ rest).bounded diagnostic there
          have different : diagnostic.index ≠ index := by omega
          simp [Diagnostic.isOwnerWriteAt, different]
        rw [none, Nat.add_zero]
        refine Nat.le_trans (List.countP_mono_left ?_) (countP_isOwnerWrite_step coherent _)
        intro violation _ both
        exact (Bool.and_eq_true_iff.mp both).1
      · have none : (state.step statement.action).2.countP
            (Diagnostic.isOwnerWriteAt index ∘ fun violation =>
              { violation, position := some (.statement first statement.span) }) = 0 := by
          rw [List.countP_eq_zero]
          intro violation _
          simp [Diagnostic.isOwnerWriteAt, Diagnostic.index, Position.statement, now]
        rw [none, Nat.zero_add]
        exact later

end Checker

namespace Program

open Checker

variable {program : Program}

/-- Every diagnostic of a program fits its place. -/
theorem fits_of_mem_analyze {diagnostic : Diagnostic}
    (reported : diagnostic ∈ program.analyze .lexical) :
    ∃ index, diagnostic.position = some (program.position index) ∧
      diagnostic.violation.Fits program.actions[index]? := by
  by_cases valid : program.errors = []
  · rw [analyze_of_valid valid, walk, mem_diagnosticsFrom_iff] at reported
    simp only [Nat.zero_add] at reported
    rcases reported with ⟨index, statement, here, placed, found⟩ | ⟨placed, found⟩
    · refine ⟨index, ?_, ?_⟩
      · simp only [placed, position, here]
      · rw [actions, List.getElem?_map, here]
        exact fits_of_mem_step (coherent_stateAfter _) found
    · refine ⟨program.statements.length, ?_, ?_⟩
      · simp [placed, position]
      · exact fits_of_mem_destroyAll found
  · rw [analyze_of_errors valid] at reported
    obtain ⟨error, -, rfl⟩ := List.mem_map.mp reported
    exact ⟨error.index, rfl, trivial⟩

theorem countP_isOwnerWrite_analyze (program : Program) (index : Nat) :
    (program.analyze .lexical).countP (Diagnostic.isOwnerWriteAt index) ≤ 1 := by
  by_cases valid : program.errors = []
  · rw [analyze_of_valid valid]
    exact countP_isOwnerWrite_diagnosticsFrom coherent_init 0 index program.statements
  · rw [analyze_of_errors valid, List.countP_map]
    simp [Function.comp_def, Diagnostic.isOwnerWriteAt, Violation.isOwnerWrite]

/-- **The laws of reports**: how the parts of each violation that is reported agree. -/
structure ConsistentReports (program : Program) : Prop where
  /-- A refused request names those who stand in its way. Only an exclusive loan stands in the way
  of a shared one. -/
  refused : ∀ {binding requested reference held holders position},
    { violation := .exclusivity binding requested reference held holders, position } ∈
      program.analyze .lexical →
    NamesHolders held holders ∧ (requested = .shared → held = .exclusive)
  /-- A request without a reference is one for a shared loan, by a read that borrows the binding. -/
  unnamed : ∀ {binding requested held holders position},
    { violation := .exclusivity binding requested none held holders, position } ∈
      program.analyze .lexical →
    requested = .shared ∧ ∃ index, position = some (program.position index) ∧
      program.actions[index]? = some (.readThrough (.borrow binding))
  /-- An access by the owner names those to whom the binding is lent. Only an exclusive loan stands
  in the way of a read. -/
  accessed : ∀ {binding access held holders position},
    { violation := .ownerAccess binding access held holders, position } ∈ program.analyze .lexical →
    NamesHolders held holders ∧ (access = .read → held = .exclusive)
  /-- A destruction names those that are left to dangle. -/
  destroyed : ∀ {binding references position},
    { violation := .danglingReferent binding references, position } ∈ program.analyze .lexical →
    references ≠ []
  /-- No message speaks of a temporary borrow where it would list names. -/
  quoted : ∀ diagnostic ∈ program.analyze .lexical, ∀ names,
    diagnostic.violation.listedNames = some names → quoteNames names ≠ "a temporary borrow"
  /-- At every statement at most one write by an owner is reported. -/
  one_write : ∀ index, (program.analyze .lexical).countP (Diagnostic.isOwnerWriteAt index) ≤ 1

/-- **Every report is consistent.** Whatever program is analysed, the kinds, the names and the place
of each diagnostic agree with each other, and its message never falls back on the phrase for no
names. -/
theorem reports_consistent (program : Program) : program.ConsistentReports where
  refused := by
    intro binding requested reference held holders position reported
    obtain ⟨_, -, names, blocking, -⟩ := fits_of_mem_analyze reported
    exact ⟨names, blocking⟩
  unnamed := by
    intro binding requested held holders position reported
    obtain ⟨index, placed, -, -, anonymous⟩ := fits_of_mem_analyze reported
    obtain ⟨shared, here⟩ := anonymous rfl
    exact ⟨shared, index, placed, here⟩
  accessed := by
    intro binding access held holders position reported
    obtain ⟨_, -, names, read, -⟩ := fits_of_mem_analyze reported
    exact ⟨names, read⟩
  destroyed := by
    intro binding references position reported
    obtain ⟨_, -, listed⟩ := fits_of_mem_analyze reported
    exact listed
  quoted := by
    intro diagnostic reported names listed phrase
    obtain ⟨_, -, fits⟩ := fits_of_mem_analyze reported
    exact fits.listedNames_ne_nil listed (quoteNames_eq_phrase_iff.mp phrase)
  one_write := program.countP_isOwnerWrite_analyze

end Program

/-- `let mut a; let mut c; let r = &mut a; let mut s = &c; let t = &c; read &a; let q = &mut c;
c = a; { let b; rebind s -> b; }`: `r` keeps readers away from `a`, `s` and `t` keep `q` and the
owner away from `c`, and `s` outlives `b`. -/
def crossed : Program where
  statements := [
    { action := .declareBinding "a" true "i32" none },
    { action := .declareBinding "c" true "i32" none },
    { action := .declareReference "r" .exclusive false "a" },
    { action := .declareReference "s" .shared true "c" },
    { action := .declareReference "t" .shared false "c" },
    { action := .readThrough (.borrow "a") },
    { action := .declareReference "q" .exclusive false "c" },
    { action := .assignBinding "c" (.var "a") },
    { action := .enterScope },
    { action := .declareBinding "b" false "i32" none },
    { action := .rebindReference "s" "b" },
    { action := .exitScope }]

/-- Each sort of report is made of this program, and they are consistent. -/
theorem Program.reports_consistent_crossed :
    (crossed.analyze .lexical).map (·.violation) = [
      .exclusivity "a" .shared none .exclusive ["r"],
      .exclusivity "c" .exclusive (some "q") .shared ["s", "t"],
      .ownerAccess "a" .read .exclusive ["r"],
      .ownerAccess "c" .write .shared ["s", "t"],
      .danglingReferent "b" ["s"]] ∧
    NamesHolders .exclusive ["r"] ∧
    (∃ index : Nat, crossed.actions[index]? = some (.readThrough (.borrow "a"))) ∧
    (crossed.analyze .lexical).countP (Diagnostic.isOwnerWriteAt 7) ≤ 1 := by
  have laws := Program.reports_consistent crossed
  have first : ⟨.exclusivity "a" .shared none .exclusive ["r"], some (crossed.position 5)⟩ ∈
      crossed.analyze .lexical := by decide
  obtain ⟨-, index, -, here⟩ := laws.unnamed first
  exact ⟨by decide, (laws.refused first).1, ⟨index, here⟩, laws.one_write 7⟩

end Lending
