import Lending.Proofs.Coherence
import Lending.Proofs.Evaluation
import Lending.Proofs.Runs

/-!
# Validation and the checker resolve names alike

Validation keeps for each name what it is declared as, the checker which entity it stands for. In a
valid program the two stacks differ by `declaredAs` only (`scopes_eq_map`), so a name that
validation accepts in some use is resolved by the checker as that use needs it
(`exists_binding?_of_use`, `exists_reference?_of_use`).
-/

namespace Lending

namespace Checker

/-- What validation takes an entity of the checker for. -/
def State.declaredAs (state : State) : Entity → Validation.Declared
  | .binding _ => .binding
  | .reference id => .reference (((state.identity id).map (·.2.1)).getD .shared)

/-! ## What a statement keeps -/

/-- A statement never changes the name, the kind or the mutability of a reference. -/
theorem identity_step {state : State} {id : ReferenceId} {known : String × BorrowKind × Bool}
    (before : state.identity id = some known) (action : Action) :
    (state.step action).1.identity id = some known := by
  have old : id ≠ state.references.size := by
    rintro rfl
    rw [State.identity_eq_none_iff.mpr (Nat.le_refl _)] at before
    exact absurd before (by simp)
  cases action with
  | declareBinding name isMutable tag init =>
      show (State.declare _ name _).identity id = _
      rw [State.identity_declare]
      exact before
  | declareReference name kind isMutable target =>
      simp only [State.step]
      split
      · rw [State.declareReference_eq]
        dsimp only
        rw [State.identity_declare, State.identity_acquire, State.identity_addReference, if_neg old]
        exact before
      · exact before
  | rebindReference name target =>
      simp only [State.step]
      split
      · rw [State.identity_rebind]
        exact before
      · exact before
  | assignBinding name value =>
      simp only [State.step]
      split <;> exact before
  | assignThrough reference value => exact before
  | readBinding name =>
      simp only [State.step]
      split <;> exact before
  | readThrough path =>
      cases path with
      | deref name => exact before
      | borrow name =>
          simp only [State.step]
          split
          · unfold State.temporaryRead
            split <;> exact before
          · exact before
  | enterScope => exact before
  | exitScope =>
      simp only [State.step]
      split
      · rw [State.identity_destroyAll]
        exact before
      · exact before

/-- A new reference is what it is declared as. -/
theorem identity_declareReference (state : State) (name : String) (kind : BorrowKind)
    (isMutable : Bool) (target : BindingId) :
    (state.declareReference name kind isMutable target).1.identity state.references.size =
      some (name, kind, isMutable) := by
  rw [State.declareReference_eq]
  dsimp only
  rw [State.identity_declare, State.identity_acquire, State.identity_addReference, if_pos rfl]

/-- Frames that were there look the same to validation after a statement. -/
theorem map_declaredAs_step {state : State} (coherent : Coherent state) (action : Action)
    {scopes : Scopes Entity} (there : ∀ frame ∈ scopes.frames, frame ∈ state.scopes.frames) :
    scopes.map (state.step action).1.declaredAs = scopes.map state.declaredAs := by
  apply Scopes.map_congr
  intro frame inside entry here
  obtain ⟨name, entity⟩ := entry
  cases entity with
  | binding id => rfl
  | reference id =>
      obtain ⟨ended, named⟩ := coherent.reference_named (there frame inside) here
      obtain ⟨reference, found, -, -⟩ := State.standing_eq_some_iff.mp named
      -- Validation sees the kind of a reference only, which no statement changes.
      have before : state.identity id =
          some (reference.name, reference.kind, reference.isMutable) := by
        rw [State.identity, found]
        rfl
      simp only [State.declaredAs, before, identity_step before action]

end Checker

/-! ## Uses that validation accepts -/

namespace Validation

open Checker

variable {names : Names} {state : State}

theorem lookup_of_use {name : String} {expected : Expected}
    (accepted : use names name expected = []) :
    match expected with
    | .binding => names.lookup name = some .binding
    | .reference => ∃ kind, names.lookup name = some (.reference kind) := by
  unfold use at accepted
  split at accepted
  · exact absurd accepted (by simp)
  · cases found : names.lookup name with
    | none =>
        rw [found] at accepted
        exact absurd accepted (by simp)
    | some declared =>
        rw [found] at accepted
        cases declared with
        | binding =>
            cases expected with
            | binding => rfl
            | reference => exact absurd accepted (by simp)
        | reference kind =>
            cases expected with
            | binding => exact absurd accepted (by simp)
            | reference => exact ⟨kind, rfl⟩

theorem exists_binding?_of_use (same : names = state.scopes.map state.declaredAs) {name : String}
    (accepted : use names name .binding = []) : ∃ id, state.binding? name = some id := by
  have found := lookup_of_use accepted
  dsimp only at found
  rw [same, Scopes.lookup_map, Option.map_eq_some_iff] at found
  obtain ⟨entity, meaning, declared⟩ := found
  cases entity with
  | binding id => exact ⟨id, State.binding?_eq_some_iff.mpr meaning⟩
  | reference id => exact absurd declared (by simp [State.declaredAs])

theorem exists_reference?_of_use (same : names = state.scopes.map state.declaredAs) {name : String}
    (accepted : use names name .reference = []) : ∃ id, state.reference? name = some id := by
  obtain ⟨kind, found⟩ := lookup_of_use accepted
  rw [same, Scopes.lookup_map, Option.map_eq_some_iff] at found
  obtain ⟨entity, meaning, declared⟩ := found
  cases entity with
  | binding id => exact absurd declared (by simp [State.declaredAs])
  | reference id => exact ⟨id, State.reference?_eq_some_iff.mpr meaning⟩

/-- A statement without defects uses each of its names as what it is declared as. -/
theorem use_eq_nil_of_mem_uses {action : Action} (accepted : (step names action).2 = [])
    {mention : NameUse} (used : mention ∈ action.uses) :
    use names mention.name (if mention.isDeref then .reference else .binding) = [] := by
  have each : ∀ {expr : Expr}, useAll names expr = [] → ∀ mention ∈ expr.names,
      use names mention.name (if mention.isDeref then .reference else .binding) = [] := by
    intro expr none mention there
    exact List.flatMap_eq_nil_iff.mp none mention there
  have written : ∀ {reference : String}, useToWrite names reference = [] →
      use names reference .reference = [] := by
    intro reference none
    unfold useToWrite at none
    split at none
    · exact absurd none (by simp)
    · exact none
  cases action with
  | declareBinding name isMutable tag init =>
      cases init with
      | none => exact absurd used (by simp [Action.uses])
      | some expr => exact each (List.append_eq_nil_iff.mp accepted).1 mention used
  | declareReference name kind isMutable target =>
      rw [Action.uses, List.mem_singleton] at used
      rw [used]
      exact (List.append_eq_nil_iff.mp accepted).1
  | rebindReference name target =>
      have both := List.append_eq_nil_iff.mp accepted
      rw [Action.uses, List.mem_cons, List.mem_singleton] at used
      rcases used with rfl | rfl
      · exact both.1
      · exact both.2
  | assignBinding name value =>
      have both := List.append_eq_nil_iff.mp accepted
      rcases List.mem_append.mp used with there | last
      · exact each both.1 mention there
      · rw [List.mem_singleton.mp last]
        exact both.2
  | assignThrough reference value =>
      have both := List.append_eq_nil_iff.mp accepted
      rcases List.mem_append.mp used with there | last
      · exact each both.1 mention there
      · rw [List.mem_singleton.mp last]
        exact written both.2
  | readBinding name =>
      rw [List.mem_singleton.mp used]
      exact accepted
  | readThrough path =>
      cases path with
      | deref name =>
          rw [List.mem_singleton.mp used]
          exact accepted
      | borrow name =>
          rw [List.mem_singleton.mp used]
          exact accepted
  | enterScope => exact absurd used (by simp [Action.uses])
  | exitScope => exact absurd used (by simp [Action.uses])

/-- A reference that validation lets be written through is exclusive. -/
theorem kind_of_useToWrite (same : names = state.scopes.map state.declaredAs) {name : String}
    (accepted : useToWrite names name = []) {id : ReferenceId}
    (found : state.reference? name = some id) {reference : Reference}
    (known : state.references[id]? = some reference) : reference.kind = .exclusive := by
  have declared : names.lookup name = some (.reference reference.kind) := by
    rw [same, Scopes.lookup_map, State.reference?_eq_some_iff.mp found]
    simp [State.declaredAs, State.identity, known]
  cases shared : reference.kind with
  | exclusive => rfl
  | shared =>
      rw [shared] at declared
      unfold useToWrite at accepted
      rw [declared] at accepted
      split at accepted
      · exact absurd accepted (by simp)
      · rename_i other
        exact (other accepted rfl).elim

theorem declare_of_nil {name : String} {declared : Declared}
    (accepted : (declare names name declared).2 = []) :
    (declare names name declared).1 = names.declare name declared := by
  unfold declare at accepted ⊢
  split
  · rename_i blank
    rw [if_pos blank] at accepted
    exact absurd accepted (by simp)
  · rfl

/-! ## The two stacks -/

/-- **A statement without defects keeps the stacks alike.** -/
theorem step_eq_map (coherent : Coherent state) (same : names = state.scopes.map state.declaredAs)
    {action : Action} (accepted : (step names action).2 = []) :
    (step names action).1 = (state.step action).1.scopes.map (state.step action).1.declaredAs := by
  have kept := map_declaredAs_step coherent action (fun _ inside => inside)
  have unchanged : (state.step action).1 = state →
      names = (state.step action).1.scopes.map (state.step action).1.declaredAs := by
    intro unmoved
    rw [unmoved]
    exact same
  cases action with
  | declareBinding name isMutable tag init =>
      have named := declare_of_nil (List.append_eq_nil_iff.mp accepted).2
      show (declare names name .binding).1 = _
      have scopes : (state.step (.declareBinding name isMutable tag init)).1.scopes =
          state.scopes.declare name (.binding state.bindings.size) :=
        state.declareBinding_scopes name isMutable
      rw [named, scopes, Scopes.map_declare, kept, same]
      rfl
  | declareReference name kind isMutable target =>
      have both := List.append_eq_nil_iff.mp accepted
      have named := declare_of_nil both.2
      obtain ⟨id, found⟩ := exists_binding?_of_use same both.1
      show (declare names name (.reference kind)).1 = _
      have stepped : (state.step (.declareReference name kind isMutable target)).1 =
          (state.declareReference name kind isMutable id).1 := by
        simp only [State.step, found]
      have scopes : (state.step (.declareReference name kind isMutable target)).1.scopes =
          state.scopes.declare name (.reference state.references.size) := by
        rw [stepped, State.declareReference_scopes]
      have new : (state.step (.declareReference name kind isMutable target)).1.declaredAs
          (.reference state.references.size) = .reference kind := by
        rw [stepped, State.declaredAs, identity_declareReference]
        rfl
      rw [named, scopes, Scopes.map_declare, kept, new, same]
  | rebindReference name target =>
      have scopes : (state.step (.rebindReference name target)).1.scopes = state.scopes := by
        simp only [State.step]
        split
        · rw [State.rebind_scopes]
        · rfl
      rw [scopes, kept]
      exact same
  | assignBinding name value => exact unchanged (coherent.step_of_isAccess rfl)
  | assignThrough reference value => exact unchanged (coherent.step_of_isAccess rfl)
  | readBinding name => exact unchanged (coherent.step_of_isAccess rfl)
  | readThrough path =>
      have named : (step names (.readThrough path)).1 = names := by
        cases path <;> rfl
      rw [named]
      exact unchanged (coherent.step_of_isAccess rfl)
  | enterScope =>
      show names.enter = _
      rw [same, ← Scopes.map_enter]
      rfl
  | exitScope =>
      rw [step] at accepted ⊢
      rw [same, Scopes.exit?_map] at accepted ⊢
      cases found : state.scopes.exit? with
      | none =>
          rw [found] at accepted
          exact absurd accepted (by simp)
      | some closed =>
          obtain ⟨frame, next, outer, stack, rfl⟩ := Scopes.frames_of_exit? found
          -- The frames that stay open were there before the exit.
          have left := map_declaredAs_step coherent .exitScope
            (show ∀ frame' ∈ ({ frames := next :: outer } : Scopes Entity).frames,
              frame' ∈ state.scopes.frames by
                intro frame' inside
                rw [stack]
                exact List.mem_cons_of_mem _ inside)
          have scopes : (state.step .exitScope).1.scopes = { frames := next :: outer } := by
            rw [step_exitScope stack, State.destroyAll_scopes]
          rw [scopes, left]
          rfl

/-- **Validation and the checker resolve names alike** after any statements without errors. -/
theorem scopes_eq_map {actions : List Action} (valid : errorsFrom .root 0 actions = []) :
    namesAfter .root actions =
      (stateAfter {} actions).scopes.map (stateAfter {} actions).declaredAs := by
  induction actions using List.reverseRecOn with
  | nil => rfl
  | append_singleton before action ih =>
      obtain ⟨valid, accepted⟩ := defects_eq_nil valid
      rw [namesAfter_snoc, stateAfter_snoc]
      exact step_eq_map (coherent_stateAfter before) (ih valid) accepted

end Validation

end Lending
