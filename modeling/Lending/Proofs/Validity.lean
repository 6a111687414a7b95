import Lending.Proofs.Evaluation
import Lending.Proofs.Lexical
import Lending.Proofs.Runs

/-!
# Validation is lexical scoping

Which errors a program has, said of its statements alone: each name that a statement uses is
resolved to the most recent declaration in a scope that is still open, and has to be what it is used
as (`useDefects`); a statement may have a defect of its own besides (`ownDefects`). The walk of
validation keeps a stack of frames, goes on after errors and declares references whose target is
unknown. It finds exactly these errors, in any program (`Program.errors_lexical`):

* **names** — the stack holds for each open declaration what it declares its name as
  (`namesAfter_take`), so that it finds what the name resolves to;
* **statements** — the defects of one statement, use by use (`bare_step`), and so those of all.
-/

namespace Lending

/-- The defect without the names that it suggests. -/
def Defect.bare : Defect → Defect
  | .unknownName name _ => .unknownName name []
  | defect => defect

/-- The error without the names that it suggests. -/
def ProgramError.bare (error : ProgramError) : ProgramError :=
  { error with defect := error.defect.bare }

namespace Lexical

open Validation (Declared Names)

/-- What an action declares its name as, if it declares one. -/
def sortOf : Action → Declared
  | .declareReference _ kind _ _ => .reference kind
  | _ => .binding

/-- What the statement at `index` declares its name as. -/
def sortAt (actions : List Action) (index : Nat) : Declared :=
  (actions[index]?.map sortOf).getD .binding

/-- What a name that is used at `index` is declared as. -/
def meaning (actions : List Action) (index : Nat) (name : String) : Option Declared :=
  (resolve actions index name).map (sortAt actions)

/-- The defects of one use of a name by the statement at `index`. -/
def useDefects (actions : List Action) (index : Nat) (mention : NameUse) : List Defect :=
  if Text.isBlank mention.name then [.emptyIdentifier]
  else match meaning actions index mention.name with
    | none => [.unknownName mention.name []]
    | some .binding => if mention.isDeref then [.notAReference mention.name] else []
    | some (.reference _) => if mention.isDeref then [] else [.notABinding mention.name]

/-- The defects that the statement at `index` has besides those of the names that it uses. -/
def ownDefects (actions : List Action) (index : Nat) : Action → List Defect
  | .declareBinding name _ _ _ => if Text.isBlank name then [.emptyIdentifier] else []
  | .declareReference name _ _ _ => if Text.isBlank name then [.emptyIdentifier] else []
  | .assignThrough reference _ =>
      if meaning actions index reference = some (.reference .shared) then
        [.writeThroughShared reference]
      else []
  | .exitScope => if depthAt actions index = 0 then [.unbalancedScope] else []
  | _ => []

/-- The defects of the statement at `index`, in the order in which it uses its names. -/
def defects (actions : List Action) (index : Nat) (action : Action) : List Defect :=
  action.uses.flatMap (useDefects actions index) ++ ownDefects actions index action

/-- The errors of the statements, in their order. -/
def errors (actions : List Action) : List ProgramError :=
  actions.zipIdx.flatMap fun (action, index) =>
    (defects actions index action).map fun defect => { index, defect }

end Lexical

namespace Validation

open Lexical

/-! ## Names -/

theorem fst_declare (names : Names) (name : String) (declared : Declared) :
    (declare names name declared).1 =
      if Text.isBlank name then names else names.declare name declared := by
  unfold declare
  split <;> rfl

theorem snd_declare (names : Names) (name : String) (declared : Declared) :
    (declare names name declared).2 = if Text.isBlank name then [.emptyIdentifier] else [] := by
  unfold declare
  split <;> rfl

/-- A statement without defects declares no blank name. -/
theorem not_isBlank_of_declaredName {names : Names} {action : Action} {name : String}
    (accepted : (step names action).2 = []) (declared : action.declaredName = some name) :
    Text.isBlank name = false := by
  have visible : ∀ {sort : Declared}, (declare names name sort).2 = [] →
      Text.isBlank name = false := by
    intro sort none
    rw [snd_declare] at none
    simpa using none
  cases action with
  | declareBinding other isMutable tag init =>
      obtain rfl : other = name := Option.some.inj declared
      exact visible (List.append_eq_nil_iff.mp accepted).2
  | declareReference other kind isMutable target =>
      obtain rfl : other = name := Option.some.inj declared
      exact visible (List.append_eq_nil_iff.mp accepted).2
  | rebindReference | assignBinding | assignThrough | readBinding | readThrough | enterScope
  | exitScope => exact absurd declared (by simp [Action.declaredName])

/-- **A statement changes the stack of validation as it changes any**, whether it has defects or
not. -/
theorem fst_step (names : Names) (action : Action) :
    (step names action).1 = names.pass action (sortOf action) := by
  cases action with
  | declareBinding name isMutable tag init =>
      rw [Scopes.pass_of_declaredName rfl]
      exact fst_declare names name .binding
  | declareReference name kind isMutable target =>
      rw [Scopes.pass_of_declaredName rfl]
      exact fst_declare names name (.reference kind)
  | readThrough path => cases path <;> rfl
  | exitScope =>
      simp only [step, Scopes.pass]
      cases names.exit? <;> rfl
  | rebindReference | assignBinding | assignThrough | readBinding | enterScope => rfl

/-- The stack of validation after any statements of any program. -/
theorem namesAfter_take {actions : List Action} {count : Nat} (bound : count ≤ actions.length) :
    namesAfter .root (actions.take count) = (scopesAt actions count).map (sortAt actions) := by
  refine eq_map_scopesAt (fun count => namesAfter .root (actions.take count)) rfl ?_ bound
  intro index action before here
  have sort : sortAt actions index = sortOf action := by
    rw [sortAt, here]
    rfl
  show namesAfter .root (actions.take (index + 1)) = _
  rw [take_succ_of_getElem? here, namesAfter_snoc, fst_step, sort]

/-! ## Statements -/

variable {actions : List Action} {names : Names} {index : Nat}

theorem lookup_eq_meaning (same : names = (scopesAt actions index).map (sortAt actions))
    (name : String) : names.lookup name = meaning actions index name := by
  rw [same, Scopes.lookup_map, lookup_scopesAt]
  rfl

/-- Only names that are not blank are declared. -/
theorem not_isBlank_of_meaning {name : String} {declared : Declared}
    (found : meaning actions index name = some declared) : Text.isBlank name = false := by
  obtain ⟨statement, resolved, -⟩ := Option.map_eq_some_iff.mp found
  obtain ⟨action, -, declares⟩ :=
    Option.bind_eq_some_iff.mp (resolve_eq_some_iff.mp resolved).declared
  obtain ⟨-, visible⟩ := Option.filter_eq_some_iff.mp declares
  simpa using visible

theorem bare_use (same : names = (scopesAt actions index).map (sortAt actions))
    (mention : NameUse) :
    (use names mention.name (if mention.isDeref then .reference else .binding)).map Defect.bare =
      useDefects actions index mention := by
  obtain ⟨name, isDeref⟩ := mention
  simp only [use, useDefects, lookup_eq_meaning same]
  split
  · rfl
  · cases meaning actions index name with
    | none => rfl
    | some declared => cases declared <;> cases isDeref <;> rfl

theorem bare_useAll (same : names = (scopesAt actions index).map (sortAt actions)) (expr : Expr) :
    (useAll names expr).map Defect.bare = expr.names.flatMap (useDefects actions index) := by
  rw [useAll, List.map_flatMap]
  exact List.flatMap_congr fun mention _ => bare_use same mention

/-- A name that resolves is not blank, so that an assignment through a shared reference has no other
defect of that name. -/
theorem bare_useToWrite (same : names = (scopesAt actions index).map (sortAt actions))
    (reference : String) (value : Expr) :
    (useToWrite names reference).map Defect.bare =
      useDefects actions index ⟨reference, true⟩ ++
        ownDefects actions index (.assignThrough reference value) := by
  have used := bare_use same ⟨reference, true⟩
  by_cases shared : meaning actions index reference = some (.reference .shared)
  · have accepted : use names reference .reference = [] := by
      simp [use, not_isBlank_of_meaning shared, lookup_eq_meaning same, shared]
    rw [← used]
    simp [useToWrite, accepted, lookup_eq_meaning same, shared, ownDefects, Defect.bare]
  · have unchanged : useToWrite names reference = use names reference .reference := by
      rw [useToWrite, lookup_eq_meaning same]
      split
      · rename_i found
        exact absurd found shared
      · rfl
    rw [unchanged, ownDefects, if_neg shared, List.append_nil]
    exact used

/-- The frames of validation leave room for an exit unless the depth is zero. -/
theorem exit?_eq_none_iff (same : names = (scopesAt actions index).map (sortAt actions)) :
    names.exit? = none ↔ depthAt actions index = 0 := by
  rw [same, Scopes.exit?_map, Option.map_eq_none_iff, scopesAt]
  cases depthAt actions index with
  | zero => simp [framesBelow, Scopes.exit?]
  | succ depth => simp [framesBelow_succ, Scopes.exit?]

/-- **The defects of a statement**, without suggestions, are those of lexical scoping. -/
theorem bare_step (same : names = (scopesAt actions index).map (sortAt actions)) (action : Action) :
    (step names action).2.map Defect.bare = defects actions index action := by
  have blank : ∀ name declared, (declare names name declared).2.map Defect.bare =
      if Text.isBlank name then [.emptyIdentifier] else [] := by
    intro name declared
    rw [snd_declare]
    split <;> rfl
  have binding : ∀ name, (use names name .binding).map Defect.bare =
      useDefects actions index ⟨name, false⟩ := fun name => bare_use same ⟨name, false⟩
  have reference : ∀ name, (use names name .reference).map Defect.bare =
      useDefects actions index ⟨name, true⟩ := fun name => bare_use same ⟨name, true⟩
  cases action with
  | declareBinding name isMutable tag init =>
      cases init with
      | none => exact blank name .binding
      | some expr =>
          show (useAll names expr ++ (declare names name .binding).2).map Defect.bare = _
          rw [List.map_append, bare_useAll same, blank]
          rfl
  | declareReference name kind isMutable target =>
      show (use names target .binding ++ (declare names name (.reference kind)).2).map _ = _
      rw [List.map_append, binding, blank]
      simp [defects, Action.uses, ownDefects]
  | rebindReference name target =>
      show (use names name .reference ++ use names target .binding).map _ = _
      rw [List.map_append, reference, binding]
      simp [defects, Action.uses, ownDefects]
  | assignBinding name value =>
      show (useAll names value ++ use names name .binding).map _ = _
      rw [List.map_append, bare_useAll same, binding]
      simp [defects, Action.uses, ownDefects]
  | assignThrough name value =>
      show (useAll names value ++ useToWrite names name).map _ = _
      rw [List.map_append, bare_useAll same, bare_useToWrite same name value]
      simp [defects, Action.uses]
  | readBinding name =>
      show (use names name .binding).map _ = _
      rw [binding]
      simp [defects, Action.uses, ownDefects]
  | readThrough path =>
      cases path with
      | deref name =>
          show (use names name .reference).map _ = _
          rw [reference]
          simp [defects, Action.uses, ownDefects]
      | borrow name =>
          show (use names name .binding).map _ = _
          rw [binding]
          simp [defects, Action.uses, ownDefects]
  | enterScope => rfl
  | exitScope =>
      simp only [step, defects, Action.uses, ownDefects, ← exit?_eq_none_iff same]
      cases names.exit? with
      | none => rfl
      | some closed => rfl

/-- The errors of the statements that are `left` after those that are `done`. -/
theorem bare_errorsFrom (done left : List Action) :
    (errorsFrom (namesAfter .root done) done.length left).map ProgramError.bare =
      (left.zipIdx done.length).flatMap fun (action, index) =>
        (defects (done ++ left) index action).map fun defect => { index, defect } := by
  induction left generalizing done with
  | nil => rfl
  | cons action rest ih =>
      -- The statements that are left do not change what the names mean before them.
      have names := namesAfter_take (show done.length ≤ (done ++ action :: rest).length by simp)
      rw [List.take_left] at names
      have here : (errorsFrom (namesAfter .root done) done.length (action :: rest)) =
          (step (namesAfter .root done) action).2.map
            (fun defect => { index := done.length, defect }) ++
          errorsFrom (namesAfter .root (done ++ [action])) (done ++ [action]).length rest := by
        rw [namesAfter_snoc, List.length_append]
        rfl
      have bare : ∀ found : List Defect,
          (found.map fun defect => ({ index := done.length, defect } : ProgramError)).map
            ProgramError.bare =
          (found.map Defect.bare).map fun defect => { index := done.length, defect } := by
        intro found
        rw [List.map_map, List.map_map]
        rfl
      rw [here, List.map_append, bare, bare_step names, ih, List.zipIdx_cons, List.flatMap_cons,
        List.append_assoc, List.length_append]
      rfl

end Validation

/-- **Validation implements lexical scoping exactly.** Up to suggestions, the errors of any program
are those of its names under lexical scoping and of its unmatched exits, in order, and it is valid
exactly if there are none. -/
theorem Program.errors_lexical (program : Program) :
    program.errors.map ProgramError.bare = Lexical.errors program.actions ∧
      (program.isValid = true ↔ Lexical.errors program.actions = []) := by
  have same : program.errors.map ProgramError.bare = Lexical.errors program.actions :=
    Validation.bare_errorsFrom [] program.actions
  refine ⟨same, ?_⟩
  rw [← same, List.map_eq_nil_iff, Program.isValid, List.isEmpty_iff]

/-- The unmatched exit closes nothing, and `r` is declared although its target is unknown. -/
example :
    Lexical.errors [.exitScope, .declareReference "r" .shared false "a", .readBinding "r",
      .enterScope, .declareBinding "r" false "i32" none, .exitScope, .readThrough (.deref "r")] =
    [⟨0, .unbalancedScope⟩, ⟨1, .unknownName "a" []⟩, ⟨2, .notABinding "r"⟩] := by
  decide

/-- Each name in an expression counts, from left to right and before the name that is assigned. -/
example :
    Lexical.errors [.declareBinding "a" true "i32" none, .declareReference "r" .shared false "a",
      .assignBinding "b" (.binary .add (.binary .mul (.var "x") (.deref "a"))
        (.binary .sub (.var "r") (.binary .add (.var "a") (.deref "r"))))] =
    [⟨2, .unknownName "x" []⟩, ⟨2, .notAReference "a"⟩, ⟨2, .notABinding "r"⟩,
      ⟨2, .unknownName "b" []⟩] := by
  decide

end Lending
