import Lending.Proofs.Storage
import Lending.Proofs.Validity

/-!
# Names that the machine cannot use

Validation goes through a whole program and collects what is wrong with its names. The machine stops
at the first name that does not stand for what is needed, if nothing else has stopped it before, and
to it a blank name is a name like all others. Still they find fault with the same name at the same
statement (`Program.name_faults_agree`), in any program:

* **lookups** — a computation of the machine looks up the names that it uses from left to right, and
  fails for want of a name at the first that does not resolve (`Consults`). Computations are put
  together (`Consults.bind`), and so expressions and statements are covered (`consults_step`);
* **one use** — a name that is not blank resolves in the machine exactly if validation finds nothing
  wrong with its use (`resolves_iff`);
* **the walk** — the statements that the machine gets through leave no wrong use of a name behind
  (`isNameDefect_eq_false_of_reached`).
-/

namespace Lending

open Checker Lexical

/-- The defect is that a name does not stand for what its use needs. -/
def Defect.isNameDefect : Defect → Bool
  | .unknownName _ _ => true
  | .notAReference _ => true
  | .notABinding _ => true
  | .writeThroughShared _ => false
  | .unbalancedScope => false
  | .emptyIdentifier => false

@[simp] theorem Defect.isNameDefect_bare (defect : Defect) :
    defect.bare.isNameDefect = defect.isNameDefect := by
  cases defect <;> rfl

@[simp] theorem Defect.name?_bare (defect : Defect) : defect.bare.name? = defect.name? := by
  cases defect <;> rfl

theorem Defect.bare_eq_emptyIdentifier_iff {defect : Defect} :
    defect.bare = .emptyIdentifier ↔ defect = .emptyIdentifier := by
  cases defect <;> simp [Defect.bare]

/-! ## Lookups -/

namespace Evaluation.Machine

variable {machine : Machine} {α β : Type}

/-- The first of the names that does not resolve is called `name`. -/
def FirstUnresolved (machine : Machine) (uses : List NameUse) (name : String) : Prop :=
  ∃ before mention after, uses = before ++ mention :: after ∧ mention.name = name ∧
    (∀ earlier ∈ before, machine.Resolves earlier) ∧ ¬ machine.Resolves mention

/-- The computation with the given result looks up the given names in this order. -/
structure Consults (machine : Machine) (uses : List NameUse) (result : Except Fault α) : Prop where
  resolve : ∀ {value}, result = .ok value → ∀ mention ∈ uses, machine.Resolves mention
  unknown : ∀ {name}, result = .error (.unknownName name) → machine.FirstUnresolved uses name

/-- **One computation after the other.** -/
theorem Consults.bind {uses more : List NameUse} {first : Except Fault α}
    {next : α → Except Fault β} (left : machine.Consults uses first)
    (right : ∀ value, machine.Consults more (next value)) :
    machine.Consults (uses ++ more) (first >>= next) := by
  constructor
  · intro result ran mention used
    obtain ⟨value, ran', ran''⟩ := bind_eq_ok_iff.mp ran
    rcases List.mem_append.mp used with used | used
    · exact left.resolve ran' mention used
    · exact (right value).resolve ran'' mention used
  · intro name failed
    rcases bind_eq_error_iff.mp failed with stuck | ⟨value, ran, stuck⟩
    · obtain ⟨before, mention, after, rfl, rest⟩ := left.unknown stuck
      exact ⟨before, mention, after ++ more, by simp, rest⟩
    · obtain ⟨before, mention, after, rfl, called, resolved, missing⟩ :=
        (right value).unknown stuck
      refine ⟨uses ++ before, mention, after, by simp, called, ?_, missing⟩
      intro earlier inside
      rcases List.mem_append.mp inside with inside | inside
      · exact left.resolve ran earlier inside
      · exact resolved earlier inside

/-- A computation that cannot fail for want of a name looks none up. -/
theorem Consults.silent {result : Except Fault α}
    (known : ∀ name, result ≠ .error (.unknownName name)) : machine.Consults [] result where
  resolve _ _ used := absurd used List.not_mem_nil
  unknown failed := absurd failed (known _)

theorem Consults.ok (value : α) : machine.Consults [] (.ok value) := by
  apply Consults.silent
  intro name impossible
  cases impossible

theorem Consults.single {mention : NameUse} {result : Except Fault α}
    (found : ∀ {value}, result = .ok value → machine.Resolves mention)
    (missing : ∀ {name}, result = .error (.unknownName name) →
      mention.name = name ∧ ¬ machine.Resolves mention) :
    machine.Consults [mention] result where
  resolve ran other used := by
    rw [List.mem_singleton.mp used]
    exact found ran
  unknown failed := by
    obtain ⟨called, unresolved⟩ := missing failed
    exact ⟨[], mention, [], rfl, called, by simp, unresolved⟩

theorem consults_bindingSlot (name : String) :
    machine.Consults [⟨name, false⟩] (machine.bindingSlot name) := by
  apply Consults.single
  · intro slot found
    exact ⟨slot, bindingSlot_eq_ok_iff.mp found⟩
  · intro unknown failed
    refine ⟨(Fault.unknownName.inj (bindingSlot_error failed)).symm, ?_⟩
    intro resolves
    obtain ⟨slot, found⟩ := resolves.bindingSlot
    rw [found] at failed
    cases failed

theorem consults_referenceId (inRange : machine.InRange) (name : String) :
    machine.Consults [⟨name, true⟩] (machine.referenceId name) := by
  apply Consults.single
  · intro id found
    exact ⟨id, _, referenceId_eq_ok_iff.mp found,
      Array.getElem?_eq_getElem (inRange.lt_of_referenceId found)⟩
  · intro unknown failed
    refine ⟨(Fault.unknownName.inj (referenceId_error failed)).symm, ?_⟩
    intro resolves
    obtain ⟨id, found⟩ := resolves.referenceId
    rw [found] at failed
    cases failed

theorem consults_derefSlot (name : String) :
    machine.Consults [⟨name, true⟩] (machine.derefSlot name) := by
  apply Consults.single
  · intro slot led
    obtain ⟨id, meaning, points, -⟩ := derefSlot_eq_ok_iff.mp led
    exact ⟨id, slot, meaning, points⟩
  · intro unknown failed
    refine ⟨?_, fun resolves => resolves.derefSlot_ne unknown failed⟩
    unfold derefSlot at failed
    split at failed
    · rename_i fault missing
      rw [referenceId_error missing] at failed
      exact Fault.unknownName.inj (Except.error.inj failed)
    · split at failed
      · exact Fault.unknownName.inj (Except.error.inj failed)
      · split at failed <;> cases failed

theorem consults_load (slot : Nat) : machine.Consults [] (machine.load slot) := by
  apply Consults.silent
  intro name failed
  obtain ⟨_, impossible⟩ := load_error failed
  cases impossible

theorem consults_arithmetic (op : BinOp) (lhs rhs : Word) :
    machine.Consults [] (arithmetic op lhs rhs) := by
  apply Consults.silent
  intro name failed
  cases arithmetic_error failed

/-- **Expressions look their names up from left to right.** -/
theorem consults_eval (expr : Expr) : machine.Consults expr.names (machine.eval expr) := by
  induction expr with
  | int value => exact Consults.ok value
  | var name =>
      rw [eval_var]
      exact (consults_bindingSlot name).bind consults_load
  | deref name =>
      rw [eval_deref]
      exact (consults_derefSlot name).bind consults_load
  | binary op lhs rhs left right =>
      have operands := left.bind fun first => right.bind fun second =>
        consults_arithmetic op first second
      rw [List.append_nil] at operands
      rw [eval_binary]
      exact operands

/-- **Statements look up the names that they use, in order.** -/
theorem consults_step (inRange : machine.InRange) (action : Action) :
    machine.Consults action.uses (machine.step action) := by
  cases action with
  | declareBinding name isMutable tag init =>
      cases init with
      | none => exact Consults.ok _
      | some expr =>
          have evaluated : machine.Consults (expr.names ++ [])
              (machine.step (.declareBinding name isMutable tag (some expr))) :=
            (consults_eval expr).bind fun value => Consults.ok _
          rw [List.append_nil] at evaluated
          exact evaluated
  | declareReference name kind isMutable target =>
      exact (consults_bindingSlot target).bind fun slot => Consults.ok _
  | rebindReference name target =>
      exact (consults_referenceId inRange name).bind fun id =>
        (consults_bindingSlot target).bind fun slot => Consults.ok _
  | assignBinding name expr =>
      exact (consults_eval expr).bind fun value =>
        (consults_bindingSlot name).bind fun slot => Consults.ok _
  | assignThrough name expr =>
      exact (consults_eval expr).bind fun value =>
        (consults_derefSlot name).bind fun slot => Consults.ok _
  | readBinding name => exact (consults_eval (.var name)).bind fun value => Consults.ok _
  | readThrough path =>
      cases path with
      | borrow name => exact (consults_eval (.var name)).bind fun value => Consults.ok _
      | deref name => exact (consults_eval (.deref name)).bind fun value => Consults.ok _
  | enterScope => exact Consults.ok _
  | exitScope =>
      simp only [step]
      cases machine.scopes.exit? with
      | none => exact Consults.ok _
      | some closed => exact Consults.ok _

end Evaluation.Machine

/-! ## One use of a name -/

namespace Lexical

variable {actions : List Action} {index : Nat} {mention : NameUse}

theorem useDefects_of_isBlank (blank : Text.isBlank mention.name = true) :
    useDefects actions index mention = [.emptyIdentifier] := by
  rw [useDefects, if_pos blank]

/-- A use of a name that is not blank has at most one defect, and that is about the name. -/
theorem exists_isNameDefect (named : Text.isBlank mention.name = false)
    (wrong : useDefects actions index mention ≠ []) :
    ∃ defect, useDefects actions index mention = [defect] ∧ defect.isNameDefect = true ∧
      defect.name? = some mention.name := by
  simp only [useDefects, named, Bool.false_eq_true, if_false] at wrong ⊢
  cases found : meaning actions index mention.name with
  | none => exact ⟨_, rfl, rfl, rfl⟩
  | some declared =>
      simp only [found] at wrong
      cases declared with
      | binding =>
          cases deref : mention.isDeref with
          | true => exact ⟨_, rfl, rfl, rfl⟩
          | false => exact absurd (by simp [deref]) wrong
      | reference kind =>
          cases deref : mention.isDeref with
          | true => exact absurd (by simp [deref]) wrong
          | false => exact ⟨_, rfl, rfl, rfl⟩

theorem isNameDefect_ownDefects {action : Action} {defect : Defect}
    (own : defect ∈ ownDefects actions index action) : defect.isNameDefect = false := by
  cases action with
  | declareBinding | declareReference | assignThrough | exitScope =>
      simp only [ownDefects] at own
      split at own
      · rw [List.mem_singleton.mp own]
        rfl
      · cases own
  | rebindReference | assignBinding | readBinding | readThrough | enterScope => cases own

end Lexical

namespace Evaluation

variable {actions : List Action} {count : Nat} {machine : Machine}

/-- **The machine can use a name exactly if validation finds nothing wrong with its use**, unless
the name is blank. -/
theorem resolves_iff (bound : count ≤ actions.length)
    (reached : machineAfter {} (actions.take count) = .ok machine) {mention : NameUse}
    (named : Text.isBlank mention.name = false) :
    machine.Resolves mention ↔ useDefects actions count mention = [] := by
  obtain ⟨name, isDeref⟩ := mention
  have found := lookup_of_reached bound reached named
  simp only [useDefects, named, Bool.false_eq_true, if_false, meaning, Machine.Resolves]
  cases resolved : resolve actions count name with
  | none =>
      rw [resolved, Option.map_none] at found
      cases isDeref <;> simp [found]
  | some declared =>
      rw [resolved, Option.map_some] at found
      obtain ⟨action, here, declares⟩ :=
        Option.bind_eq_some_iff.mp (resolve_eq_some_iff.mp resolved).declared
      cases action with
      | declareBinding =>
          rw [denotedAt, entityAt_of_getElem? here] at found
          cases isDeref <;> simp [found, sortAt, here, sortOf, Action.isReference, Entity.denoted]
      | declareReference other kind isMutable target =>
          rw [denotedAt, entityAt_of_getElem? here] at found
          have known := (inRange_of_reached reached).reference (Scopes.mem_flatMap_of_lookup found)
          cases isDeref with
          | false => simp [found, sortAt, here, sortOf, Action.isReference, Entity.denoted]
          | true =>
              refine iff_of_true ⟨_, _, found, Array.getElem?_eq_getElem known⟩ ?_
              simp [sortAt, here, sortOf]
      | rebindReference | assignBinding | assignThrough | readBinding | readThrough | enterScope
      | exitScope => exact absurd declares (by simp [Action.declares, Action.declaredName])

/-- A name that the machine can use is not wrong to use, though it may be blank. -/
theorem isNameDefect_eq_false_of_resolves (bound : count ≤ actions.length)
    (reached : machineAfter {} (actions.take count) = .ok machine) {mention : NameUse}
    (resolves : machine.Resolves mention) {defect : Defect}
    (found : defect ∈ useDefects actions count mention) : defect.isNameDefect = false := by
  cases blank : Text.isBlank mention.name with
  | true =>
      rw [useDefects_of_isBlank blank] at found
      rw [List.mem_singleton.mp found]
      rfl
  | false =>
      rw [(resolves_iff bound reached blank).mp resolves] at found
      cases found

/-! ## The walk -/

/-- The defects that validation finds in the statement after those that the machine got through. -/
theorem bare_step_of_getElem? {action : Action} (here : actions[count]? = some action) :
    (Validation.step (Validation.namesAfter .root (actions.take count)) action).2.map Defect.bare =
      defects actions count action := by
  have bound := (List.getElem?_eq_some_iff.mp here).1
  exact Validation.bare_step (Validation.namesAfter_take (Nat.le_of_lt bound)) action

/-- **A statement that the machine gets through** uses no name wrongly. -/
theorem isNameDefect_eq_false_of_step {action : Action} {result : Machine × Option Reading}
    (here : actions[count]? = some action)
    (reached : machineAfter {} (actions.take count) = .ok machine)
    (stepped : machine.step action = .ok result) {defect : Defect}
    (found : defect ∈
      (Validation.step (Validation.namesAfter .root (actions.take count)) action).2) :
    defect.isNameDefect = false := by
  have bound := Nat.le_of_lt (List.getElem?_eq_some_iff.mp here).1
  have resolve := (Machine.consults_step (inRange_of_reached reached) action).resolve stepped
  have listed : defect.bare ∈ defects actions count action := by
    rw [← bare_step_of_getElem? here]
    exact List.mem_map_of_mem found
  rw [← Defect.isNameDefect_bare]
  rcases List.mem_append.mp listed with ofUse | own
  · obtain ⟨mention, used, ofMention⟩ := List.mem_flatMap.mp ofUse
    exact isNameDefect_eq_false_of_resolves bound reached (resolve mention used) ofMention
  · exact isNameDefect_ownDefects own

/-- **The statements that the machine gets through** use no name wrongly. -/
theorem isNameDefect_eq_false_of_reached (bound : count ≤ actions.length)
    (reached : machineAfter {} (actions.take count) = .ok machine) {error : ProgramError}
    (found : error ∈ Validation.errorsFrom .root 0 (actions.take count)) :
    error.defect.isNameDefect = false := by
  induction count generalizing machine with
  | zero => cases found
  | succ count ih =>
      have here := List.getElem?_eq_getElem bound
      obtain ⟨before, reading, reached', stepped⟩ := exists_step_of_reached here reached
      rw [take_succ_of_getElem? here, Validation.errorsFrom_append] at found
      rcases List.mem_append.mp found with earlier | last
      · exact ih (by omega) reached' earlier
      · simp only [Validation.errorsFrom, List.append_nil, List.mem_map] at last
        obtain ⟨defect, there, rfl⟩ := last
        exact isNameDefect_eq_false_of_step here reached' stepped there

/-- The first name that does not resolve is the first that is used wrongly, unless it is blank. -/
theorem find?_defects_of_firstUnresolved {action : Action} {name : String}
    (bound : count ≤ actions.length)
    (reached : machineAfter {} (actions.take count) = .ok machine)
    (first : machine.FirstUnresolved action.uses name) (named : Text.isBlank name = false) :
    ∃ defect, (defects actions count action).find? Defect.isNameDefect = some defect ∧
      defect.name? = some name := by
  obtain ⟨before, mention, after, uses, rfl, resolved, missing⟩ := first
  obtain ⟨defect, only, wrong, called⟩ := exists_isNameDefect named
    (fun none => missing ((resolves_iff bound reached named).mpr none))
  refine ⟨defect, ?_, called⟩
  have silent : (before.flatMap (useDefects actions count)).find? Defect.isNameDefect = none := by
    rw [List.find?_eq_none]
    intro other ofUse
    obtain ⟨earlier, inside, found⟩ := List.mem_flatMap.mp ofUse
    rw [isNameDefect_eq_false_of_resolves bound reached (resolved earlier inside) found]
    exact Bool.false_ne_true
  rw [defects, uses, List.flatMap_append, List.flatMap_cons, only, List.find?_append,
    List.find?_append, silent, Option.none_or, List.find?_append, List.find?_singleton,
    if_pos wrong]
  rfl

end Evaluation

open Evaluation

variable {program : Program}

/-- The errors of a program up to a statement, of the statement and of those after it. -/
theorem Program.errors_eq_append {index : Nat} {action : Action}
    (here : program.actions[index]? = some action) :
    ∃ later, program.errors = Validation.errorsFrom .root 0 (program.actions.take index) ++
      ((Validation.step (Validation.namesAfter .root (program.actions.take index)) action).2.map
        (fun defect => ({ index, defect } : ProgramError)) ++ later) := by
  obtain ⟨bound, same⟩ := List.getElem?_eq_some_iff.mp here
  have split := Validation.errorsFrom_append .root 0 (program.actions.take index)
    (program.actions.drop index)
  rw [List.take_append_drop, List.drop_eq_getElem_cons bound, same, List.length_take_of_le
    (Nat.le_of_lt bound), Nat.zero_add, Validation.errorsFrom] at split
  exact ⟨_, split⟩

/-- A name that the machine cannot use is the first that validation finds used wrongly. -/
theorem Program.find?_errors_of_run_error {index : Nat} {name : String}
    (failed : program.run = .error ⟨index, .unknownName name⟩)
    (named : Text.isBlank name = false) :
    ∃ defect, program.errors.find? (·.defect.isNameDefect) = some ⟨index, defect⟩ ∧
      defect.name? = some name := by
  obtain ⟨machine, action, reached, here, stuck⟩ := Program.exists_step_of_run_error failed
  have bound := Nat.le_of_lt (List.getElem?_eq_some_iff.mp here).1
  have first := (Machine.consults_step (inRange_of_reached reached) action).unknown stuck
  obtain ⟨bare, found, called⟩ := find?_defects_of_firstUnresolved bound reached first named
  have ignored : Defect.isNameDefect ∘ Defect.bare = Defect.isNameDefect :=
    funext Defect.isNameDefect_bare
  rw [← bare_step_of_getElem? here, List.find?_map, ignored, Option.map_eq_some_iff] at found
  obtain ⟨defect, found, rfl⟩ := found
  rw [Defect.name?_bare] at called
  refine ⟨defect, ?_, called⟩
  obtain ⟨later, split⟩ := Program.errors_eq_append here
  have silent : (Validation.errorsFrom .root 0 (program.actions.take index)).find?
      (·.defect.isNameDefect) = none := by
    rw [List.find?_eq_none]
    intro error earlier
    rw [isNameDefect_eq_false_of_reached bound reached earlier]
    exact Bool.false_ne_true
  rw [split, List.find?_append, silent, Option.none_or, List.find?_append, List.find?_map]
  show ((List.find? Defect.isNameDefect _).map _).or _ = _
  rw [found]
  rfl

/-- A blank name that the machine cannot use is one to validation. -/
theorem Program.emptyIdentifier_of_run_error {index : Nat} {name : String}
    (failed : program.run = .error ⟨index, .unknownName name⟩) (blank : Text.isBlank name = true) :
    ⟨index, .emptyIdentifier⟩ ∈ program.errors := by
  obtain ⟨machine, action, reached, here, stuck⟩ := Program.exists_step_of_run_error failed
  obtain ⟨before, mention, after, uses, rfl, -⟩ :=
    (Machine.consults_step (inRange_of_reached reached) action).unknown stuck
  have listed : .emptyIdentifier ∈ defects program.actions index action := by
    rw [defects, uses, List.flatMap_append, List.flatMap_cons, useDefects_of_isBlank blank]
    simp
  rw [← bare_step_of_getElem? here] at listed
  obtain ⟨defect, found, bare⟩ := List.mem_map.mp listed
  obtain rfl := Defect.bare_eq_emptyIdentifier_iff.mp bare
  obtain ⟨later, split⟩ := Program.errors_eq_append here
  rw [split, List.mem_append, List.mem_append]
  exact .inr (.inl (List.mem_map_of_mem found))

/-- A program that the machine gets through uses no name wrongly. -/
theorem Program.isNameDefect_eq_false_of_run {trace : List Observation}
    (ran : program.run = .ok trace) {error : ProgramError} (found : error ∈ program.errors) :
    error.defect.isNameDefect = false := by
  obtain ⟨machine, reached⟩ := Evaluation.exists_machineAfter_of_runFrom ran
  have whole : program.actions.take program.actions.length = program.actions := List.take_length
  rw [← whole] at reached
  rw [Program.errors, ← whole] at found
  exact isNameDefect_eq_false_of_reached (Nat.le_refl _) reached found

/-- **The machine and validation find fault with the same names.** If the machine stops in any
program because it cannot use a name, then validation finds the name at that statement as the first
one that is unknown or of the wrong sort, or finds that a name there is blank if this one is. If the
machine gets through, no name of the program is unknown or of the wrong sort. -/
theorem Program.name_faults_agree (program : Program) :
    (∀ index name, program.run = .error ⟨index, .unknownName name⟩ → Text.isBlank name = false →
      program.isValid = false ∧
      ∃ defect, program.errors.find? (·.defect.isNameDefect) = some ⟨index, defect⟩ ∧
        defect.name? = some name) ∧
    (∀ index name, program.run = .error ⟨index, .unknownName name⟩ → Text.isBlank name = true →
      ⟨index, .emptyIdentifier⟩ ∈ program.errors) ∧
    (∀ trace, program.run = .ok trace →
      ∀ error ∈ program.errors, error.defect.isNameDefect = false) := by
  refine ⟨?_, ?_, ?_⟩
  · intro index name failed named
    obtain ⟨defect, found, called⟩ := Program.find?_errors_of_run_error failed named
    refine ⟨?_, defect, found, called⟩
    have listed := List.mem_of_find?_eq_some found
    rw [Program.isValid, List.isEmpty_eq_false_iff]
    exact List.ne_nil_of_mem listed
  · intro index name failed blank
    exact Program.emptyIdentifier_of_run_error failed blank
  · intro trace ran error found
    exact Program.isNameDefect_eq_false_of_run ran found

/-- `} { let  = 0; let r = &; } read ;`, where the binding has an empty name: the machine finds it
as long as its block is open. -/
def unspoken : Program where
  statements := [
    { action := .exitScope },
    { action := .enterScope },
    { action := .declareBinding "" false "i64" (some (.int default)) },
    { action := .declareReference "r" .shared false "" },
    { action := .exitScope },
    { action := .readBinding "" }]

/-- `} { let  = 0; let r = &; a =  + r; read b;`: of the names in the sum the machine can use the
first, which is blank, and not the second, which is a reference. -/
def misspoken : Program where
  statements := unspoken.statements.take 4 ++ [
    { action := .assignBinding "a" (.binary .add (.var "") (.var "r")) },
    { action := .readBinding "b" }]

/-- Before `r` validation has found an unmatched exit and three blank names, and after it `a` and
`b` are unknown too. -/
theorem Program.name_faults_agree_misspoken :
    misspoken.run = .error ⟨4, .unknownName "r"⟩ ∧ misspoken.errors.length = 7 ∧
    misspoken.isValid = false ∧
    (∃ defect, misspoken.errors.find? (·.defect.isNameDefect) = some ⟨4, defect⟩ ∧
      defect.name? = some "r") ∧
    unspoken.run = .error ⟨5, .unknownName ""⟩ ∧ ⟨5, .emptyIdentifier⟩ ∈ unspoken.errors ∧
    (unspoken.take 4).run = .ok [] ∧ (unspoken.take 4).errors ≠ [] ∧
    ∀ error ∈ (unspoken.take 4).errors, error.defect.isNameDefect = false := by
  have failed : misspoken.run = .error ⟨4, .unknownName "r"⟩ := by decide
  have failed' : unspoken.run = .error ⟨5, .unknownName ""⟩ := by decide
  have ran : (unspoken.take 4).run = .ok [] := by decide
  obtain ⟨invalid, found⟩ := (Program.name_faults_agree misspoken).1 4 "r" failed (by decide)
  have blank := (Program.name_faults_agree unspoken).2.1 5 "" failed' (by decide)
  have silent := (Program.name_faults_agree (unspoken.take 4)).2.2 [] ran
  exact ⟨failed, by decide, invalid, found, failed', blank, ran, by decide, silent⟩

end Lending
