import Lending.Proofs.Dangling
import Mathlib.Data.Nat.Init

/-!
# Destruction is complete and happens once

Entities are destroyed when a scope is left, and those that are still there when the program ends.
Here all calls of `destroy` on the walk through a program are listed (`Program.destructions`), and the
list is compared with the statements alone (`Program.destruction_complete`):

* **the text** — a declaration ends when its scope closes (`ClosesAt`), which happens once, and inner
  scopes close before outer ones (`ClosesAt.order`). So the declarations that end, statement by
  statement, form a list without repetitions and in a fixed order (`endings`);
* **the calls** — they are the endings, entity for declaration (`Program.map_destructions`), and the
  last one leaves the state in which the checker goes on (`State.after_destructions`);
* **the reports** — what is reported of dangling references is what the calls report
  (`Program.filter_analyze`), and a call reports who has a window on the binding and is not gone yet,
  in the order of the requests (`Program.Destroys.exists_lastHolders`);
* **the end** — the invariant of the checker, with all frames closed and all that stood in them
  destroyed, leaves no binding to be tracked and no reference that has not ended
  (`Invariant.finish`).
-/

namespace Lending

open Checker

/-! ## Where scopes close -/

namespace Lexical

/-- The scope in which the statement at `declared` stands closes after `count` statements: at the
statement that follows, or because there is none. -/
structure ClosesAt (actions : List Action) (declared count : Nat) : Prop where
  after : declared < count
  bound : count ≤ actions.length
  isOpen : StillOpen actions declared count
  closes : count = actions.length ∨ ¬StillOpen actions declared (count + 1)

/-- The statement at `inner` stands in the frame of that at `outer`, or in a frame within it: between
the two the depth is never smaller than at `outer`. -/
def Encloses (actions : List Action) (outer inner : Nat) : Prop :=
  ∀ between, min outer inner ≤ between → between ≤ max outer inner →
    depthAt actions outer ≤ depthAt actions between

/-- The declarations that are destroyed after `count` statements, in this order. -/
def destroyedAt (actions : List Action) (count : Nat) : List Nat :=
  match actions[count]? with
  | some .exitScope => Scopes.destructionOrder (frameAt actions count (depthAt actions count))
  | some _ => []
  | none => openAt actions count

variable {actions : List Action} {declared count count' : Nat}

theorem StillOpen.mono (isOpen : StillOpen actions declared count') (earlier : count ≤ count') :
    StillOpen actions declared count :=
  fun between last => isOpen between (Nat.le_trans last earlier)

theorem ClosesAt.le (closes : ClosesAt actions declared count)
    (closes' : ClosesAt actions declared count') : count ≤ count' := by
  by_contra later
  have bound := closes.bound
  rcases closes'.closes with last | closed
  · omega
  · exact closed (closes.isOpen.mono (by omega))

/-- A scope closes once. -/
theorem ClosesAt.unique (closes : ClosesAt actions declared count)
    (closes' : ClosesAt actions declared count') : count = count' :=
  Nat.le_antisymm (closes.le closes') (closes'.le closes)

/-- Only an exit makes the depth smaller. -/
theorem depthAt_le_succ {action : Action} (here : actions[count]? = some action)
    (stays : action ≠ .exitScope) : depthAt actions count ≤ depthAt actions (count + 1) := by
  rw [depthAt_succ here]
  cases action with
  | exitScope => exact absurd rfl stays
  | enterScope => exact Nat.le_succ _
  | declareBinding | declareReference | rebindReference | assignBinding | assignThrough
  | readBinding | readThrough => exact Nat.le_refl _

/-- Every scope closes. -/
theorem exists_closesAt {name : String} (declares : declaredAt actions declared = some name) :
    ∃ count, ClosesAt actions declared count := by
  obtain ⟨action, here, named⟩ := Option.bind_eq_some_iff.mp declares
  have bound := (List.getElem?_eq_some_iff.mp here).1
  have starts : StillOpen actions declared (declared + 1) := by
    refine (stillOpen_succ_iff (Nat.le_refl _)).mpr
      ⟨stillOpen_self actions declared, depthAt_le_succ here ?_⟩
    rintro rfl
    exact absurd named (by simp [Action.declares, Action.declaredName])
  -- The last number of statements after which the scope is open is the one looked for.
  have search : ∀ left count, count + left = actions.length → declared < count →
      StillOpen actions declared count → ∃ count, ClosesAt actions declared count := by
    intro left
    induction left with
    | zero => exact fun count last after isOpen => ⟨count, after, by omega, isOpen, .inl last⟩
    | succ left ih =>
        intro count last after isOpen
        by_cases next : StillOpen actions declared (count + 1)
        · exact ih (count + 1) (by omega) (by omega) next
        · exact ⟨count, after, by omega, isOpen, .inr next⟩
  exact search (actions.length - (declared + 1)) (declared + 1) (by omega) (by omega) starts

/-- **Inner scopes close first**, and of two declarations in one scope the newer one comes first. -/
theorem ClosesAt.order {outer inner : Nat} (encloses : Encloses actions outer inner)
    (within : depthAt actions outer < depthAt actions inner ∨ outer < inner)
    (closes : ClosesAt actions inner count) (closes' : ClosesAt actions outer count') :
    count < count' ∨ count = count' ∧ outer < inner := by
  by_cases newer : outer < inner
  · suffices notAfter : count ≤ count' by omega
    by_contra later
    have bound := closes.bound
    rcases closes'.closes with last | closed
    · omega
    · -- The depth falls below that of `outer`, which it cannot as long as `inner` is open.
      refine closed ((stillOpen_succ_iff (Nat.le_of_lt closes'.after)).mpr ⟨closes'.isOpen, ?_⟩)
      by_cases before : count' + 1 ≤ inner
      · have after := closes'.after
        exact encloses (count' + 1) (by omega) (by omega)
      · exact Nat.le_trans (encloses inner (by omega) (by omega))
          (closes.isOpen (count' + 1) (by omega) (by omega))
  · -- `inner` stands in front of `outer` and deeper, so its scope was left before `outer`.
    have deeper := within.resolve_right newer
    have early : count < outer := by
      by_contra late
      have reached := closes.isOpen outer (by omega) (by omega)
      omega
    have after := closes'.after
    omega

/-- **What is destroyed is what closes.** -/
theorem mem_destroyedAt (bound : count ≤ actions.length)
    (inside : actions[count]? = some .exitScope → 0 < depthAt actions count) :
    declared ∈ destroyedAt actions count ↔
      ClosesAt actions declared count ∧ ∃ name, declaredAt actions declared = some name := by
  unfold destroyedAt
  split
  · rename_i here
    have before := (List.getElem?_eq_some_iff.mp here).1
    simp only [Scopes.destructionOrder, List.mem_map, Prod.exists, exists_eq_right]
    constructor
    · rintro ⟨name, there⟩
      obtain ⟨after, isOpen, -, declares⟩ := mem_frameAt.mp there
      refine ⟨⟨after, bound, isOpen, .inr fun stays => ?_⟩, name, declares⟩
      have left := (exists_mem_frameAt_iff here (inside here) declares after isOpen).mp ⟨_, there⟩
      have reached := stays.depthAt_le (by omega)
      omega
    · rintro ⟨⟨after, -, isOpen, closes⟩, name, declares⟩
      rcases closes with last | closes
      · omega
      · refine (exists_mem_frameAt_iff here (inside here) declares after isOpen).mpr ?_
        rw [stillOpen_succ_iff (by omega)] at closes
        exact Nat.lt_of_not_le fun deep => closes ⟨isOpen, deep⟩
  · rename_i action stays here
    have before := (List.getElem?_eq_some_iff.mp here).1
    refine ⟨fun none => absurd none List.not_mem_nil, ?_⟩
    rintro ⟨⟨after, -, isOpen, closes⟩, -⟩
    have deep := isOpen.depthAt_le (Nat.le_of_lt after)
    have deeper := depthAt_le_succ here stays
    rcases closes with last | closes
    · omega
    · exact absurd ((stillOpen_succ_iff (by omega)).mpr ⟨isOpen, by omega⟩) closes
  · rename_i last
    have last := List.getElem?_eq_none_iff.mp last
    rw [mem_openAt]
    constructor
    · rintro ⟨after, isOpen, declares⟩
      exact ⟨⟨after, bound, isOpen, .inl (by omega)⟩, declares⟩
    · rintro ⟨closes, declares⟩
      exact ⟨closes.after, closes.isOpen, declares⟩

theorem destroyedAt_pairwise (actions : List Action) (count : Nat) :
    (destroyedAt actions count).Pairwise fun newer older => older < newer := by
  unfold destroyedAt
  split
  · exact List.pairwise_map.mpr (frameAt_pairwise actions count _)
  · exact List.Pairwise.nil
  · exact openAt_pairwise actions count

/-- **All destructions**: after how many statements, and of which declaration. -/
def endings (actions : List Action) : List (Nat × Nat) :=
  (List.range (actions.length + 1)).flatMap fun count =>
    (destroyedAt actions count).map fun declared => (count, declared)

/-- One destruction comes before another. -/
def Precedes (earlier later : Nat × Nat) : Prop :=
  earlier.1 < later.1 ∨ earlier.1 = later.1 ∧ later.2 < earlier.2

theorem endings_pairwise (actions : List Action) : (endings actions).Pairwise Precedes := by
  refine List.pairwise_flatMap.mpr ⟨fun count _ => ?_, ?_⟩
  · refine List.pairwise_map.mpr ((destroyedAt_pairwise actions count).imp ?_)
    exact fun newer => .inr ⟨rfl, newer⟩
  · refine List.pairwise_lt_range.imp fun before => ?_
    intro earlier there later there'
    obtain ⟨_, -, rfl⟩ := List.mem_map.mp there
    obtain ⟨_, -, rfl⟩ := List.mem_map.mp there'
    exact .inl before

theorem mem_endings
    (inside : ∀ {count}, actions[count]? = some .exitScope → 0 < depthAt actions count) :
    (count, declared) ∈ endings actions ↔
      ClosesAt actions declared count ∧ ∃ name, declaredAt actions declared = some name := by
  simp only [endings, List.mem_flatMap, List.mem_range, List.mem_map, Prod.mk.injEq]
  constructor
  · rintro ⟨_, bound, _, there, rfl, rfl⟩
    exact (mem_destroyedAt (Nat.le_of_lt_succ bound) inside).mp there
  · intro closes
    have bound := closes.1.bound
    exact ⟨count, by omega, declared, (mem_destroyedAt bound inside).mpr closes, rfl, rfl⟩

end Lexical

open Lexical

/-! ## Calls of `destroy` -/

namespace Checker

/-- A call of `State.destroy`: after how many statements it is made, in which state, and for what. -/
structure Destruction where
  count : Nat
  state : State
  entity : Entity

/-- What is reported of the destruction. -/
def Destruction.reports (call : Destruction) : List Violation :=
  (call.state.destroy call.entity).2

/-- The state that the destruction leaves. -/
def Destruction.after (call : Destruction) : State :=
  (call.state.destroy call.entity).1

namespace State

/-- The calls that `destroyAll` makes. -/
def destructions (state : State) (count : Nat) : List Entity → List Destruction
  | [] => []
  | entity :: rest => { count, state, entity } :: (state.destroy entity).1.destructions count rest

/-- The calls that a statement makes: a scope exit destroys what stands in the frame that it
closes. -/
def stepDestructions (state : State) (count : Nat) : Action → List Destruction
  | .exitScope =>
      match state.scopes.exit? with
      | some (entities, scopes) => { state with scopes }.destructions count entities
      | none => []
  | _ => []

/-- The calls that are made after the last statement. -/
def finishDestructions (state : State) (count : Nat) : List Destruction :=
  { state with scopes := state.scopes.finish.2 }.destructions count state.scopes.finish.1

theorem reports_destructions (state : State) (count : Nat) (gone : List Entity) :
    (state.destructions count gone).flatMap Destruction.reports = (state.destroyAll gone).2 := by
  induction gone generalizing state with
  | nil => rfl
  | cons entity rest ih => rw [destructions, List.flatMap_cons, ih, snd_destroyAll_cons]; rfl

/-- The state of `destroyAll` is that after the last call, or the first one if there is none. -/
theorem after_destructions (state : State) (count : Nat) (gone : List Entity) :
    ((state.destructions count gone).getLast?.map Destruction.after).getD state =
      (state.destroyAll gone).1 := by
  induction gone generalizing state with
  | nil => rfl
  | cons entity rest ih =>
      rw [destroyAll_cons, ← ih, destructions, List.getLast?_cons]
      cases ((state.destroy entity).1.destructions count rest).getLast? <;> rfl

theorem map_destructions (state : State) (count : Nat) (gone : List Entity) :
    (state.destructions count gone).map (fun call => (call.count, call.entity)) =
      gone.map fun entity => (count, entity) := by
  induction gone generalizing state with
  | nil => rfl
  | cons entity rest ih => rw [destructions, List.map_cons, ih, List.map_cons]

theorem exists_gone_of_mem_destructions {state : State} {count : Nat} {all : List Entity}
    {call : Destruction} (there : call ∈ state.destructions count all) :
    call.count = count ∧ ∃ gone left, all = gone ++ call.entity :: left ∧
      call.state = (state.destroyAll gone).1 := by
  induction all generalizing state with
  | nil => exact absurd there List.not_mem_nil
  | cons entity rest ih =>
      rcases List.mem_cons.mp there with rfl | later
      · exact ⟨rfl, [], rest, rfl, rfl⟩
      · obtain ⟨same, gone, left, rfl, reached⟩ := ih later
        exact ⟨same, entity :: gone, left, rfl, reached⟩

theorem mem_destructions (state : State) (count : Nat) (gone : List Entity) (entity : Entity)
    (left : List Entity) :
    { count, state := (state.destroyAll gone).1, entity } ∈
      state.destructions count (gone ++ entity :: left) := by
  induction gone generalizing state with
  | nil => exact List.mem_cons_self
  | cons first rest ih => exact List.mem_cons_of_mem _ (ih (state.destroy first).1)

theorem bindingName_destroyAll (state : State) (gone : List Entity) (id : BindingId) :
    (state.destroyAll gone).1.bindingName id = state.bindingName id := by
  rw [bindingName, destroyAll_bindings, bindingName]

theorem referenceName_eq (state : State) (id : ReferenceId) :
    state.referenceName id = ((state.identity id).map (·.1)).getD "" := by
  simp [referenceName, identity, Function.comp_def]

theorem referenceName_destroyAll (state : State) (gone : List Entity) (id : ReferenceId) :
    (state.destroyAll gone).1.referenceName id = state.referenceName id := by
  rw [referenceName_eq, identity_destroyAll, referenceName_eq]

end State

/-- The calls from the statement at `index` on. -/
def destructionsFrom (state : State) (index : Nat) : List Action → List Destruction
  | [] => state.finishDestructions index
  | action :: rest =>
      state.stepDestructions index action ++ destructionsFrom (state.step action).1 (index + 1) rest

end Checker

/-- **The calls of `destroy`** that the checker makes on its walk through a program. -/
def Program.destructions (program : Program) : List Destruction :=
  destructionsFrom {} 0 program.actions

namespace Checker

/-- Whether it is reported that references dangle. -/
def isDangling (violation : Violation) : Bool :=
  violation.kind == .danglingReferent

/-- What a statement reports of dangling references is what its destructions report. -/
theorem State.filter_step (state : State) (count : Nat) (action : Action) :
    (state.step action).2.filter isDangling =
      (state.stepDestructions count action).flatMap Destruction.reports := by
  by_cases exits : action = .exitScope
  · subst exits
    cases closed : state.scopes.exit? with
    | none => rw [step_exitScope_of_exit? closed, stepDestructions, closed]; rfl
    | some result =>
        obtain ⟨gone, outer⟩ := result
        simp only [step, stepDestructions, closed, reports_destructions, List.filter_eq_self]
        intro violation found
        exact beq_iff_eq.mpr (kind_destroyAll found)
  · have none : state.stepDestructions count action = [] := by
      cases action with
      | exitScope => exact absurd rfl exits
      | declareBinding | declareReference | rebindReference | assignBinding | assignThrough
      | readBinding | readThrough | enterScope => rfl
    rw [none, List.flatMap_nil, List.filter_eq_nil_iff]
    intro violation found kind
    exact exits (eq_exitScope_of_kind found (beq_iff_eq.mp kind))

theorem State.filter_finish (state : State) (count : Nat) :
    state.finish.2.filter isDangling =
      (state.finishDestructions count).flatMap Destruction.reports := by
  rw [finishDestructions, reports_destructions, List.filter_eq_self.mpr]
  · rfl
  · intro violation found
    exact beq_iff_eq.mpr (kind_destroyAll found)

end Checker

namespace Program

variable {program : Program} {count : Nat}

/-- The calls that are made after `count` statements, until the next one is taken. -/
def destructionsAt (program : Program) (count : Nat) : List Destruction :=
  match program.actions[count]? with
  | some action => (program.stateAt count).stepDestructions count action
  | none => (program.stateAt count).finishDestructions count

/-- What is reported of a call, with its place in the program. -/
def diagnosticsOf (program : Program) (call : Destruction) : List Diagnostic :=
  call.reports.map fun violation =>
    { violation, position := some (program.position call.count) }

theorem destructionsFrom_eq (bound : count ≤ program.actions.length) :
    destructionsFrom (program.stateAt count) count (program.actions.drop count) =
      (List.range' count (program.actions.length + 1 - count)).flatMap program.destructionsAt := by
  induction bound using Nat.decreasingInduction with
  | self =>
      simp [destructionsFrom, destructionsAt]
  | of_succ count before ih =>
      have here : program.actions[count]? = some program.actions[count] :=
        List.getElem?_eq_getElem before
      have more : program.actions.length + 1 - count =
          program.actions.length + 1 - (count + 1) + 1 := by omega
      rw [List.drop_eq_getElem_cons before, destructionsFrom, ← stateAt_succ here, ih, more,
        List.range'_succ, List.flatMap_cons, destructionsAt, here]

/-- **The calls, statement by statement.** -/
theorem destructions_eq (program : Program) :
    program.destructions =
      (List.range (program.actions.length + 1)).flatMap program.destructionsAt := by
  have all := destructionsFrom_eq (Nat.zero_le program.actions.length)
  rw [List.drop_zero, Nat.sub_zero, ← List.range_eq_range'] at all
  exact all

/-- A call after `count` statements is one that destroys its entity then. -/
theorem mem_destructionsAt_iff (bound : count ≤ program.actions.length) {call : Destruction} :
    call ∈ program.destructionsAt count ↔
      call.count = count ∧ program.Destroys count call.state call.entity := by
  constructor
  · intro there
    unfold destructionsAt at there
    split at there
    · rename_i action here
      unfold State.stepDestructions at there
      split at there
      · split at there
        · rename_i gone outer closed
          obtain ⟨same, gone, left, rfl, reached⟩ := State.exists_gone_of_mem_destructions there
          exact ⟨same, reached ▸ .leaving here closed⟩
        · exact absurd there List.not_mem_nil
      · exact absurd there List.not_mem_nil
    · rename_i last
      have last := List.getElem?_eq_none_iff.mp last
      obtain ⟨same, gone, left, all, reached⟩ := State.exists_gone_of_mem_destructions there
      exact ⟨same, reached ▸ .finishing (by omega) (Prod.ext all rfl)⟩
  · obtain ⟨count', state, entity⟩ := call
    rintro ⟨same, destroys⟩
    obtain rfl : count' = count := same
    replace destroys : program.Destroys count' state entity := destroys
    cases destroys with
    | @leaving gone left _ outer here closed =>
        simp only [destructionsAt, here, State.stepDestructions, closed]
        exact State.mem_destructions _ count' gone entity left
    | @finishing gone left _ outer last closed =>
        have none : program.actions[count']? = none := List.getElem?_eq_none (Nat.le_of_eq last)
        simp only [destructionsAt, none, State.finishDestructions, closed]
        exact State.mem_destructions _ count' gone entity left

/-- **The calls are all destructions** that the walk comes to. -/
theorem mem_destructions_iff {call : Destruction} :
    call ∈ program.destructions ↔ program.Destroys call.count call.state call.entity := by
  rw [destructions_eq, List.mem_flatMap]
  constructor
  · rintro ⟨count, bound, there⟩
    obtain ⟨rfl, destroys⟩ :=
      (mem_destructionsAt_iff (Nat.le_of_lt_succ (List.mem_range.mp bound))).mp there
    exact destroys
  · intro destroys
    have bound := destroys.exists_gone.1
    exact ⟨call.count, List.mem_range.mpr (Nat.lt_succ_of_le bound),
      (mem_destructionsAt_iff bound).mpr ⟨rfl, destroys⟩⟩

/-- The reports of a statement, or of the end of the program, that speak of dangling references. -/
theorem filter_reports (bound : count ≤ program.actions.length) {violations : List Violation}
    (same : violations.filter isDangling =
      (program.destructionsAt count).flatMap Destruction.reports) :
    (violations.map fun violation =>
        ({ violation, position := some (program.position count) } : Diagnostic)).filter
        (fun diagnostic => isDangling diagnostic.violation) =
      (program.destructionsAt count).flatMap program.diagnosticsOf := by
  have placed : ∀ call ∈ program.destructionsAt count, program.diagnosticsOf call =
      call.reports.map fun violation =>
        { violation, position := some (program.position count) } := by
    intro call there
    rw [diagnosticsOf, ((mem_destructionsAt_iff bound).mp there).1]
  rw [List.filter_map, List.flatMap_congr placed, ← List.map_flatMap, ← same]
  rfl

theorem filter_diagnosticsFrom (bound : count ≤ program.actions.length) :
    (diagnosticsFrom (program.stateAt count) count (program.statements.drop count)).filter
        (fun diagnostic => isDangling diagnostic.violation) =
      (List.range' count (program.actions.length + 1 - count)).flatMap fun count =>
        (program.destructionsAt count).flatMap program.diagnosticsOf := by
  have length := program.length_actions
  induction bound using Nat.decreasingInduction with
  | self =>
      have last : program.actions[program.actions.length]? = none := by simp
      have placed : program.position program.actions.length = .atEnd program.actions.length := by
        simp [position, length]
      rw [length, List.drop_length, Nat.add_sub_cancel_left, List.range'_one, List.flatMap_singleton,
        diagnosticsFrom, ← length, ← placed]
      refine filter_reports (Nat.le_refl _) ?_
      rw [destructionsAt, last]
      exact State.filter_finish _ _
  | of_succ count before ih =>
      have here : program.actions[count]? = some program.actions[count] :=
        List.getElem?_eq_getElem before
      have same : program.statements[count].action = program.actions[count] := by
        simp [actions]
      have placed : program.position count = _ := position_of_lt (length ▸ before)
      have more : program.actions.length + 1 - count =
          program.actions.length + 1 - (count + 1) + 1 := by omega
      rw [List.drop_eq_getElem_cons (length ▸ before), diagnosticsFrom, List.filter_append, same,
        ← placed, ← stateAt_succ here, ih, more, List.range'_succ, List.flatMap_cons]
      refine congrArg (· ++ _) (filter_reports (Nat.le_of_lt before) ?_)
      rw [destructionsAt, here]
      exact State.filter_step _ _ _

/-- **What is reported of dangling references** is what the destructions report, in their order. -/
theorem filter_analyze (valid : program.errors = []) :
    (program.analyze .lexical).filter (fun diagnostic => isDangling diagnostic.violation) =
      program.destructions.flatMap program.diagnosticsOf := by
  have all := filter_diagnosticsFrom (Nat.zero_le program.actions.length)
  rw [List.drop_zero, Nat.sub_zero, ← List.range_eq_range'] at all
  rw [analyze_of_valid valid, destructions_eq, List.flatMap_assoc]
  exact all

/-! ## Every entity once -/

/-- The calls after `count` statements destroy what closes there. -/
theorem map_destructionsAt (valid : program.errors = []) (bound : count ≤ program.actions.length) :
    (program.destructionsAt count).map (fun call => (call.count, call.entity)) =
      (destroyedAt program.actions count).map fun declared =>
        (count, entityAt program.actions declared) := by
  unfold destructionsAt destroyedAt
  split
  · rename_i action here
    cases action with
    | exitScope =>
        obtain ⟨outer, level⟩ : ∃ outer, depthAt program.actions count = outer + 1 :=
          Nat.exists_eq_add_one.mpr (depthAt_pos_of_exitScope valid here)
        have frames := frames_stateAt valid bound
        rw [level, framesBelow_succ, List.map_cons] at frames
        simp only [State.stepDestructions, Scopes.exit?, frames, State.map_destructions, level,
          Scopes.destructionOrder_mapFrame, List.map_map, here]
        rfl
    | declareBinding | declareReference | rebindReference | assignBinding | assignThrough
    | readBinding | readThrough | enterScope => simp only [State.stepDestructions, here, List.map_nil]
  · rename_i last
    simp only [last]
    rw [State.finishDestructions, State.map_destructions]
    show (entities (program.stateAt count).scopes.frames).map _ = _
    rw [entities_stateAt valid bound, List.map_map]
    rfl

/-- **The calls are the endings of the declarations.** -/
theorem map_destructions (valid : program.errors = []) :
    program.destructions.map (fun call => (call.count, call.entity)) =
      (endings program.actions).map fun ending =>
        (ending.1, entityAt program.actions ending.2) := by
  rw [destructions_eq, endings, List.map_flatMap, List.map_flatMap]
  refine List.flatMap_congr fun count there => ?_
  rw [map_destructionsAt valid (Nat.le_of_lt_succ (List.mem_range.mp there)), List.map_map]
  rfl

theorem mem_endings_iff (valid : program.errors = []) {declared : Nat} :
    (count, declared) ∈ endings program.actions ↔ ClosesAt program.actions declared count ∧
      ∃ name, declaredAt program.actions declared = some name :=
  mem_endings (depthAt_pos_of_exitScope valid)

theorem map_entity_destructions (valid : program.errors = []) :
    program.destructions.map (·.entity) =
      (endings program.actions).map fun ending => entityAt program.actions ending.2 := by
  have both := congrArg (List.map Prod.snd) (map_destructions valid)
  rwa [List.map_map, List.map_map] at both

/-- **No entity is destroyed twice.** -/
theorem nodup_destructions (valid : program.errors = []) :
    (program.destructions.map (·.entity)).Nodup := by
  rw [map_entity_destructions valid]
  refine List.pairwise_map.mpr ((endings_pairwise program.actions).imp_of_mem ?_)
  rintro ⟨count, declared⟩ ⟨count', declared'⟩ there there' before same
  obtain ⟨closes, _, declares⟩ := (mem_endings_iff valid).mp there
  obtain ⟨closes', _, declares'⟩ := (mem_endings_iff valid).mp there'
  obtain rfl := eq_of_entityAt_eq declares declares' same
  obtain rfl := closes.unique closes'
  rcases before with earlier | ⟨-, newer⟩
  · exact Nat.lt_irrefl _ earlier
  · exact Nat.lt_irrefl _ newer

/-- **Every declared entity is destroyed once.** -/
theorem count_destructions (valid : program.errors = []) {declared : Nat} {name : String}
    (declares : declaredAt program.actions declared = some name) :
    (program.destructions.map (·.entity)).count (entityAt program.actions declared) = 1 := by
  obtain ⟨count, closes⟩ := exists_closesAt declares
  refine List.count_eq_one_of_mem (nodup_destructions valid) ?_
  rw [map_entity_destructions valid]
  exact List.mem_map.mpr ⟨_, (mem_endings_iff valid).mpr ⟨closes, name, declares⟩, rfl⟩

/-- **A call destroys a declared entity**, when its scope closes. -/
theorem exists_closesAt_of_mem_destructions (valid : program.errors = []) {call : Destruction}
    (there : call ∈ program.destructions) :
    ∃ declared name, declaredAt program.actions declared = some name ∧
      call.entity = entityAt program.actions declared ∧
      ClosesAt program.actions declared call.count := by
  have listed := List.mem_map_of_mem (f := fun call => (call.count, call.entity)) there
  rw [map_destructions valid] at listed
  obtain ⟨⟨count, declared⟩, ending, same⟩ := List.mem_map.mp listed
  obtain ⟨rfl, entity⟩ := Prod.mk.inj same
  obtain ⟨closes, name, declares⟩ := (mem_endings_iff valid).mp ending
  exact ⟨declared, name, declares, entity.symm, closes⟩

/-- **The order of destruction.** -/
theorem sublist_destructions (valid : program.errors = []) {outer inner : Nat} {name name' : String}
    (declares : declaredAt program.actions outer = some name)
    (declares' : declaredAt program.actions inner = some name')
    (encloses : Encloses program.actions outer inner)
    (within : depthAt program.actions outer < depthAt program.actions inner ∨ outer < inner) :
    [entityAt program.actions inner, entityAt program.actions outer].Sublist
      (program.destructions.map (·.entity)) := by
  obtain ⟨count, closes⟩ := exists_closesAt declares'
  obtain ⟨count', closes'⟩ := exists_closesAt declares
  have first := (mem_endings_iff valid).mpr ⟨closes, name', declares'⟩
  have second := (mem_endings_iff valid).mpr ⟨closes', name, declares⟩
  have order := ClosesAt.order encloses within closes closes'
  have pair : [(count, inner), (count', outer)].Sublist (endings program.actions) := by
    obtain ⟨before, after, split⟩ := List.append_of_mem first
    have sorted := endings_pairwise program.actions
    rw [split] at second sorted ⊢
    rcases List.mem_append.mp second with earlier | later
    · -- `outer` would come before `inner`.
      have precedes := (List.pairwise_append.mp sorted).2.2 _ earlier _ List.mem_cons_self
      simp only [Precedes] at precedes
      omega
    · have different : (count', outer) ≠ (count, inner) := by
        intro same
        obtain ⟨rfl, rfl⟩ := Prod.mk.inj same
        omega
      have behind := (List.mem_cons.mp later).resolve_left different
      exact ((List.singleton_sublist.mpr behind).cons_cons _).trans (List.sublist_append_right _ _)
  rw [map_entity_destructions valid]
  exact pair.map fun ending => entityAt program.actions ending.2

/-! ## What a destruction reports -/

/-- Who holds the binding declared at `lent` when it is destroyed after `count` statements: the
windows of the older references, in the order in which they were asked for. Newer references are gone
by then. -/
structure LastHolders (program : Program) (count lent : Nat) (windows : List (Nat × Nat)) :
    Prop where
  mem_iff : ∀ {declared asked}, (declared, asked) ∈ windows ↔
    program.Window count declared lent asked ∧ declared < lent
  sorted : windows.Pairwise fun earlier later => earlier.2 < later.2

variable {state : State} {lent : Nat} {name tag : String} {isMutable : Bool} {init : Option Expr}

/-- What is gone when an open declaration is destroyed is newer than it. -/
theorem lt_of_mem_gone (valid : program.errors = []) (bound : count ≤ program.actions.length)
    {declared : Nat} {known : String} {gone left : List Entity}
    (order : entities (program.stateAt count).scopes.frames =
      gone ++ entityAt program.actions lent :: left)
    (declares : declaredAt program.actions lent = some name)
    (declares' : declaredAt program.actions declared = some known)
    (there : entityAt program.actions declared ∈ gone) : lent < declared := by
  obtain ⟨newer, older, split, rfl⟩ := exists_openAt_eq valid bound order declares
  have sorted := openAt_pairwise program.actions count
  rw [split] at sorted
  obtain ⟨found, listed, same⟩ := List.mem_map.mp there
  have isOpen : found ∈ openAt program.actions count := split ▸ List.mem_append_left _ listed
  obtain ⟨-, -, _, declares''⟩ := mem_openAt.mp isOpen
  obtain rfl := eq_of_entityAt_eq declares'' declares' same
  exact (List.pairwise_append.mp sorted).2.2 _ listed _ List.mem_cons_self

/-- The holders of a binding when it is destroyed. -/
theorem Destroys.exists_lastHolders (valid : program.errors = [])
    (there : program.actions[lent]? = some (.declareBinding name isMutable tag init))
    (destroys : program.Destroys count state (entityAt program.actions lent)) :
    ∃ windows, program.LastHolders count lent windows ∧
      state.holdersOf (bindingNumber program.actions lent) = windows.map program.holderOf := by
  obtain ⟨bound, gone, left, outer, order, rfl⟩ := destroys.exists_gone
  have declares := declaredAt_of_declaredName valid there rfl
  have records : ({ program.stateAt count with scopes := outer } : State).loans.Records
      ({ program.stateAt count with scopes := outer } : State).ledger :=
    (program.coherent_stateAt count).records
  obtain ⟨windows, list, holders⟩ := exists_windowList valid bound there
  refine ⟨windows.filter fun window => decide (window.1 < lent), ⟨?_, list.sorted.filter _⟩, ?_⟩
  · intro declared asked
    rw [List.mem_filter, list.mem_iff, decide_eq_true_eq]
  · have distinct := (program.coherent_stateAt count).distinct
    rw [List.nil_append, order, entityAt_of_declareBinding there] at distinct
    have remains : .binding (bindingNumber program.actions lent) ∉ gone := by
      intro early
      exact List.disjoint_of_nodup_append distinct early List.mem_cons_self
    rw [State.holdersOf_destroyAll records, if_neg remains]
    show ((program.stateAt count).holdersOf _).filter _ = _
    rw [holders, List.filter_map]
    refine congrArg (List.map program.holderOf) (List.filter_congr ?_)
    rintro ⟨declared, asked⟩ listed
    have window := list.mem_iff.mp listed
    obtain ⟨_, _, _, _, here⟩ := window.exists_declareReference
    have declares' := declaredAt_of_declaredName valid here rfl
    have entity := entityAt_of_declareReference here
    rw [Bool.eq_iff_iff]
    simp only [Function.comp_apply, holderOf, Holder.outlives, decide_eq_true_eq, ← entity]
    constructor
    · intro stays
      refine lt_of_not_mem_gone valid bound order declares ?_ stays ?_
      · exact mem_openAt.mpr ⟨window.declared_lt, window.isOpen, _, declares'⟩
      · rintro rfl
        exact absurd (there.symm.trans here) (by simp)
    · intro older early
      have newer := lt_of_mem_gone valid bound order declares declares' early
      omega

/-- An open declaration stands in a frame of the checker, under its name. -/
theorem exists_frame_of_mem_openAt (valid : program.errors = [])
    (bound : count ≤ program.actions.length) (isOpen : lent ∈ openAt program.actions count)
    (declares : declaredAt program.actions lent = some name) :
    ∃ frame ∈ (program.stateAt count).scopes.frames,
      (name, entityAt program.actions lent) ∈ frame := by
  obtain ⟨before, isOpen, -⟩ := mem_openAt.mp isOpen
  have reached := isOpen.depthAt_le (Nat.le_of_lt before)
  have entry := mem_frameAt.mpr ⟨before, isOpen, rfl, declares⟩
  rw [scopes_stateAt valid bound]
  refine ⟨_, List.mem_map_of_mem (List.mem_map_of_mem ?_), List.mem_map_of_mem entry⟩
  rw [List.mem_reverse, List.mem_range]
  omega

/-- An open binding is known by the name of its declaration. -/
theorem bindingName_stateAt (valid : program.errors = []) (bound : count ≤ program.actions.length)
    (isOpen : lent ∈ openAt program.actions count)
    (declares : declaredAt program.actions lent = some name) {id : BindingId}
    (entity : entityAt program.actions lent = .binding id) :
    (program.stateAt count).bindingName id = name := by
  obtain ⟨frame, inside, entry⟩ := exists_frame_of_mem_openAt valid bound isOpen declares
  rw [entity] at entry
  rw [State.bindingName, (program.coherent_stateAt count).binding_named inside entry]
  rfl

/-- A reference is known by the name of its declaration. -/
theorem referenceName_stateAt (valid : program.errors = [])
    (bound : count ≤ program.actions.length) {declared : Nat} {known target : String}
    {kind : BorrowKind}
    (here : program.actions[declared]? = some (.declareReference known kind isMutable target))
    (before : declared < count) :
    (program.stateAt count).referenceName (referenceNumber program.actions declared) = known := by
  rw [State.referenceName_eq, identity_stateAt valid bound here before]
  rfl

/-- **What the destruction of a binding reports**: its holders, if there are any. -/
theorem Destroys.reports_eq (valid : program.errors = [])
    (there : program.actions[lent]? = some (.declareBinding name isMutable tag init))
    (destroys : program.Destroys count state (entityAt program.actions lent))
    {windows : List (Nat × Nat)} (list : program.LastHolders count lent windows)
    (holders : state.holdersOf (bindingNumber program.actions lent) =
      windows.map program.holderOf) :
    (state.destroy (entityAt program.actions lent)).2 =
      if windows = [] then []
      else [.danglingReferent name
        (windows.map fun window => (declaredAt program.actions window.1).getD "")] := by
  obtain ⟨bound, gone, left, outer, order, rfl⟩ := destroys.exists_gone
  have declares := declaredAt_of_declaredName valid there rfl
  have entity := entityAt_of_declareBinding there
  have named : (program.stateAt count).bindingName (bindingNumber program.actions lent) = name := by
    obtain ⟨newer, older, split, -⟩ := exists_openAt_eq valid bound order declares
    have isOpen : lent ∈ openAt program.actions count := by
      rw [split]
      simp
    exact bindingName_stateAt valid bound isOpen declares entity
  have called : ∀ window ∈ windows,
      (program.stateAt count).referenceName (referenceNumber program.actions window.1) =
        (declaredAt program.actions window.1).getD "" := by
    rintro ⟨declared, asked⟩ listed
    obtain ⟨window, -⟩ := list.mem_iff.mp listed
    obtain ⟨_, _, _, _, here⟩ := window.exists_declareReference
    rw [referenceName_stateAt valid bound here window.declared_lt,
      declaredAt_of_declaredName valid here rfl]
    rfl
  have live : ({ program.stateAt count with scopes := outer }.destroyAll gone).1.loans.liveReferences
      (bindingNumber program.actions lent) =
        windows.map fun window => referenceNumber program.actions window.1 := by
    show (State.holdersOf _ _).filterMap Holder.reference? = _
    rw [holders, List.filterMap_map]
    exact congrFun List.filterMap_eq_map windows
  have names : ((windows.map fun window => referenceNumber program.actions window.1).map
      (({ program.stateAt count with scopes := outer } : State).destroyAll gone).1.referenceName) =
        windows.map fun window => (declaredAt program.actions window.1).getD "" := by
    rw [List.map_map]
    refine List.map_congr_left fun window listed => ?_
    exact (State.referenceName_destroyAll _ gone _).trans (called window listed)
  rw [entity, State.snd_destroy_binding, live, names, State.bindingName_destroyAll]
  simp only [List.isEmpty_map, List.isEmpty_iff]
  rw [← named]
  rfl

end Program

/-! ## The end of the program -/

namespace Checker

theorem LoanTable.entries_eq_nil {table : LoanTable} (none : ∀ id, (table.find? id).isSome = false) :
    table.entries = [] := by
  obtain ⟨entries⟩ := table
  cases entries with
  | nil => rfl
  | cons entry rest =>
      obtain ⟨id, state⟩ := entry
      have found := none id
      rw [LoanTable.find?, List.lookup_cons_self] at found
      exact absurd found (by simp)

/-- **Nothing is left over.** -/
theorem Invariant.finish {state : State} (coherent : Coherent state) :
    state.finish.1.loans.entries = [] ∧
      ∀ (id : ReferenceId) (reference : Reference),
        state.finish.1.references[id]? = some reference → reference.status = .ended := by
  have closing : Invariant { state with scopes := { frames := [] } } state.scopes.frames [] :=
    coherent.close (List.append_nil _).symm
  have done : Invariant state.finish.1 state.scopes.frames (entities state.scopes.frames) :=
    closing.destroyAll (entities state.scopes.frames) (fun _ there => there)
  have closed : state.scopes.frames ++ state.finish.1.scopes.frames = state.scopes.frames := by
    rw [State.finish, State.destroyAll_scopes]
    exact List.append_nil _
  refine ⟨LoanTable.entries_eq_nil fun id => ?_, fun id reference found => ?_⟩
  · rw [Bool.eq_false_iff]
    intro tracked
    obtain ⟨there, left⟩ := (done.tracked_iff id).mp tracked
    rw [closed] at there
    exact left there
  · -- A reference that has not ended would still stand in a frame, and all of these are closed.
    by_contra alive
    have standing : state.finish.1.standing id = some (reference.name, false) := by
      rw [State.standing, found]
      simp [alive]
    obtain ⟨frame, inside, shown⟩ := done.shown standing
    rw [closed] at inside
    obtain ⟨_, ended⟩ := done.destroyed_ended (mem_entities_of_lookup inside shown)
    rw [standing] at ended
    exact absurd ended (by simp)

end Checker

namespace Program

variable {program : Program}

/-- **The laws of destruction**, for the calls of `destroy` on the walk through a program. -/
structure DestroysAll (program : Program) : Prop where
  /-- The calls are all destructions that the walk comes to. -/
  call_iff : ∀ call, call ∈ program.destructions ↔
    program.Destroys call.count call.state call.entity
  /-- Every declared entity is destroyed exactly once. -/
  once : ∀ {declared name}, declaredAt program.actions declared = some name →
    (program.destructions.map (·.entity)).count (entityAt program.actions declared) = 1
  /-- Nothing else is destroyed, and each entity when the scope of its declaration closes. -/
  closing : ∀ call ∈ program.destructions, ∃ declared name,
    declaredAt program.actions declared = some name ∧
      call.entity = entityAt program.actions declared ∧
      ClosesAt program.actions declared call.count
  /-- What stands in an inner frame, or later in the same frame, is destroyed first. -/
  order : ∀ {outer inner name name'}, declaredAt program.actions outer = some name →
    declaredAt program.actions inner = some name' → Encloses program.actions outer inner →
    depthAt program.actions outer < depthAt program.actions inner ∨ outer < inner →
    [entityAt program.actions inner, entityAt program.actions outer].Sublist
      (program.destructions.map (·.entity))
  /-- That references dangle is reported where bindings are destroyed, and nowhere else. -/
  reported : (program.analyze .lexical).filter (fun diagnostic => isDangling diagnostic.violation) =
    program.destructions.flatMap program.diagnosticsOf
  /-- The destruction of a binding is reported once if anyone holds it, with all its holders in the
  order in which they asked for it, and not at all otherwise. -/
  binding_reports : ∀ call ∈ program.destructions, ∀ {lent name isMutable tag init},
    program.actions[lent]? = some (.declareBinding name isMutable tag init) →
    call.entity = entityAt program.actions lent →
    ∃ windows, program.LastHolders call.count lent windows ∧
      call.state.holdersOf (bindingNumber program.actions lent) = windows.map program.holderOf ∧
      call.reports = if windows = [] then []
        else [.danglingReferent name
          (windows.map fun window => (declaredAt program.actions window.1).getD "")]
  /-- The destruction of a reference is never reported. -/
  reference_reports : ∀ call ∈ program.destructions, ∀ {id},
    call.entity = .reference id → call.reports = []
  /-- In the end no binding is tracked. -/
  untracked : (program.stateAt program.actions.length).finish.1.loans.entries = []
  /-- And every reference has ended. -/
  ended : ∀ (id : ReferenceId) (reference : Reference),
    (program.stateAt program.actions.length).finish.1.references[id]? = some reference →
      reference.status = .ended

/-- **Destruction is complete and happens once.** On the walk through a valid program every declared
binding and every declared reference is destroyed exactly once, when the scope of its declaration
closes, inner frames before outer ones and newer declarations before older ones. The destruction of a
binding that is still held is reported once, with all holders, and in the end nothing is left. -/
theorem destruction_complete (valid : program.errors = []) : program.DestroysAll where
  call_iff := fun _ => mem_destructions_iff
  once := count_destructions valid
  closing := fun _ there => exists_closesAt_of_mem_destructions valid there
  order := sublist_destructions valid
  reported := filter_analyze valid
  binding_reports := by
    intro call there lent name isMutable tag init here entity
    have destroys := mem_destructions_iff.mp there
    rw [entity] at destroys
    obtain ⟨windows, list, holders⟩ := destroys.exists_lastHolders valid here
    refine ⟨windows, list, holders, ?_⟩
    rw [Destruction.reports, entity]
    exact destroys.reports_eq valid here list holders
  reference_reports := by
    intro call _ id entity
    rw [Destruction.reports, entity]
    rfl
  untracked := (program.coherent_stateAt _).finish.1
  ended := (program.coherent_stateAt _).finish.2

end Program

/-- `let a; let mut r = &a; { let b; rebind r -> b; let q = &b; let q = &a; } { let c;`: the first
`q` is shadowed, `r` outlives what it points to, and the last scope is not closed. -/
def outlived : Program where
  statements := [
    { action := .declareBinding "a" false "i32" none },
    { action := .declareReference "r" .shared true "a" },
    { action := .enterScope },
    { action := .declareBinding "b" false "i32" none },
    { action := .rebindReference "r" "b" },
    { action := .declareReference "q" .shared false "b" },
    { action := .declareReference "q" .shared false "a" },
    { action := .exitScope },
    { action := .enterScope },
    { action := .declareBinding "c" false "i32" none }]

/-- Both references `q` are destroyed before `b`, of which the destruction is reported. -/
theorem Program.destruction_complete_outlived :
    outlived.errors = [] ∧
      outlived.destructions.map (fun call => (call.count, call.entity)) =
        [(7, .reference 2), (7, .reference 1), (7, .binding 1), (10, .binding 2), (10, .reference 0),
          (10, .binding 0)] ∧
      (outlived.destructions.map (·.entity)).count (entityAt outlived.actions 5) = 1 ∧
      outlived.destructions.flatMap outlived.diagnosticsOf =
        [{ violation := .danglingReferent "b" ["r"], position := some (.statement 7 none) }] ∧
      (outlived.analyze .lexical).filter (fun diagnostic => isDangling diagnostic.violation) =
        outlived.destructions.flatMap outlived.diagnosticsOf ∧
      (outlived.stateAt 10).finish.1.loans.entries = [] := by
  have valid : outlived.errors = [] := by decide
  have laws := Program.destruction_complete valid
  have declares : declaredAt outlived.actions 5 = some "q" := by decide
  exact ⟨valid, by decide, laws.once declares, by decide, laws.reported, laws.untracked⟩

end Lending
