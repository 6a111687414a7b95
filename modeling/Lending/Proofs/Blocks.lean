import Lending.Proofs.Windows
import Mathlib.Data.List.Sort
import Mathlib.Tactic.IntervalCases

/-!
# Blocks are transparent to loans

A block is what stands between the entry of a scope and the exit that matches it (`Block`). As long
as nothing in it rebinds a reference declared before the block (`RebindsInward`), the checker is
behind the block, in all that it knows of what was declared before, in the state in which it was
before (`Program.block_transparent`), whatever is borrowed, refused, shadowed or left dangling
inside.

* **frames** — the declarations that are open behind the block are those that were open before it
  (`Block.isOpen_iff`), so the frames are the same (`Block.scopesAt_eq`);
* **holders** — so are the windows of loans (`Block.window_iff`), and with them the holders of each
  binding in their order (`Program.holdersOf_block`);
* **references** — what leaves inside the block was declared there (`Block.start_lt_of_leaves`), and
  an outer reference never holds an inner binding, so each step leaves it alone
  (`Program.getElem?_block`).
-/

namespace Lending

open Checker

/-- Lists with the same members in the same strict order are equal. -/
theorem eq_of_mem_iff_of_pairwise {α : Type} {order : α → α → Prop} {first second : List α}
    (asymm : ∀ {x y}, order x y → ¬order y x) (sorted : first.Pairwise order)
    (sorted' : second.Pairwise order) (same : ∀ x, x ∈ first ↔ x ∈ second) : first = second :=
  have : Std.Asymm order := ⟨fun _ _ => asymm⟩
  sorted.eq_of_mem_iff sorted' same

namespace Lexical

/-- The statements from the entry of a scope at `start` to the exit at `stop` that matches it. -/
structure Block (actions : List Action) (start stop : Nat) : Prop where
  enters : actions[start]? = some .enterScope
  exits : actions[stop]? = some .exitScope
  before : start < stop
  /-- In between the scope is open. -/
  inside : ∀ {index}, start < index → index ≤ stop → depthAt actions start < depthAt actions index
  /-- The exit closes it. -/
  closes : depthAt actions (stop + 1) = depthAt actions start

theorem Block.stop_lt {actions : List Action} {start stop : Nat}
    (block : Block actions start stop) : stop < actions.length :=
  (List.getElem?_eq_some_iff.mp block.exits).1

/-- Every rebind between `start` and `stop` is one of a reference declared after `start`. -/
def RebindsInward (actions : List Action) (start stop : Nat) : Prop :=
  ∀ {index called target}, start < index → index < stop →
    actions[index]? = some (.rebindReference called target) →
    ∃ declared, resolve actions index called = some declared ∧ start < declared

variable {actions : List Action} {action : Action} {start stop index declared : Nat}

/-! ## What a block leaves open -/

/-- **The declarations that are open behind a block are those that were open before it.** -/
theorem Block.isOpen_iff (block : Block actions start stop) {name : String}
    (declares : declaredAt actions index = some name) :
    index < stop + 1 ∧ StillOpen actions index (stop + 1) ↔
      index < start ∧ StillOpen actions index start := by
  have closes := block.closes
  have before := block.before
  constructor
  · rintro ⟨bound, isOpen⟩
    have reached := isOpen.depthAt_le (Nat.le_of_lt bound)
    have outside : index ≤ start := by
      by_contra after
      have deeper := block.inside (show start < index by omega) (by omega)
      omega
    have different : index ≠ start := by
      rintro rfl
      rw [declaredAt_of_getElem? block.enters] at declares
      exact absurd declares (by simp [Action.declares, Action.declaredName])
    exact ⟨by omega, fun between last => isOpen between (by omega)⟩
  · rintro ⟨bound, isOpen⟩
    have reached := isOpen.depthAt_le (Nat.le_of_lt bound)
    refine ⟨by omega, fun between last first => ?_⟩
    by_cases early : between ≤ start
    · exact isOpen between early first
    · by_cases late : between ≤ stop
      · have deeper := block.inside (show start < between by omega) late
        omega
      · obtain rfl : between = stop + 1 := by omega
        omega

theorem Block.frameAt_eq (block : Block actions start stop) (depth : Nat) :
    frameAt actions (stop + 1) depth = frameAt actions start depth := by
  -- Both list the same declarations, and both with the newest first.
  refine eq_of_mem_iff_of_pairwise Nat.lt_asymm (frameAt_pairwise actions (stop + 1) depth)
    (frameAt_pairwise actions start depth) ?_
  rintro ⟨name, index⟩
  simp only [mem_frameAt]
  constructor
  · rintro ⟨bound, isOpen, deep, declares⟩
    obtain ⟨bound, isOpen⟩ := (block.isOpen_iff declares).mp ⟨bound, isOpen⟩
    exact ⟨bound, isOpen, deep, declares⟩
  · rintro ⟨bound, isOpen, deep, declares⟩
    obtain ⟨bound, isOpen⟩ := (block.isOpen_iff declares).mpr ⟨bound, isOpen⟩
    exact ⟨bound, isOpen, deep, declares⟩

/-- The frames behind a block are those before it. -/
theorem Block.scopesAt_eq (block : Block actions start stop) :
    scopesAt actions (stop + 1) = scopesAt actions start := by
  have frames : frameAt actions (stop + 1) = frameAt actions start := funext block.frameAt_eq
  simp only [scopesAt, framesBelow, block.closes, frames]

/-! ## What happens inside -/

/-- What stands in the innermost frame inside a block was declared there. -/
theorem Block.start_lt_of_mem_frameAt (block : Block actions start stop) {count : Nat}
    (after : start < count) (last : count ≤ stop) {name : String}
    (there : (name, index) ∈ frameAt actions count (depthAt actions count)) : start < index := by
  obtain ⟨-, isOpen, deep, -⟩ := mem_frameAt.mp there
  have deeper := block.inside after last
  by_contra early
  have reached := isOpen start (by omega) (by omega)
  omega

/-- An outer reference does not ask for anything inside. -/
theorem Block.start_lt_of_asks (block : Block actions start stop)
    (inward : RebindsInward actions start stop) (after : start ≤ index) (last : index ≤ stop)
    {target : String} (asks : Asks actions declared index target) : start < declared := by
  cases asks with
  | declaration here =>
      have different : index ≠ start := by
        rintro rfl
        exact absurd (here.symm.trans block.enters) (by simp)
      omega
  | rebind _ here resolved =>
      have first : index ≠ start := by
        rintro rfl
        exact absurd (here.symm.trans block.enters) (by simp)
      have other : index ≠ stop := by
        rintro rfl
        exact absurd (here.symm.trans block.exits) (by simp)
      obtain ⟨declared', resolved', inner⟩ := inward (by omega) (by omega) here
      obtain rfl : declared = declared' := Option.some.inj (resolved.symm.trans resolved')
      exact inner

/-- **What leaves inside a block was declared there.** -/
theorem Block.start_lt_of_leaves (block : Block actions start stop)
    (inward : RebindsInward actions start stop) (here : actions[index]? = some action)
    (after : start ≤ index) (last : index ≤ stop)
    (leaves : Leaves actions declared index action) : start < declared := by
  by_cases first : index = start
  · obtain rfl : action = .enterScope :=
      Option.some.inj (here.symm.trans (first ▸ block.enters))
    exact leaves.elim
  · have shadowed : ∀ {name},
        List.lookup name (frameAt actions index (depthAt actions index)) = some declared →
          start < declared := fun found =>
      block.start_lt_of_mem_frameAt (by omega) last (mem_of_lookup found)
    cases action with
    | declareBinding | declareReference => exact shadowed leaves.2
    | rebindReference =>
        obtain ⟨target, asks⟩ := leaves
        exact block.start_lt_of_asks inward after last asks
    | exitScope =>
        obtain ⟨name, there⟩ := leaves
        exact block.start_lt_of_mem_frameAt (by omega) last there
    | assignBinding | assignThrough | readBinding | readThrough | enterScope => exact leaves.elim

/-- **The windows behind a block are those before it.** -/
theorem Block.window_iff {program : Program} (valid : program.errors = [])
    (block : Block program.actions start stop) (inward : RebindsInward program.actions start stop)
    {lent asked : Nat} :
    program.Window (stop + 1) declared lent asked ↔ program.Window start declared lent asked := by
  have before := block.before
  have known : ∀ {index target}, Asks program.actions declared index target →
      ∃ name, declaredAt program.actions declared = some name := by
    intro index target asks
    obtain ⟨name, _, _, _, here⟩ := asks.exists_declareReference
    exact ⟨name, Program.declaredAt_of_declaredName valid here rfl⟩
  constructor
  · intro window
    obtain ⟨target, last, resolved⟩ := window.asks
    obtain ⟨name, declares⟩ := known last.asks
    have found := resolve_eq_some_iff.mp resolved
    obtain ⟨outer, isOpen⟩ := (block.isOpen_iff declares).mp ⟨window.declared_lt, window.isOpen⟩
    obtain ⟨-, lent_isOpen⟩ :=
      (block.isOpen_iff found.declared).mp ⟨window.lent_lt, window.lent_isOpen⟩
    -- An outer reference asks for nothing inside, so its last request stands before the block.
    have early : asked < start := by
      by_contra late
      have bound := last.before
      have inner := block.start_lt_of_asks inward (by omega) (by omega) last.asks
      omega
    refine ⟨⟨target, ⟨early, last.asks, ?_⟩, resolved⟩, window.unrefused, ?_, isOpen, lent_isOpen⟩
    · exact fun asks bound => last.last asks (by omega)
    · exact fun bound => window.unshadowed (by omega)
  · intro window
    obtain ⟨target, last, resolved⟩ := window.asks
    obtain ⟨name, declares⟩ := known last.asks
    have found := resolve_eq_some_iff.mp resolved
    have early := last.before
    have outer := window.declared_lt
    obtain ⟨-, isOpen⟩ := (block.isOpen_iff declares).mpr ⟨outer, window.isOpen⟩
    obtain ⟨-, lent_isOpen⟩ :=
      (block.isOpen_iff found.declared).mpr ⟨window.lent_lt, window.lent_isOpen⟩
    refine ⟨⟨target, ⟨by omega, last.asks, ?_⟩, resolved⟩, window.unrefused, ?_, isOpen,
      lent_isOpen⟩
    · intro index other asks bound
      by_cases inside : start ≤ index
      · have inner := block.start_lt_of_asks inward inside (by omega) asks
        omega
      · exact last.last asks (by omega)
    · intro index bound shadows
      by_cases inside : start < index
      · -- Inside the block the frame of an outer declaration is not the innermost one.
        have deeper := block.inside inside (by omega)
        have reached := window.isOpen.depthAt_le (by omega)
        have innermost := shadows.innermost
        omega
      · by_cases first : index = start
        · obtain ⟨_, -, again⟩ := shadows.same_name
          rw [first, declaredAt_of_getElem? block.enters] at again
          exact absurd again (by simp [Action.declares, Action.declaredName])
        · exact window.unshadowed (by omega) shadows

end Lexical

open Lexical

/-- A statement keeps what is known of bindings, and may add one. -/
theorem Checker.bindings_step {state : State} (coherent : Coherent state) (action : Action) :
    (state.step action).1.bindings =
      match action with
      | .declareBinding name isMutable _ _ => state.bindings.push { name, isMutable }
      | _ => state.bindings := by
  cases action with
  | declareBinding name isMutable tag init =>
      show (State.declare _ name _).bindings = _
      rw [State.declare_bindings]
  | declareReference name kind isMutable target =>
      simp only [State.step]
      split
      · rw [State.declareReference_eq]
        dsimp only
        rw [State.declare_bindings, State.acquire_bindings]
        rfl
      · rfl
  | rebindReference name target =>
      simp only [State.step]
      split
      · rw [State.rebind_bindings]
      · rfl
  | assignBinding name value => rw [coherent.step_of_isAccess rfl]
  | assignThrough reference value => rw [coherent.step_of_isAccess rfl]
  | readBinding name => rw [coherent.step_of_isAccess rfl]
  | readThrough path => rw [coherent.step_of_isAccess rfl]
  | enterScope => rfl
  | exitScope =>
      simp only [State.step]
      split
      · rw [State.destroyAll_bindings]
      · rfl

namespace Program

variable {program : Program} {start stop lent : Nat}
variable {name tag : String} {isMutable : Bool} {init : Option Expr}

/-! ## The checker -/

theorem WindowList.eq {first second : List (Nat × Nat)} {count count' : Nat}
    (list : program.WindowList count lent first) (list' : program.WindowList count' lent second)
    (same : ∀ {declared asked}, program.Window count declared lent asked ↔
      program.Window count' declared lent asked) : first = second := by
  refine eq_of_mem_iff_of_pairwise Nat.lt_asymm list.sorted list'.sorted ?_
  rintro ⟨declared, asked⟩
  rw [list.mem_iff, list'.mem_iff, same]

/-- **The holders of a binding behind a block are those before it**, in the same order. -/
theorem holdersOf_block (valid : program.errors = []) (block : Block program.actions start stop)
    (inward : RebindsInward program.actions start stop)
    (there : program.actions[lent]? = some (.declareBinding name isMutable tag init)) :
    (program.stateAt (stop + 1)).holdersOf (bindingNumber program.actions lent) =
      (program.stateAt start).holdersOf (bindingNumber program.actions lent) := by
  have bound := block.stop_lt
  have before := block.before
  obtain ⟨windows, list, holders⟩ := exists_windowList valid bound there
  obtain ⟨windows', list', holders'⟩ :=
    exists_windowList valid (show start ≤ program.actions.length by omega) there
  rw [holders, holders', list.eq list' (block.window_iff valid inward)]

/-- The declaration behind a binding that somebody holds. -/
theorem exists_declareBinding_of_mem_holdersOf (valid : program.errors = []) {count : Nat}
    (bound : count ≤ program.actions.length) {holder : Holder} {binding : BindingId}
    (held : holder ∈ (program.stateAt count).holdersOf binding) :
    ∃ lent, bindingNumber program.actions lent = binding ∧ ∃ name isMutable tag init,
      program.actions[lent]? = some (.declareBinding name isMutable tag init) := by
  have tracked : ((program.stateAt count).loans.find? binding).isSome := by
    by_contra missing
    rw [Option.not_isSome_iff_eq_none] at missing
    simp [State.holdersOf, LoanTable.state, missing, LoanState.holders] at held
  obtain ⟨there, -⟩ := ((program.coherent_stateAt count).tracked_iff binding).mp tracked
  obtain ⟨lent, name, -, declares, entity⟩ := exists_declaredAt_of_mem_entities valid bound there
  obtain ⟨number, here⟩ := exists_declareBinding_of_entityAt declares entity
  exact ⟨lent, number, here⟩

/-- **An outer reference is left alone by a block.** The induction is on the statements of the
block: none of them makes the reference leave, or a binding that it holds. -/
theorem getElem?_block (valid : program.errors = []) (block : Block program.actions start stop)
    (inward : RebindsInward program.actions start stop) {id : ReferenceId}
    (known : id < (program.stateAt start).references.size) {count : Nat} (after : start ≤ count)
    (last : count ≤ stop + 1) :
    (program.stateAt count).references[id]? = (program.stateAt start).references[id]? := by
  have bound := block.stop_lt
  obtain ⟨declared, outer, rfl, name, kind, isMutable, initial, there⟩ :=
    exists_declareReference_of_lt valid (by omega) known
  induction count, after using Nat.le_induction with
  | base => rfl
  | succ count after ih =>
      have here := List.getElem?_eq_getElem (show count < program.actions.length by omega)
      rw [← ih (by omega), stateAt_succ here]
      refine getElem?_step (program.coherent_stateAt count) ?_ ?_ ?_
      · rw [(size_stateAt valid (by omega)).2]
        exact countP_take_lt there rfl (by omega)
      · rw [← entityAt_of_declareReference there,
          entityAt_mem_leaving_iff valid here (declaredAt_of_declaredName valid there rfl)]
        intro leaves
        have inner := block.start_lt_of_leaves inward here after (by omega) leaves
        omega
      · intro binding leaving held
        obtain ⟨lent, rfl, _, _, _, _, there'⟩ :=
          exists_declareBinding_of_mem_holdersOf valid (by omega) held
        rw [← entityAt_of_declareBinding there',
          entityAt_mem_leaving_iff valid here (declaredAt_of_declaredName valid there' rfl)]
          at leaving
        have inner := block.start_lt_of_leaves inward here after (by omega) leaving
        -- To hold a binding of the block, the reference would have asked for it in the block.
        obtain ⟨asked, window⟩ := (mem_holdersOf_iff_window valid (by omega) there' there).mp held
        obtain ⟨_, last', resolved⟩ := window.asks
        have bound' := last'.before
        have later := (resolve_eq_some_iff.mp resolved).before
        have inner' := block.start_lt_of_asks inward (by omega) (by omega) last'.asks
        omega

/-- What is known of a binding stays. -/
theorem getElem?_bindings_stateAt {id : BindingId}
    (known : id < (program.stateAt start).bindings.size) {count : Nat} (after : start ≤ count)
    (last : count ≤ program.actions.length) :
    id < (program.stateAt count).bindings.size ∧
      (program.stateAt count).bindings[id]? = (program.stateAt start).bindings[id]? := by
  induction count, after using Nat.le_induction with
  | base => exact ⟨known, rfl⟩
  | succ count after ih =>
      obtain ⟨bound, same⟩ := ih (by omega)
      rw [stateAt_succ (List.getElem?_eq_getElem last),
        bindings_step (program.coherent_stateAt count), ← same]
      split
      · rw [Array.size_push, Array.getElem?_push, if_neg (Nat.ne_of_lt bound)]
        exact ⟨Nat.lt_succ_of_lt bound, rfl⟩
      · exact ⟨bound, rfl⟩

theorem scopes_block (valid : program.errors = []) (block : Block program.actions start stop) :
    (program.stateAt (stop + 1)).scopes = (program.stateAt start).scopes := by
  have bound := block.stop_lt
  have before := block.before
  rw [scopes_stateAt valid bound, scopes_stateAt valid (by omega), block.scopesAt_eq]

/-- **The loan table behind a block is that before it.** -/
theorem find?_block (valid : program.errors = []) (block : Block program.actions start stop)
    (inward : RebindsInward program.actions start stop) (id : BindingId) :
    (program.stateAt (stop + 1)).loans.find? id = (program.stateAt start).loans.find? id := by
  have bound := block.stop_lt
  have before := block.before
  have coherent := program.coherent_stateAt start
  have coherent' := program.coherent_stateAt (stop + 1)
  -- The tracked bindings are those in the frames, which are the same.
  have tracked : ((program.stateAt (stop + 1)).loans.find? id).isSome ↔
      ((program.stateAt start).loans.find? id).isSome := by
    rw [coherent.tracked_iff, coherent'.tracked_iff, scopes_block valid block]
  cases found : (program.stateAt start).loans.find? id with
  | none =>
      rw [found] at tracked
      simpa using tracked
  | some loans =>
      obtain ⟨loans', found'⟩ := Option.isSome_iff_exists.mp (tracked.mpr (by rw [found]; rfl))
      obtain ⟨there, -⟩ := (coherent.tracked_iff id).mp (by rw [found]; rfl)
      obtain ⟨lent, name, -, declares, entity⟩ :=
        exists_declaredAt_of_mem_entities valid (by omega) there
      obtain ⟨rfl, _, _, _, _, here⟩ := exists_declareBinding_of_entityAt declares entity
      have same := State.state_eq_of_holdersOf_eq coherent.records coherent'.records
        (holdersOf_block valid block inward here) (fun held => ?_)
      · rw [LoanTable.state_of_find? found, LoanTable.state_of_find? found'] at same
        rw [found', same]
      · refine getElem?_block valid block inward ?_ (by omega) (Nat.le_refl _)
        obtain ⟨_, entry⟩ := (State.mem_holdersOf_iff coherent.records).mp held
        obtain ⟨_, known, -⟩ := State.ledger_eq_some_iff.mp entry
        exact (Array.getElem?_eq_some_iff.mp known).1

/-- **Blocks are transparent.** Behind a block of a valid program without rebinds of outer
references the frames are those before it, the tracked bindings are the same with the loans that
they had, and all that was known of bindings and references, their targets and statuses included, is
as it was. -/
theorem block_transparent {program : Program} (valid : program.errors = []) {start stop : Nat}
    (block : Block program.actions start stop)
    (inward : RebindsInward program.actions start stop) {before after : State}
    (entered : program.stateAt start = before) (left : program.stateAt (stop + 1) = after) :
    after.scopes = before.scopes ∧
    (∀ id, after.loans.find? id = before.loans.find? id) ∧
    (∀ id < before.bindings.size, after.bindings[id]? = before.bindings[id]?) ∧
    ∀ id < before.references.size, after.references[id]? = before.references[id]? := by
  have bound := block.stop_lt
  have first := block.before
  subst entered left
  refine ⟨scopes_block valid block, find?_block valid block inward, ?_, ?_⟩
  · intro id known
    exact (getElem?_bindings_stateAt known (by omega) bound).2
  · intro id known
    exact getElem?_block valid block inward known (by omega) (Nat.le_refl _)

end Program

/-- `let a; let mut r = &a; { let mut q = &a; let x = &mut a; { let c; rebind q -> c; }
rebind q -> a; let r = &a; let r = &a; }`: in the block `x` is refused, `q` dangles for a while and
`r` is declared twice. -/
def busyBlock : Program where
  statements := [
    { action := .declareBinding "a" false "i32" none },
    { action := .declareReference "r" .shared true "a" },
    { action := .enterScope },
    { action := .declareReference "q" .shared true "a" },
    { action := .declareReference "x" .exclusive false "a" },
    { action := .enterScope },
    { action := .declareBinding "c" false "i32" none },
    { action := .rebindReference "q" "c" },
    { action := .exitScope },
    { action := .rebindReference "q" "a" },
    { action := .declareReference "r" .shared false "a" },
    { action := .declareReference "r" .shared false "a" },
    { action := .exitScope }]

/-- Before the exit three references hold `a`, behind it the outer `r` alone, as before. -/
theorem Program.block_transparent_busyBlock :
    busyBlock.errors = [] ∧ Block busyBlock.actions 2 12 ∧ RebindsInward busyBlock.actions 2 12 ∧
    (busyBlock.stateAt 12).loans.find? 0 =
      some (.sharedBy [.reference 0, .reference 1, .reference 4]) ∧
    (busyBlock.stateAt 13).loans.find? 0 = some (.sharedBy [.reference 0]) := by
  have valid : busyBlock.errors = [] := by decide
  have inside : ∀ index ≤ 12, 2 < index →
      depthAt busyBlock.actions 2 < depthAt busyBlock.actions index := by decide
  have block : Block busyBlock.actions 2 12 :=
    ⟨rfl, rfl, by decide, fun after last => inside _ last after, by decide⟩
  have inward : RebindsInward busyBlock.actions 2 12 := by
    intro index called target after last here
    have rebinds : index = 7 ∧ called = "q" ∨ index = 9 ∧ called = "q" := by
      interval_cases index <;> simp_all [busyBlock, Program.actions]
    obtain ⟨rfl, rfl⟩ | ⟨rfl, rfl⟩ := rebinds
    · exact ⟨3, by decide, by decide⟩
    · exact ⟨3, by decide, by decide⟩
  obtain ⟨-, loans, -, -⟩ := Program.block_transparent valid block inward rfl rfl
  exact ⟨valid, block, inward, by decide, (loans 0).trans (by decide)⟩

end Lending
