import Lending.Program.Basic
import Lending.Proofs.Scopes
import Lending.Text.Blank
import Mathlib.Data.List.Basic
import Mathlib.Order.Basic

/-!
# Lexical scoping

What a name means, said of the statements alone: a use of a name resolves to the most recent earlier
statement that declares it and whose scope is still open (`resolve`). A scope is open as long as the
nesting depth has not fallen below the depth at which it was entered (`StillOpen`). No stack is kept
for that, and the statements need not be those of a valid program.

The walks through a program keep stacks of frames instead. What connects the two:

* **the frames of the history** — the declarations that are still open, grouped by their depth and
  listed with the newest first, form a stack of frames (`scopesAt`), and a statement changes it as
  `Scopes.pass` says (`scopesAt_succ`);
* **any walk** — a stack that a walk changes in this way is that of the history, up to what the walk
  puts in for each declaration (`eq_map_scopesAt`);
* **lookup** — looking a name up in the stack of the history is resolving it (`lookup_scopesAt`).
-/

namespace Lending

/-- The name that an action declares. A blank name is not declared. -/
def Action.declares (action : Action) : Option String :=
  action.declaredName.filter fun name => !Text.isBlank name

namespace Lexical

/-! ## Depth -/

/-- The nesting depth after an action. An exit outside of all scopes closes nothing. -/
def depthAfter (depth : Nat) : Action → Nat
  | .enterScope => depth + 1
  | .exitScope => depth - 1
  | _ => depth

/-- The nesting depth after the first `count` statements, at which the next one stands. -/
def depthAt (actions : List Action) (count : Nat) : Nat :=
  (actions.take count).foldl depthAfter 0

/-- The scope in which the statement at `index` stands is still open after `count` statements: since
then the depth has never been smaller. -/
def StillOpen (actions : List Action) (index count : Nat) : Prop :=
  ∀ between ≤ count, index ≤ between → depthAt actions index ≤ depthAt actions between

instance (actions : List Action) (index count : Nat) : Decidable (StillOpen actions index count) :=
  inferInstanceAs (Decidable (∀ between ≤ count, _))

/-- The name that the statement at `index` declares. -/
def declaredAt (actions : List Action) (index : Nat) : Option String :=
  actions[index]?.bind Action.declares

/-- **Resolution.** The statement that a use of `name` at `index` refers to: of the earlier ones
that declare the name and whose scope is still open, the most recent. -/
def resolve (actions : List Action) (index : Nat) (name : String) : Option Nat :=
  (List.range index).reverse.find? fun declared =>
    decide (declaredAt actions declared = some name ∧ StillOpen actions declared index)

variable {actions : List Action} {action : Action} {index count : Nat}

theorem depthAt_succ (here : actions[count]? = some action) :
    depthAt actions (count + 1) = depthAfter (depthAt actions count) action := by
  rw [depthAt, List.take_add_one, here, Option.toList_some, List.foldl_append]
  rfl

theorem declaredAt_of_getElem? (here : actions[index]? = some action) :
    declaredAt actions index = action.declares := by
  rw [declaredAt, here]
  rfl

/-! ## Open scopes -/

theorem StillOpen.depthAt_le (isOpen : StillOpen actions index count) (before : index ≤ count) :
    depthAt actions index ≤ depthAt actions count :=
  LevelKept.le isOpen before

/-- One statement more closes the scope exactly if the depth falls below that of the scope. -/
theorem stillOpen_succ_iff (before : index ≤ count) :
    StillOpen actions index (count + 1) ↔
      StillOpen actions index count ∧ depthAt actions index ≤ depthAt actions (count + 1) :=
  levelKept_succ_iff before

theorem stillOpen_self (actions : List Action) (index : Nat) : StillOpen actions index index :=
  levelKept_self (depthAt actions) index

/-- Of two open scopes the deeper one was entered later. -/
theorem StillOpen.lt_of_depthAt_lt {other : Nat} (isOpen : StillOpen actions other count)
    (before : index ≤ count) (deeper : depthAt actions index < depthAt actions other) :
    index < other := by
  by_contra late
  have higher := isOpen index before (by omega)
  omega

/-! ## The frames of the history -/

/-- The declarations that are open after `count` statements and stand at depth `depth`, newest
first. -/
def frameAt (actions : List Action) (count depth : Nat) : Frame Nat :=
  (List.range count).reverse.filterMap fun index =>
    if StillOpen actions index count ∧ depthAt actions index = depth then
      (declaredAt actions index).map fun name => (name, index)
    else none

/-- The frames of the depths below `depth`, innermost first. -/
def framesBelow (actions : List Action) (count depth : Nat) : List (Frame Nat) :=
  (List.range depth).reverse.map (frameAt actions count)

/-- The open frames after `count` statements, with the number of its statement for each
declaration. -/
def scopesAt (actions : List Action) (count : Nat) : Scopes Nat :=
  { frames := framesBelow actions count (depthAt actions count + 1) }

theorem mem_frameAt {depth : Nat} {name : String} :
    (name, index) ∈ frameAt actions count depth ↔
      index < count ∧ StillOpen actions index count ∧ depthAt actions index = depth ∧
        declaredAt actions index = some name := by
  simp only [frameAt, List.mem_filterMap, List.mem_reverse, List.mem_range]
  constructor
  · rintro ⟨other, before, entry⟩
    split at entry
    · rename_i here
      obtain ⟨declared, found, same⟩ := Option.map_eq_some_iff.mp entry
      obtain ⟨rfl, rfl⟩ := Prod.mk.inj same
      exact ⟨before, here.1, here.2, found⟩
    · exact absurd entry (by simp)
  · rintro ⟨before, isOpen, deep, found⟩
    exact ⟨index, before, by rw [if_pos ⟨isOpen, deep⟩, found]; rfl⟩

/-- A frame lists its declarations with the newest first. -/
theorem frameAt_pairwise (actions : List Action) (count depth : Nat) :
    (frameAt actions count depth).Pairwise fun newer older => older.2 < newer.2 := by
  have numbers : (List.range count).reverse.Pairwise fun newer older => older < newer :=
    List.pairwise_reverse.mpr List.pairwise_lt_range
  refine numbers.filterMap _ (fun newer older less => ?_)
  intro entry found entry' found'
  split at found
  · split at found'
    · obtain ⟨_, -, rfl⟩ := Option.map_eq_some_iff.mp found
      obtain ⟨_, -, rfl⟩ := Option.map_eq_some_iff.mp found'
      exact less
    · exact absurd found' (by simp)
  · exact absurd found (by simp)

theorem framesBelow_succ (actions : List Action) (count depth : Nat) :
    framesBelow actions count (depth + 1) =
      frameAt actions count depth :: framesBelow actions count depth := by
  simp [framesBelow, List.range_succ]

/-! ### One statement more -/

/-- A frame that stays open gets the new declaration if it is the innermost one. -/
theorem frameAt_succ {depth : Nat} (stays : depth ≤ depthAt actions (count + 1)) :
    frameAt actions (count + 1) depth =
      (if depthAt actions count = depth then
        (declaredAt actions count).toList.map fun name => (name, count) else []) ++
      frameAt actions count depth := by
  -- The depth at which the scope stands is reached after the statement too, so it stays open.
  have older : ∀ index ∈ (List.range count).reverse,
      (StillOpen actions index (count + 1) ∧ depthAt actions index = depth ↔
        StillOpen actions index count ∧ depthAt actions index = depth) := by
    intro index before
    rw [List.mem_reverse, List.mem_range] at before
    rw [stillOpen_succ_iff (by omega)]
    constructor
    · exact fun ⟨isOpen, deep⟩ => ⟨isOpen.1, deep⟩
    · exact fun ⟨isOpen, deep⟩ => ⟨⟨isOpen, by omega⟩, deep⟩
  have rest : ((List.range count).reverse.filterMap fun index =>
      if StillOpen actions index (count + 1) ∧ depthAt actions index = depth then
        (declaredAt actions index).map fun name => (name, index)
      else none) = frameAt actions count depth := by
    apply List.filterMap_congr
    intro index before
    simp only [older index before]
  rw [frameAt, List.range_succ, List.reverse_append, List.reverse_singleton, List.singleton_append,
    List.filterMap_cons, rest]
  by_cases inner : depthAt actions count = depth
  · have isOpen : StillOpen actions count (count + 1) :=
      (stillOpen_succ_iff (Nat.le_refl count)).mpr ⟨stillOpen_self actions count, by omega⟩
    rw [if_pos inner, if_pos ⟨isOpen, inner⟩]
    cases declaredAt actions count <;> rfl
  · rw [if_neg inner, if_neg (fun both => inner both.2)]
    rfl

/-- No declaration is open at a depth that is not reached. -/
theorem frameAt_eq_nil {depth : Nat} (deep : depthAt actions count < depth) :
    frameAt actions count depth = [] := by
  rw [List.eq_nil_iff_forall_not_mem]
  rintro ⟨name, index⟩ there
  obtain ⟨before, isOpen, rfl, -⟩ := mem_frameAt.mp there
  have reached := isOpen.depthAt_le (by omega)
  omega

/-- Frames that stay open and get no declaration stay as they are. -/
theorem framesBelow_succ_count {depth : Nat} (stay : depth ≤ depthAt actions (count + 1) + 1)
    (outer : depth ≤ depthAt actions count ∨ declaredAt actions count = none) :
    framesBelow actions (count + 1) depth = framesBelow actions count depth := by
  apply List.map_congr_left
  intro level below
  rw [List.mem_reverse, List.mem_range] at below
  rw [frameAt_succ (by omega)]
  split
  · rename_i inner
    rcases outer with outer | none
    · omega
    · rw [none]
      rfl
  · rfl

end Lexical

/-- What an action makes of the open frames, if `entity` is what its declaration, should it be one,
puts into them. -/
def Scopes.pass {α : Type} (scopes : Scopes α) (action : Action) (entity : α) : Scopes α :=
  match action with
  | .enterScope => scopes.enter
  | .exitScope => (scopes.exit?.map (·.2)).getD scopes
  | action =>
      match action.declares with
      | some name => scopes.declare name entity
      | none => scopes

/-- An action that neither enters nor exits a scope. -/
theorem Scopes.pass_of_declares {α : Type} {action : Action} (enters : action ≠ .enterScope)
    (exits : action ≠ .exitScope) (scopes : Scopes α) (entity : α) :
    scopes.pass action entity =
      match action.declares with
      | some name => scopes.declare name entity
      | none => scopes := by
  cases action with
  | enterScope => exact absurd rfl enters
  | exitScope => exact absurd rfl exits
  | declareBinding | declareReference | rebindReference | assignBinding | assignThrough
  | readBinding | readThrough => rfl

/-- A declaration changes the innermost frame, unless its name is blank. -/
theorem Scopes.pass_of_declaredName {α : Type} {action : Action} {name : String}
    (declared : action.declaredName = some name) (scopes : Scopes α) (entity : α) :
    scopes.pass action entity =
      if Text.isBlank name then scopes else scopes.declare name entity := by
  have enters : action ≠ .enterScope := by
    rintro rfl
    exact absurd declared (by simp [Action.declaredName])
  have exits : action ≠ .exitScope := by
    rintro rfl
    exact absurd declared (by simp [Action.declaredName])
  rw [pass_of_declares enters exits, Action.declares, declared]
  cases blank : Text.isBlank name with
  | false =>
      rw [Option.filter_some_pos (by simp [blank])]
      rfl
  | true =>
      rw [Option.filter_some_neg (by simp [blank])]
      rfl

theorem Scopes.map_pass {α β : Type} (change : α → β) (scopes : Scopes α) (action : Action)
    (entity : α) :
    (scopes.pass action entity).map change = (scopes.map change).pass action (change entity) := by
  by_cases enters : action = .enterScope
  · rw [enters]
    exact map_enter change scopes
  · by_cases exits : action = .exitScope
    · rw [exits]
      simp only [pass, exit?_map]
      cases scopes.exit? <;> rfl
    · rw [pass_of_declares enters exits, pass_of_declares enters exits]
      cases action.declares with
      | none => rfl
      | some name => exact map_declare change scopes name entity

namespace Lexical

variable {actions : List Action} {action : Action} {index count : Nat}

theorem depthAfter_eq (enters : action ≠ .enterScope) (exits : action ≠ .exitScope) (depth : Nat) :
    depthAfter depth action = depth := by
  cases action with
  | enterScope => exact absurd rfl enters
  | exitScope => exact absurd rfl exits
  | declareBinding | declareReference | rebindReference | assignBinding | assignThrough
  | readBinding | readThrough => rfl

/-- **One statement more.** -/
theorem scopesAt_succ (here : actions[count]? = some action) :
    scopesAt actions (count + 1) = (scopesAt actions count).pass action count := by
  have depth := depthAt_succ here
  have declared := declaredAt_of_getElem? here
  by_cases enters : action = .enterScope
  · -- The new frame is empty, for no declaration has ever stood at its depth in this scope.
    subst enters
    have deeper : depthAt actions (count + 1) = depthAt actions count + 1 := depth
    have new := frameAt_succ (Nat.le_of_eq deeper.symm)
    rw [if_neg (by omega), frameAt_eq_nil (Nat.lt_succ_self _), List.nil_append] at new
    have old : framesBelow actions (count + 1) (depthAt actions count + 1) =
        framesBelow actions count (depthAt actions count + 1) :=
      framesBelow_succ_count (by omega) (.inr declared)
    simp only [scopesAt, Scopes.pass, Scopes.enter, deeper, framesBelow_succ _ _ (_ + 1), new, old]
  · by_cases exits : action = .exitScope
    · -- The innermost frame is dropped, unless it is the only one.
      subst exits
      have higher : depthAt actions (count + 1) = depthAt actions count - 1 := depth
      have old : framesBelow actions (count + 1) (depthAt actions (count + 1) + 1) =
          framesBelow actions count (depthAt actions (count + 1) + 1) :=
        framesBelow_succ_count (Nat.le_refl _) (.inr declared)
      unfold scopesAt
      rw [old, higher]
      cases outer : depthAt actions count with
      | zero => rfl
      | succ level =>
          rw [framesBelow_succ _ _ (level + 1), Nat.add_sub_cancel, framesBelow_succ _ _ level]
          rfl
    · have same : depthAt actions (count + 1) = depthAt actions count :=
        depth.trans (depthAfter_eq enters exits _)
      have inner := frameAt_succ (Nat.le_of_eq same.symm)
      rw [if_pos rfl, declared] at inner
      have old : framesBelow actions (count + 1) (depthAt actions count) =
          framesBelow actions count (depthAt actions count) :=
        framesBelow_succ_count (by omega) (.inl (Nat.le_refl _))
      rw [Scopes.pass_of_declares enters exits]
      simp only [scopesAt, same, framesBelow_succ, inner, old]
      cases action.declares with
      | none => rfl
      | some name => rfl

/-- **Any walk.** A stack that starts with an empty frame and that every statement changes as
`Scopes.pass` says is the stack of the history, read through what is put in for each declaration. -/
theorem eq_map_scopesAt {α : Type} (stack : Nat → Scopes α) {entity : Nat → α}
    (start : stack 0 = .root)
    (step : ∀ {index action}, index < count → actions[index]? = some action →
      stack (index + 1) = (stack index).pass action (entity index))
    (bound : count ≤ actions.length) :
    stack count = (scopesAt actions count).map entity := by
  induction count with
  | zero => exact start
  | succ count ih =>
      have here : actions[count]? = some (actions[count]) := List.getElem?_eq_getElem bound
      rw [step (Nat.lt_succ_self count) here, scopesAt_succ here, Scopes.map_pass,
        ih (fun before => step (Nat.lt_succ_of_lt before)) (by omega)]

/-! ## Lookup -/

/-- The statement at `index` is the most recent one before `count` that declares `name` in a scope
that is still open. -/
structure IsLatest (actions : List Action) (count : Nat) (name : String) (index : Nat) : Prop where
  before : index < count
  declared : declaredAt actions index = some name
  isOpen : StillOpen actions index count
  latest : ∀ {other}, index < other → other < count → declaredAt actions other = some name →
    ¬StillOpen actions other count

/-- The search from the back finds the last number with the property. -/
theorem find?_reverse_range_eq_some_iff {holds : Nat → Bool} :
    (List.range count).reverse.find? holds = some index ↔
      index < count ∧ holds index = true ∧
        ∀ other, index < other → other < count → holds other = false := by
  induction count with
  | zero => simp
  | succ count ih =>
      rw [List.range_succ, List.reverse_append, List.reverse_singleton, List.singleton_append,
        List.find?_cons]
      cases last : holds count with
      | true =>
          rw [Option.some.injEq]
          constructor
          · rintro rfl
            exact ⟨by omega, last, by omega⟩
          · rintro ⟨before, -, none⟩
            by_contra other
            have impossible := none count (by omega) (by omega)
            rw [last] at impossible
            exact absurd impossible (by simp)
      | false =>
          rw [ih]
          constructor
          · rintro ⟨before, here, none⟩
            refine ⟨by omega, here, fun other after bound => ?_⟩
            by_cases same : other = count
            · rw [same]
              exact last
            · exact none other after (by omega)
          · rintro ⟨before, here, none⟩
            have different : index ≠ count := by
              rintro rfl
              rw [here] at last
              exact absurd last (by simp)
            exact ⟨by omega, here, fun other after bound => none other after (by omega)⟩

theorem resolve_eq_some_iff {name : String} :
    resolve actions count name = some index ↔ IsLatest actions count name index := by
  rw [resolve, find?_reverse_range_eq_some_iff]
  simp only [decide_eq_true_eq, decide_eq_false_iff_not, not_and]
  constructor
  · rintro ⟨before, ⟨declared, isOpen⟩, latest⟩
    exact ⟨before, declared, isOpen, fun after bound => latest _ after bound⟩
  · intro found
    exact ⟨found.before, ⟨found.declared, found.isOpen⟩, fun _ after bound =>
      found.latest after bound⟩

/-- In a list of pairs with falling numbers the pair found for a name has the greatest number. -/
theorem lookup_eq_some_iff_of_pairwise {name : String} {entries : List (String × Nat)}
    (falling : entries.Pairwise fun newer older => older.2 < newer.2) :
    entries.lookup name = some index ↔
      (name, index) ∈ entries ∧ ∀ other, (name, other) ∈ entries → other ≤ index := by
  induction entries with
  | nil => simp
  | cons entry rest ih =>
      obtain ⟨first, number⟩ := entry
      obtain ⟨greater, falling⟩ := List.pairwise_cons.mp falling
      rw [lookup_cons_ite]
      split
      · rename_i same
        subst same
        rw [Option.some.injEq]
        constructor
        · rintro rfl
          refine ⟨List.mem_cons_self, fun other there => ?_⟩
          rcases List.mem_cons.mp there with here | later
          · exact Nat.le_of_eq (Prod.mk.inj here).2
          · exact Nat.le_of_lt (greater _ later)
        · rintro ⟨there, greatest⟩
          rcases List.mem_cons.mp there with here | later
          · exact (Prod.mk.inj here).2.symm
          · have less := greater _ later
            have atMost := greatest number List.mem_cons_self
            exact absurd less (by simpa using atMost)
      · rename_i different
        rw [ih falling]
        simp [different]

theorem lookup_frameAt_eq_some_iff {depth : Nat} {name : String} :
    List.lookup name (frameAt actions count depth) = some index ↔
      (name, index) ∈ frameAt actions count depth ∧
        ∀ other, (name, other) ∈ frameAt actions count depth → other ≤ index :=
  lookup_eq_some_iff_of_pairwise (frameAt_pairwise actions count depth)

/-- Among the frames up to a depth the declaration found is the most recent one. The induction is on
the depth: what stands in a deeper frame is newer than all that stands further out. -/
theorem findSome?_framesBelow_eq_some_iff {depth : Nat} {name : String} :
    (framesBelow actions count depth).findSome? (List.lookup name) = some index ↔
      (∃ level < depth, (name, index) ∈ frameAt actions count level) ∧
        ∀ level < depth, ∀ other, (name, other) ∈ frameAt actions count level → other ≤ index := by
  induction depth with
  | zero => simp [framesBelow]
  | succ depth ih =>
      rw [framesBelow_succ, List.findSome?_cons]
      cases found : List.lookup name (frameAt actions count depth) with
      | some newest =>
          obtain ⟨there, greatest⟩ := lookup_frameAt_eq_some_iff.mp found
          -- What stands further out is older, since the deeper scope was entered after it.
          have newer : ∀ level < depth + 1, ∀ other, (name, other) ∈ frameAt actions count level →
              other ≤ newest := by
            intro level below other here
            by_cases same : level = depth
            · exact greatest other (same ▸ here)
            · obtain ⟨before, -, deep, -⟩ := mem_frameAt.mp here
              obtain ⟨-, isOpen, deep', -⟩ := mem_frameAt.mp there
              exact Nat.le_of_lt (isOpen.lt_of_depthAt_lt (by omega) (by omega))
          simp only [Option.some.injEq]
          constructor
          · rintro rfl
            exact ⟨⟨depth, by omega, there⟩, newer⟩
          · rintro ⟨⟨level, below, here⟩, greatest'⟩
            exact Nat.le_antisymm (greatest' depth (by omega) newest there)
              (newer level below index here)
      | none =>
          have empty : ∀ other, (name, other) ∉ frameAt actions count depth := by
            intro other there
            rw [List.lookup_eq_none_iff] at found
            exact absurd (found _ there) (by simp)
          simp only [ih]
          constructor
          · rintro ⟨⟨level, below, here⟩, greatest⟩
            refine ⟨⟨level, by omega, here⟩, fun level' below' other there => ?_⟩
            by_cases same : level' = depth
            · exact absurd (same ▸ there) (empty other)
            · exact greatest level' (by omega) other there
          · rintro ⟨⟨level, below, here⟩, greatest⟩
            have different : level ≠ depth := by
              rintro rfl
              exact empty index here
            exact ⟨⟨level, by omega, here⟩, fun level' below' => greatest level' (by omega)⟩

/-- **Lookup is resolution.** -/
theorem lookup_scopesAt (actions : List Action) (count : Nat) (name : String) :
    (scopesAt actions count).lookup name = resolve actions count name := by
  apply Option.ext
  intro index
  rw [resolve_eq_some_iff]
  show (framesBelow actions count _).findSome? (List.lookup name) = some index ↔ _
  rw [findSome?_framesBelow_eq_some_iff]
  constructor
  · rintro ⟨⟨level, -, there⟩, greatest⟩
    obtain ⟨before, isOpen, -, declared⟩ := mem_frameAt.mp there
    refine ⟨before, declared, isOpen, fun after bound declared' isOpen' => ?_⟩
    have reached := isOpen'.depthAt_le (Nat.le_of_lt bound)
    have atMost := greatest _ (by omega) _ (mem_frameAt.mpr ⟨bound, isOpen', rfl, declared'⟩)
    omega
  · intro found
    have reached := found.isOpen.depthAt_le (Nat.le_of_lt found.before)
    refine ⟨⟨depthAt actions index, by omega,
      mem_frameAt.mpr ⟨found.before, found.isOpen, rfl, found.declared⟩⟩, ?_⟩
    intro level _ other there
    obtain ⟨before, isOpen, -, declared⟩ := mem_frameAt.mp there
    by_contra later
    exact found.latest (by omega) before declared isOpen

end Lexical

end Lending
