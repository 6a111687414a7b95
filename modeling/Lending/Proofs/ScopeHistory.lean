import Lending.Proofs.Scopes
import Mathlib.Data.List.Forall2
import Mathlib.Data.List.Nodup
import Mathlib.Data.List.Sort
import Mathlib.Data.Nat.Init

/-!
# Scopes as a function of their calls

What a stack of frames tells is said here of the calls made to it alone: how many frames are open
after some of them (`openAt`), whether the frame in which a declaration was made is among these
(`StillOpen`), and which declarations a call takes away with their frames (`closedBy`). The calls
may come in any order, also behind a `finish`, when no frame is open and a declaration is lost.

* **layers** — each frame lists, newest first, the declarations that were made in it, and the
  frames together all those that are open (`Layered`). One call keeps this (`Layered.succ`), so
  it holds after any number of them;
* **names** — in a frame or in all of them the newest declaration of a name is found
  (`lookup_eq_some_iff_of_falling`);
* **blocks** — the frames around one that stays open are not touched (`exists_inner_perform`).
-/

namespace Lending

namespace Scopes

variable {α : Type}

/-- A call that changes the scopes. -/
inductive Call (α : Type) where
  | enter
  | declare (name : String) (entity : α)
  | exit
  | finish
deriving DecidableEq, Repr

/-- The name and the entity that a call declares. -/
def Call.declaration? : Call α → Option (String × α)
  | .declare name entity => some (name, entity)
  | _ => none

/-- The scopes after a call. -/
def perform (scopes : Scopes α) : Call α → Scopes α
  | .enter => scopes.enter
  | .declare name entity => scopes.declare name entity
  | .exit => (scopes.exit?.map (·.2)).getD scopes
  | .finish => scopes.finish.2

/-- The scopes after the first `count` calls. -/
def after (calls : List (Call α)) (count : Nat) : Scopes α :=
  (calls.take count).foldl perform root

/-! ## The calls alone -/

/-- How many frames are open after a call. The last one is closed by `finish` only. -/
def openAfter (frames : Nat) : Call α → Nat
  | .enter => frames + 1
  | .declare _ _ => frames
  | .exit => if frames ≤ 1 then frames else frames - 1
  | .finish => 0

/-- How many frames are open after the first `count` calls. -/
def openAt (calls : List (Call α)) (count : Nat) : Nat :=
  (calls.take count).foldl openAfter 1

/-- The frame that is the innermost one after `index` calls is still open after `count`: since then
there have never been fewer frames. -/
abbrev StillOpen (calls : List (Call α)) (index count : Nat) : Prop :=
  LevelKept (openAt calls) index count

/-- The innermost frame after `count` calls is the one that it was after `index`. -/
def SameFrame (calls : List (Call α)) (index count : Nat) : Prop :=
  StillOpen calls index count ∧ openAt calls index = openAt calls count

/-- What the call at `index` declares. Without an open frame nothing is declared. -/
def declaredAt (calls : List (Call α)) (index : Nat) : Option (String × α) :=
  if openAt calls index = 0 then none else calls[index]?.bind Call.declaration?

/-- The declarations that the call at `count` takes away with their frames, newest first. -/
def closedBy (calls : List (Call α)) (count : Nat) : List Nat :=
  (List.range count).reverse.filter fun index =>
    (declaredAt calls index).isSome ∧ StillOpen calls index count ∧
      ¬StillOpen calls index (count + 1)

/-- Of the declarations of `name` before `count` that are `among` those asked for, the most recent
one is that of `entity`. -/
def Latest (calls : List (Call α)) (count : Nat) (among : Nat → Prop) (name : String)
    (entity : α) : Prop :=
  ∃ index < count, among index ∧ declaredAt calls index = some (name, entity) ∧
    ∀ later < count, index < later → among later →
      ∀ other, declaredAt calls later ≠ some (name, other)

variable {calls : List (Call α)} {call : Call α} {count index : Nat}

theorem after_succ (here : calls[count]? = some call) :
    after calls (count + 1) = (after calls count).perform call := by
  rw [after, List.take_add_one, here, Option.toList_some, List.foldl_append]
  rfl

theorem after_succ_of_none (ended : calls[count]? = none) :
    after calls (count + 1) = after calls count := by
  rw [after, List.take_add_one, ended, Option.toList_none, List.append_nil]
  rfl

theorem openAt_succ (here : calls[count]? = some call) :
    openAt calls (count + 1) = openAfter (openAt calls count) call := by
  rw [openAt, List.take_add_one, here, Option.toList_some, List.foldl_append]
  rfl

theorem openAt_succ_of_none (ended : calls[count]? = none) :
    openAt calls (count + 1) = openAt calls count := by
  rw [openAt, List.take_add_one, ended, Option.toList_none, List.append_nil]
  rfl

theorem openAt_pos_of_declaredAt (declared : (declaredAt calls index).isSome) :
    0 < openAt calls index := by
  apply Nat.pos_of_ne_zero
  intro none
  rw [declaredAt, if_pos none] at declared
  exact absurd declared (by simp)

theorem declaredAt_of_getElem? (here : calls[index]? = some call) :
    declaredAt calls index = if openAt calls index = 0 then none else call.declaration? := by
  rw [declaredAt, here]
  rfl

theorem declaredAt_eq_none (here : calls[index]? = some call)
    (silent : call.declaration? = none) : declaredAt calls index = none := by
  rw [declaredAt_of_getElem? here, silent, ite_self]

/-- A declaration leaves all frames open. -/
theorem openAt_succ_of_declaredAt (declared : (declaredAt calls index).isSome) :
    openAt calls (index + 1) = openAt calls index := by
  have frames := openAt_pos_of_declaredAt declared
  cases here : calls[index]? with
  | none => exact openAt_succ_of_none here
  | some call =>
      rw [declaredAt_of_getElem? here, if_neg (by omega)] at declared
      cases call with
      | declare name entity => exact openAt_succ here
      | enter | exit | finish => exact absurd declared (by simp [Call.declaration?])

/-! ## Open declarations -/

/-- A declaration has been made, and its frame is open. -/
structure IsOpen (calls : List (Call α)) (count index : Nat) : Prop where
  before : index < count
  declared : (declaredAt calls index).isSome
  isOpen : StillOpen calls index count

theorem IsOpen.openAt_le (opened : IsOpen calls count index) :
    openAt calls index ≤ openAt calls count :=
  opened.isOpen.le (Nat.le_of_lt opened.before)

theorem isOpen_succ_of_none (silent : declaredAt calls count = none) :
    IsOpen calls (count + 1) index ↔
      IsOpen calls count index ∧ openAt calls index ≤ openAt calls (count + 1) := by
  constructor
  · intro opened
    have different : index ≠ count := by
      intro same
      have declared := opened.declared
      rw [same, silent] at declared
      exact absurd declared (by simp)
    have before : index < count := Nat.lt_of_le_of_ne (Nat.le_of_lt_succ opened.before) different
    obtain ⟨isOpen, high⟩ := (levelKept_succ_iff (Nat.le_of_lt before)).mp opened.isOpen
    exact ⟨⟨before, opened.declared, isOpen⟩, high⟩
  · intro both
    obtain ⟨⟨before, declared, isOpen⟩, high⟩ := both
    exact ⟨by omega, declared, (levelKept_succ_iff (by omega)).mpr ⟨isOpen, high⟩⟩

theorem isOpen_succ_of_isSome (declares : (declaredAt calls count).isSome) :
    IsOpen calls (count + 1) index ↔ index = count ∨ IsOpen calls count index := by
  have same := openAt_succ_of_declaredAt declares
  constructor
  · intro opened
    by_cases newest : index = count
    · exact .inl newest
    · have before : index < count := by
        have bound := opened.before
        omega
      obtain ⟨isOpen, -⟩ := (levelKept_succ_iff (Nat.le_of_lt before)).mp opened.isOpen
      exact .inr ⟨before, opened.declared, isOpen⟩
  · intro either
    obtain rfl | ⟨before, declared, isOpen⟩ := either
    · refine ⟨Nat.lt_succ_self index, declares, ?_⟩
      exact (levelKept_succ_iff (Nat.le_refl index)).mpr
        ⟨levelKept_self (openAt calls) index, Nat.le_of_eq same.symm⟩
    · refine ⟨by omega, declared, (levelKept_succ_iff (by omega)).mpr ⟨isOpen, ?_⟩⟩
      rw [same]
      exact isOpen.le (Nat.le_of_lt before)

theorem mem_closedBy_iff :
    index ∈ closedBy calls count ↔
      IsOpen calls count index ∧ openAt calls (count + 1) < openAt calls index := by
  simp only [closedBy, List.mem_filter, List.mem_reverse, List.mem_range, decide_eq_true_eq]
  constructor
  · intro closed
    obtain ⟨before, declared, isOpen, closes⟩ := closed
    refine ⟨⟨before, declared, isOpen⟩, ?_⟩
    by_contra high
    exact closes ((levelKept_succ_iff (Nat.le_of_lt before)).mpr ⟨isOpen, Nat.le_of_not_lt high⟩)
  · intro both
    obtain ⟨⟨before, declared, isOpen⟩, low⟩ := both
    refine ⟨before, declared, isOpen, ?_⟩
    intro kept
    have high := kept.le (by omega)
    omega

/-- As long as there are no fewer frames, nothing is closed. -/
theorem closedBy_eq_nil (kept : openAt calls count ≤ openAt calls (count + 1)) :
    closedBy calls count = [] := by
  rw [List.eq_nil_iff_forall_not_mem]
  intro index closed
  obtain ⟨opened, low⟩ := mem_closedBy_iff.mp closed
  have high := opened.openAt_le
  omega

/-- Newest first, which is also inner frames first. -/
theorem closedBy_pairwise (calls : List (Call α)) (count : Nat) :
    (closedBy calls count).Pairwise fun newer older =>
      newer > older ∧ openAt calls older ≤ openAt calls newer := by
  have numbers : (List.range count).reverse.Pairwise (· > ·) :=
    List.pairwise_reverse.mpr List.pairwise_lt_range
  refine (numbers.filter _).imp_of_mem ?_
  intro newer older there there' later
  obtain ⟨opened, -⟩ := mem_closedBy_iff.mp there
  obtain ⟨opened', -⟩ := mem_closedBy_iff.mp there'
  exact ⟨later, opened'.isOpen newer (Nat.le_of_lt opened.before) (Nat.le_of_lt later)⟩

/-- Only an exit or the finish closes frames. -/
theorem closer_of_mem_closedBy (closed : index ∈ closedBy calls count) :
    calls[count]? = some .exit ∨ calls[count]? = some .finish := by
  by_contra other
  have kept : openAt calls count ≤ openAt calls (count + 1) := by
    cases here : calls[count]? with
    | none => exact Nat.le_of_eq (openAt_succ_of_none here).symm
    | some call =>
        rw [openAt_succ here]
        cases call with
        | enter => exact Nat.le_succ _
        | declare name entity => exact Nat.le_refl _
        | exit => exact absurd (.inl here) other
        | finish => exact absurd (.inr here) other
  rw [closedBy_eq_nil kept] at closed
  exact absurd closed (by simp)

/-- A frame that the call at `count` does not take away is open after it if it was before. -/
theorem stillOpen_succ_of_not_closed (declared : (declaredAt calls index).isSome)
    (kept : index ∉ closedBy calls count) :
    StillOpen calls index (count + 1) ↔ StillOpen calls index count := by
  by_cases before : index < count
  · refine (levelKept_succ_iff (Nat.le_of_lt before)).trans ?_
    constructor
    · exact fun both => both.1
    · intro isOpen
      refine ⟨isOpen, ?_⟩
      by_contra low
      exact kept (mem_closedBy_iff.mpr ⟨⟨before, declared, isOpen⟩, Nat.lt_of_not_le low⟩)
  · -- The declaration is yet to be made, or is made just now.
    have isOpen : ∀ last ≤ count + 1, StillOpen calls index last := by
      intro last bound between inside first
      by_cases same : between = index
      · rw [same]
      · have next : between = index + 1 := by omega
        rw [next, openAt_succ_of_declaredAt declared]
    exact iff_of_true (isOpen (count + 1) (Nat.le_refl _)) (isOpen count (Nat.le_succ count))

/-- **Once.** The calls up to `count` have taken a declaration away once if its frame is closed, and
not at all as long as it is open. -/
theorem count_closed (declared : (declaredAt calls index).isSome) (count : Nat) :
    ((List.range count).flatMap (closedBy calls)).count index =
      if StillOpen calls index count then 0 else 1 := by
  induction count with
  | zero =>
      have isOpen : StillOpen calls index 0 := by
        intro between last first
        have same : between = index := by omega
        rw [same]
      rw [if_pos isOpen]
      rfl
  | succ count ih =>
      have nodup : (closedBy calls count).Nodup :=
        (closedBy_pairwise calls count).imp fun order => Nat.ne_of_gt order.1
      rw [List.range_succ, List.flatMap_append, List.count_append, ih, List.flatMap_singleton,
        nodup.count]
      by_cases closed : index ∈ closedBy calls count
      · obtain ⟨opened, low⟩ := mem_closedBy_iff.mp closed
        have gone : ¬StillOpen calls index (count + 1) := by
          intro kept
          have high := kept.le (Nat.le_succ_of_le (Nat.le_of_lt opened.before))
          omega
        rw [if_pos opened.isOpen, if_pos closed, if_neg gone]
      · rw [if_neg closed, Nat.add_zero]
        simp only [stillOpen_succ_of_not_closed declared closed]

/-! ## Layers -/

theorem length_perform (scopes : Scopes α) (call : Call α) :
    (scopes.perform call).frames.length = openAfter scopes.frames.length call := by
  obtain ⟨frames⟩ := scopes
  cases call with
  | enter => rfl
  | declare name entity => cases frames <;> rfl
  | exit =>
      match frames with
      | [] => rfl
      | [_] => rfl
      | frame :: next :: outer => simp [perform, exit?, openAfter]
  | finish => rfl

theorem length_frames (calls : List (Call α)) (count : Nat) :
    (after calls count).frames.length = openAt calls count := by
  induction count with
  | zero => rfl
  | succ count ih =>
      cases here : calls[count]? with
      | none => rw [after_succ_of_none here, openAt_succ_of_none here, ih]
      | some call => rw [after_succ here, openAt_succ here, length_perform, ih]

/-- Each layer holds what was declared when it was the innermost one. -/
def Levels (calls : List (Call α)) : List (List Nat) → Prop
  | [] => True
  | layer :: outer =>
      (∀ index ∈ layer, openAt calls index = outer.length + 1) ∧ Levels calls outer

theorem Levels.openAt_le {layers : List (List Nat)} (levels : Levels calls layers)
    (inside : index ∈ layers.flatten) : openAt calls index ≤ layers.length := by
  induction layers with
  | nil => simp at inside
  | cons layer outer ih =>
      rw [List.flatten_cons, List.mem_append] at inside
      obtain here | further := inside
      · exact Nat.le_of_eq (levels.1 index here)
      · exact Nat.le_succ_of_le (ih levels.2 further)

/-- The frames are layers of open declarations, given by the numbers of their calls. -/
structure Layered (calls : List (Call α)) (count : Nat) (layers : List (List Nat)) : Prop where
  frames : List.Forall₂ (fun frame layer => frame.map some = layer.map (declaredAt calls))
    (after calls count).frames layers
  levels : Levels calls layers
  falling : layers.flatten.Pairwise (· > ·)
  mem_iff : ∀ index, index ∈ layers.flatten ↔ IsOpen calls count index

theorem Layered.length {layers : List (List Nat)} (layered : Layered calls count layers) :
    layers.length = openAt calls count := by
  rw [← layered.frames.length_eq, length_frames]

theorem Layered.exists_eq_cons_cons {layers : List (List Nat)}
    (layered : Layered calls count layers) (many : 1 < openAt calls count) :
    ∃ layer next outer, layers = layer :: next :: outer := by
  rw [← layered.length] at many
  match layers, many with
  | layer :: next :: outer, _ => exact ⟨layer, next, outer, rfl⟩

/-- A call that declares nothing and closes nothing. -/
theorem Layered.of_kept {layers : List (List Nat)} (layered : Layered calls count layers)
    (silent : declaredAt calls count = none) (frames : after calls (count + 1) = after calls count)
    (same : openAt calls (count + 1) = openAt calls count) :
    Layered calls (count + 1) layers where
  frames := frames ▸ layered.frames
  levels := layered.levels
  falling := layered.falling
  mem_iff := by
    intro index
    rw [layered.mem_iff, isOpen_succ_of_none silent, same]
    constructor
    · intro opened
      exact ⟨opened, opened.openAt_le⟩
    · exact fun both => both.1

theorem Layered.enter {layers : List (List Nat)} (layered : Layered calls count layers)
    (here : calls[count]? = some .enter) : Layered calls (count + 1) ([] :: layers) where
  frames := by
    rw [after_succ here]
    exact .cons rfl layered.frames
  levels := ⟨by simp, layered.levels⟩
  falling := layered.falling
  mem_iff := by
    intro index
    have silent : declaredAt calls count = none := declaredAt_eq_none here rfl
    have more : openAt calls (count + 1) = openAt calls count + 1 := openAt_succ here
    rw [List.flatten_cons, List.nil_append, layered.mem_iff, isOpen_succ_of_none silent, more]
    constructor
    · intro opened
      exact ⟨opened, Nat.le_succ_of_le opened.openAt_le⟩
    · exact fun both => both.1

theorem Layered.declare {layer : List Nat} {outer : List (List Nat)} {name : String} {entity : α}
    (layered : Layered calls count (layer :: outer))
    (here : calls[count]? = some (.declare name entity)) :
    Layered calls (count + 1) ((count :: layer) :: outer) := by
  have level : openAt calls count = outer.length + 1 := layered.length.symm
  have declared : declaredAt calls count = some (name, entity) := by
    rw [declaredAt_of_getElem? here, if_neg (by omega)]
    rfl
  have mem_iff : ∀ index,
      index ∈ ((count :: layer) :: outer).flatten ↔ IsOpen calls (count + 1) index := by
    intro index
    rw [isOpen_succ_of_isSome (by simp [declared]), ← layered.mem_iff]
    simp
  refine ⟨?_, ⟨?_, layered.levels.2⟩, ?_, mem_iff⟩
  · obtain ⟨frame, rest, told, others, stack⟩ := List.forall₂_cons_right_iff.mp layered.frames
    rw [after_succ here]
    simp only [perform, Scopes.declare, stack]
    refine .cons ?_ others
    rw [List.map_cons, List.map_cons, told, declared]
  · intro index inside
    obtain rfl | older := List.mem_cons.mp inside
    · exact level
    · exact layered.levels.1 index older
  · refine List.pairwise_cons.mpr ⟨?_, layered.falling⟩
    intro index inside
    exact ((layered.mem_iff index).mp inside).before

theorem Layered.exit {layer next : List Nat} {outer : List (List Nat)}
    (layered : Layered calls count (layer :: next :: outer))
    (here : calls[count]? = some .exit) : Layered calls (count + 1) (next :: outer) := by
  have level : openAt calls count = outer.length + 2 := layered.length.symm
  have fewer : openAt calls (count + 1) = outer.length + 1 := by
    rw [openAt_succ here, openAfter, if_neg (by omega)]
    omega
  have silent : declaredAt calls count = none := declaredAt_eq_none here rfl
  refine ⟨?_, layered.levels.2, ?_, ?_⟩
  · obtain ⟨frame, _, -, others, stack⟩ := List.forall₂_cons_right_iff.mp layered.frames
    obtain ⟨frame', rest, -, -, rfl⟩ := List.forall₂_cons_right_iff.mp others
    have closed : (after calls count).perform .exit = ⟨frame' :: rest⟩ := by
      simp [perform, exit?, stack]
    rw [after_succ here, closed]
    exact others
  · exact (List.pairwise_append.mp layered.falling).2.1
  · intro index
    rw [isOpen_succ_of_none silent, ← layered.mem_iff, fewer]
    constructor
    · intro inside
      exact ⟨List.mem_append_right layer inside, layered.levels.2.openAt_le inside⟩
    · intro both
      obtain ⟨inside, low⟩ := both
      obtain inner | further := List.mem_append.mp inside
      · have high : openAt calls index = outer.length + 2 := layered.levels.1 index inner
        omega
      · exact further

theorem layered_finish (here : calls[count]? = some .finish) :
    Layered calls (count + 1) [] where
  frames := by
    rw [after_succ here]
    exact .nil
  levels := trivial
  falling := .nil
  mem_iff := by
    intro index
    have silent : declaredAt calls count = none := declaredAt_eq_none here rfl
    have none : openAt calls (count + 1) = 0 := openAt_succ here
    rw [isOpen_succ_of_none silent, none]
    constructor
    · intro inside
      exact absurd inside (by simp)
    · intro both
      have frames := openAt_pos_of_declaredAt both.1.declared
      exact absurd both.2 (by omega)

theorem exit?_of_length_le {scopes : Scopes α} (few : scopes.frames.length ≤ 1) :
    scopes.exit? = none := by
  obtain ⟨frames⟩ := scopes
  match frames, few with
  | [], _ => rfl
  | [_], _ => rfl

theorem exit_refused (here : calls[count]? = some .exit) (few : openAt calls count ≤ 1) :
    (after calls count).exit? = none ∧ after calls (count + 1) = after calls count ∧
      openAt calls (count + 1) = openAt calls count := by
  have answer : (after calls count).exit? = none := exit?_of_length_le (by rwa [length_frames])
  refine ⟨answer, ?_, ?_⟩
  · rw [after_succ here, perform, answer]
    rfl
  · rw [openAt_succ here, openAfter, if_pos few]

/-- **One call more.** -/
theorem Layered.succ {layers : List (List Nat)} (layered : Layered calls count layers) :
    ∃ later, Layered calls (count + 1) later := by
  cases here : calls[count]? with
  | none =>
      have silent : declaredAt calls count = none := by simp [declaredAt, here]
      exact ⟨layers, layered.of_kept silent (after_succ_of_none here) (openAt_succ_of_none here)⟩
  | some call =>
      cases call with
      | enter => exact ⟨[] :: layers, layered.enter here⟩
      | declare name entity =>
          cases layers with
          | cons layer outer => exact ⟨(count :: layer) :: outer, layered.declare here⟩
          | nil =>
              -- No frame is open, so the declaration is lost.
              have none : openAt calls count = 0 := layered.length.symm
              have empty : (after calls count).frames = [] :=
                List.forall₂_nil_right_iff.mp layered.frames
              refine ⟨[], layered.of_kept ?_ ?_ (openAt_succ here)⟩
              · rw [declaredAt, if_pos none]
              · rw [after_succ here, perform, Scopes.declare, empty]
      | exit =>
          have silent : declaredAt calls count = none := declaredAt_eq_none here rfl
          by_cases few : openAt calls count ≤ 1
          · obtain ⟨-, kept, same⟩ := exit_refused here few
            exact ⟨layers, layered.of_kept silent kept same⟩
          · obtain ⟨layer, next, outer, rfl⟩ := layered.exists_eq_cons_cons (Nat.lt_of_not_le few)
            exact ⟨next :: outer, layered.exit here⟩
      | finish => exact ⟨[], layered_finish here⟩

theorem exists_layered (calls : List (Call α)) (count : Nat) :
    ∃ layers, Layered calls count layers := by
  induction count with
  | zero =>
      refine ⟨[[]], .cons rfl .nil, ⟨by simp, trivial⟩, .nil, ?_⟩
      intro index
      constructor
      · intro inside
        exact absurd inside (by simp)
      · intro opened
        exact absurd opened.before (Nat.not_lt_zero index)
  | succ count ih =>
      obtain ⟨layers, layered⟩ := ih
      exact layered.succ

/-- The innermost layer holds the open declarations that were made when there were as many frames
as now. -/
theorem Layered.mem_layer_iff {layer : List Nat} {outer : List (List Nat)}
    (layered : Layered calls count (layer :: outer)) :
    index ∈ layer ↔ IsOpen calls count index ∧ openAt calls index = openAt calls count := by
  have level : openAt calls count = outer.length + 1 := layered.length.symm
  rw [← layered.mem_iff, List.flatten_cons, List.mem_append]
  constructor
  · intro inside
    exact ⟨.inl inside, (layered.levels.1 index inside).trans level.symm⟩
  · intro both
    obtain ⟨inner | further, same⟩ := both
    · exact inner
    · have low := layered.levels.2.openAt_le further
      omega

/-! ## Names -/

theorem lookup_eq_lookup_flatten (scopes : Scopes α) (name : String) :
    scopes.lookup name = List.lookup name scopes.frames.flatten := by
  obtain ⟨frames⟩ := scopes
  show frames.findSome? (List.lookup name) = List.lookup name frames.flatten
  induction frames with
  | nil => rfl
  | cons frame outer ih =>
      rw [List.findSome?_cons, List.flatten_cons, List.lookup_append, ih]
      cases List.lookup name frame <;> rfl

theorem map_flatten_of_forall₂ {declared : Nat → Option (String × α)} {frames : List (Frame α)}
    {layers : List (List Nat)}
    (told : List.Forall₂ (fun frame layer => frame.map some = layer.map declared) frames layers) :
    frames.flatten.map some = layers.flatten.map declared := by
  induction told with
  | nil => rfl
  | cons here _ ih =>
      rw [List.flatten_cons, List.flatten_cons, List.map_append, List.map_append, here, ih]

/-- Declarations that are listed with the newest first are searched from the newest one on. -/
theorem lookup_eq_some_iff_of_falling {declared : Nat → Option (String × α)}
    {entries : List (String × α)} {indices : List Nat} {name : String} {entity : α}
    (told : entries.map some = indices.map declared) (falling : indices.Pairwise (· > ·)) :
    List.lookup name entries = some entity ↔
      ∃ index ∈ indices, declared index = some (name, entity) ∧
        ∀ later ∈ indices, index < later → ∀ other, declared later ≠ some (name, other) := by
  induction indices generalizing entries with
  | nil =>
      rw [List.map_nil, List.map_eq_nil_iff] at told
      simp [told]
  | cons newest rest ih =>
      cases entries with
      | nil => exact absurd told (by simp)
      | cons entry entries =>
          obtain ⟨first, found⟩ := entry
          rw [List.map_cons, List.map_cons, List.cons.injEq] at told
          obtain ⟨greatest, falling⟩ := List.pairwise_cons.mp falling
          rw [lookup_cons_ite]
          by_cases same : name = first
          · subst same
            rw [if_pos rfl, Option.some.injEq]
            constructor
            · intro equal
              refine ⟨newest, List.mem_cons_self, by rw [← told.1, equal], ?_⟩
              intro later inside behind
              obtain rfl | older := List.mem_cons.mp inside
              · omega
              · have less := greatest later older
                omega
            · intro latest
              obtain ⟨index, inside, declares, last⟩ := latest
              obtain rfl | older := List.mem_cons.mp inside
              · rw [← told.1] at declares
                exact (Prod.mk.inj (Option.some.inj declares)).2
              · have none := last newest List.mem_cons_self (greatest index older) found
                exact absurd told.1.symm none
          · have different : ∀ other, declared newest ≠ some (name, other) := by
              intro other declares
              rw [← told.1] at declares
              exact same (Prod.mk.inj (Option.some.inj declares)).1.symm
            rw [if_neg same, ih told.2 falling]
            constructor
            · intro latest
              obtain ⟨index, inside, declares, last⟩ := latest
              refine ⟨index, List.mem_cons_of_mem newest inside, declares, ?_⟩
              intro later inside'
              obtain rfl | older := List.mem_cons.mp inside'
              · exact fun _ => different
              · exact last later older
            · intro latest
              obtain ⟨index, inside, declares, last⟩ := latest
              obtain rfl | older := List.mem_cons.mp inside
              · exact absurd declares (different entity)
              · exact ⟨index, older, declares, fun later inside' =>
                  last later (List.mem_cons_of_mem newest inside')⟩

theorem lookup_eq_some_iff_latest {entries : List (String × α)} {indices : List Nat}
    {among : Nat → Prop} {name : String} {entity : α}
    (told : entries.map some = indices.map (declaredAt calls))
    (falling : indices.Pairwise (· > ·))
    (members : ∀ index, index ∈ indices ↔
      index < count ∧ (declaredAt calls index).isSome ∧ among index) :
    List.lookup name entries = some entity ↔ Latest calls count among name entity := by
  rw [lookup_eq_some_iff_of_falling told falling]
  constructor
  · intro latest
    obtain ⟨index, inside, declares, last⟩ := latest
    obtain ⟨before, -, within⟩ := (members index).mp inside
    refine ⟨index, before, within, declares, ?_⟩
    intro later before' behind within' other declares'
    have inside' := (members later).mpr ⟨before', by rw [declares']; rfl, within'⟩
    exact last later inside' behind other declares'
  · intro latest
    obtain ⟨index, before, within, declares, last⟩ := latest
    refine ⟨index, (members index).mpr ⟨before, by rw [declares]; rfl, within⟩, declares, ?_⟩
    intro later inside' behind
    obtain ⟨before', -, within'⟩ := (members later).mp inside'
    exact last later before' behind within'

theorem lookup_after (calls : List (Call α)) (count : Nat) (name : String) (entity : α) :
    (after calls count).lookup name = some entity ↔
      Latest calls count (StillOpen calls · count) name entity := by
  obtain ⟨layers, layered⟩ := exists_layered calls count
  rw [lookup_eq_lookup_flatten]
  refine lookup_eq_some_iff_latest (map_flatten_of_forall₂ layered.frames) layered.falling ?_
  intro index
  rw [layered.mem_iff]
  constructor
  · exact fun opened => ⟨opened.before, opened.declared, opened.isOpen⟩
  · exact fun opened => ⟨opened.1, opened.2.1, opened.2.2⟩

theorem lookupInner_after (calls : List (Call α)) (count : Nat) (name : String) (entity : α) :
    (after calls count).lookupInner name = some entity ↔
      Latest calls count (SameFrame calls · count) name entity := by
  obtain ⟨layers, layered⟩ := exists_layered calls count
  cases layers with
  | nil =>
      -- No frame is open, and there has been no declaration without one.
      have none : openAt calls count = 0 := layered.length.symm
      have empty : (after calls count).frames = [] := List.forall₂_nil_right_iff.mp layered.frames
      simp only [lookupInner, empty]
      constructor
      · intro found
        exact absurd found (by simp)
      · intro latest
        obtain ⟨index, -, same, declares, -⟩ := latest
        have declared : (declaredAt calls index).isSome := by
          rw [declares]
          rfl
        have frames := openAt_pos_of_declaredAt declared
        have equal := same.2
        omega
  | cons layer outer =>
      obtain ⟨frame, rest, told, -, stack⟩ := List.forall₂_cons_right_iff.mp layered.frames
      simp only [lookupInner, stack]
      refine lookup_eq_some_iff_latest told (List.pairwise_append.mp layered.falling).1 ?_
      intro index
      rw [layered.mem_layer_iff]
      constructor
      · intro both
        exact ⟨both.1.before, both.1.declared, both.1.isOpen, both.2⟩
      · intro both
        exact ⟨⟨both.1, both.2.1, both.2.2.1⟩, both.2.2.2⟩

/-! ## Closing -/

/-- The entity that the call at `index` declares. -/
def entityAt (calls : List (Call α)) (index : Nat) : Option α :=
  (declaredAt calls index).map (·.2)

theorem map_destructionOrder {frame : Frame α} {layer : List Nat}
    (told : frame.map some = layer.map (declaredAt calls)) :
    (destructionOrder frame).map some = layer.map (entityAt calls) := by
  calc (destructionOrder frame).map some
      = (frame.map some).map (Option.map (·.2)) := by simp [destructionOrder]
    _ = layer.map (entityAt calls) := by
        rw [told, List.map_map]
        rfl

theorem eq_closedBy {layer : List Nat} (falling : layer.Pairwise (· > ·))
    (members : ∀ index, index ∈ layer ↔
      IsOpen calls count index ∧ openAt calls (count + 1) < openAt calls index) :
    layer = closedBy calls count := by
  have falling' : (closedBy calls count).Pairwise (· > ·) :=
    (closedBy_pairwise calls count).imp fun order => order.1
  refine falling.eq_of_mem_iff falling' ?_
  intro index
  rw [members, mem_closedBy_iff]

/-- An exit closes the innermost frame of several. -/
theorem exit?_after (here : calls[count]? = some .exit) (many : 1 < openAt calls count) :
    ∃ entities, (after calls count).exit? = some (entities, after calls (count + 1)) ∧
      entities.map some = (closedBy calls count).map (entityAt calls) := by
  obtain ⟨layers, layered⟩ := exists_layered calls count
  obtain ⟨layer, next, outer, rfl⟩ := layered.exists_eq_cons_cons many
  have fewer : openAt calls (count + 1) = openAt calls count - 1 := by
    rw [openAt_succ here, openAfter, if_neg (Nat.not_le_of_lt many)]
  have closed : layer = closedBy calls count := by
    refine eq_closedBy (List.pairwise_append.mp layered.falling).1 ?_
    intro index
    rw [layered.mem_layer_iff, fewer]
    constructor
    · intro both
      exact ⟨both.1, by omega⟩
    · intro both
      have high := both.1.openAt_le
      exact ⟨both.1, by omega⟩
  obtain ⟨frame, _, told, others, stack⟩ := List.forall₂_cons_right_iff.mp layered.frames
  obtain ⟨frame', rest, -, -, rfl⟩ := List.forall₂_cons_right_iff.mp others
  refine ⟨destructionOrder frame, ?_, closed ▸ map_destructionOrder told⟩
  rw [after_succ here]
  simp [perform, exit?, stack]

/-- The finish closes all frames. -/
theorem finish_after (here : calls[count]? = some .finish) :
    (after calls count).finish.2 = after calls (count + 1) ∧
      (after calls count).finish.1.map some = (closedBy calls count).map (entityAt calls) := by
  obtain ⟨layers, layered⟩ := exists_layered calls count
  have none : openAt calls (count + 1) = 0 := openAt_succ here
  have closed : layers.flatten = closedBy calls count := by
    refine eq_closedBy layered.falling ?_
    intro index
    rw [layered.mem_iff, none]
    constructor
    · exact fun opened => ⟨opened, openAt_pos_of_declaredAt opened.declared⟩
    · exact fun both => both.1
  have entities : (after calls count).finish.1 =
      destructionOrder (after calls count).frames.flatten := List.map_flatten.symm
  refine ⟨(after_succ here).symm, ?_⟩
  rw [entities, ← closed]
  exact map_destructionOrder (map_flatten_of_forall₂ layered.frames)

/-! ## Blocks -/

/-- As long as more frames are open than those of `outer`, these are not touched. -/
theorem exists_inner_perform {scopes : Scopes α} {inner outer : List (Frame α)} {call : Call α}
    (stack : scopes.frames = inner ++ outer) (nonempty : inner ≠ [])
    (many : outer.length < (scopes.perform call).frames.length) :
    ∃ inner', inner' ≠ [] ∧ (scopes.perform call).frames = inner' ++ outer := by
  obtain ⟨frame, rest, rfl⟩ := List.exists_cons_of_ne_nil nonempty
  cases call with
  | enter => exact ⟨[] :: frame :: rest, by simp, by rw [perform, Scopes.enter, stack]; rfl⟩
  | declare name entity =>
      refine ⟨((name, entity) :: frame) :: rest, by simp, ?_⟩
      simp only [perform, Scopes.declare, stack, List.cons_append]
  | exit =>
      cases answer : scopes.exit? with
      | none => exact ⟨frame :: rest, by simp, by simpa [perform, answer] using stack⟩
      | some closed =>
          have left : (scopes.perform .exit).frames = rest ++ outer := by
            obtain ⟨frames⟩ := scopes
            obtain rfl : frames = frame :: (rest ++ outer) := stack
            cases further : rest ++ outer with
            | nil => simp [exit?, further] at answer
            | cons next others => simp [perform, exit?]
          refine ⟨rest, ?_, left⟩
          intro last
          rw [left, last] at many
          exact Nat.lt_irrefl _ many
  | finish => exact absurd many (Nat.not_lt_zero _)

/-- **A block leaves nothing behind.** -/
theorem after_block {start stop : Nat} (enters : calls[start]? = some .enter)
    (exits : calls[stop]? = some .exit) (before : start < stop) (frames : 0 < openAt calls start)
    (same : SameFrame calls (start + 1) stop) : after calls (stop + 1) = after calls start := by
  have more : openAt calls (start + 1) = openAt calls start + 1 := openAt_succ enters
  have around : ∀ count, start + 1 ≤ count → count ≤ stop →
      ∃ inner, inner ≠ [] ∧ (after calls count).frames = inner ++ (after calls start).frames := by
    intro count first
    induction count, first using Nat.le_induction with
    | base =>
        intro _
        exact ⟨[[]], by simp, by rw [after_succ enters]; rfl⟩
    | succ count first ih =>
        intro last
        obtain ⟨inner, nonempty, stack⟩ := ih (by omega)
        cases here : calls[count]? with
        | none => exact ⟨inner, nonempty, by rw [after_succ_of_none here, stack]⟩
        | some call =>
            have high := same.1 (count + 1) last (by omega)
            have lengths := length_frames calls (count + 1)
            rw [after_succ here] at lengths ⊢
            refine exists_inner_perform stack nonempty ?_
            rw [lengths, length_frames]
            omega
  obtain ⟨inner, -, stack⟩ := around stop before (Nat.le_refl stop)
  have lengths := length_frames calls stop
  rw [stack, List.length_append, length_frames, ← same.2, more] at lengths
  obtain ⟨frame, rfl⟩ := List.length_eq_one_iff.mp (show inner.length = 1 by omega)
  rw [after_succ exits]
  have outer := length_frames calls start
  cases rest : (after calls start).frames with
  | nil =>
      rw [rest] at outer
      exact absurd outer (by simpa using Nat.ne_of_lt frames)
  | cons next others =>
      rw [rest] at stack
      simp only [perform, exit?, stack]
      show (⟨next :: others⟩ : Scopes α) = after calls start
      rw [← rest]

/-- What the scopes tell along a run of calls, and what they answer to each. -/
structure LexicalStack (calls : List (Call α)) : Prop where
  length_frames : ∀ count, (after calls count).frames.length = openAt calls count
  /-- A name means its most recent declaration in a frame that is still open. -/
  lookup_iff : ∀ count name entity, (after calls count).lookup name = some entity ↔
    Latest calls count (StillOpen calls · count) name entity
  /-- What a declaration shadows is the most recent one of its name in the same frame. -/
  lookupInner_iff : ∀ count name entity, (after calls count).lookupInner name = some entity ↔
    Latest calls count (SameFrame calls · count) name entity
  /-- An exit hands out what was declared in the frame that it closes. -/
  exit : ∀ count, calls[count]? = some .exit → 1 < openAt calls count →
    ∃ entities, (after calls count).exit? = some (entities, after calls (count + 1)) ∧
      entities.map some = (closedBy calls count).map (entityAt calls)
  /-- With at most one open frame it is refused and changes nothing. -/
  refused : ∀ count, calls[count]? = some .exit → openAt calls count ≤ 1 →
    (after calls count).exit? = none ∧ after calls (count + 1) = after calls count ∧
      closedBy calls count = []
  /-- The finish hands out what was declared in all frames. -/
  finish : ∀ count, calls[count]? = some .finish →
    (after calls count).finish.2 = after calls (count + 1) ∧
      (after calls count).finish.1.map some = (closedBy calls count).map (entityAt calls)
  /-- What is closed is listed with the newest first, and with inner frames first. -/
  ordered : ∀ count, (closedBy calls count).Pairwise fun newer older =>
    newer > older ∧ openAt calls older ≤ openAt calls newer
  closer : ∀ count index, index ∈ closedBy calls count →
    calls[count]? = some .exit ∨ calls[count]? = some .finish
  /-- Each declaration is handed out once, when its frame is closed, and never before. -/
  once : ∀ count index, (declaredAt calls index).isSome →
    ((List.range count).flatMap (closedBy calls)).count index =
      if StillOpen calls index count then 0 else 1
  /-- Entering a frame and exiting the same one restores what was before. -/
  block : ∀ start stop, calls[start]? = some .enter → calls[stop]? = some .exit → start < stop →
    0 < openAt calls start → SameFrame calls (start + 1) stop →
    after calls (stop + 1) = after calls start

/-- **The scopes are a lexical stack**, whatever calls are made to them. -/
theorem lexical_stack (calls : List (Call α)) : LexicalStack calls where
  length_frames := Scopes.length_frames calls
  lookup_iff := lookup_after calls
  lookupInner_iff := lookupInner_after calls
  exit := fun _ => exit?_after
  refused := by
    intro count here few
    obtain ⟨answer, kept, same⟩ := exit_refused here few
    exact ⟨answer, kept, closedBy_eq_nil (Nat.le_of_eq same.symm)⟩
  finish := fun _ => finish_after
  ordered := closedBy_pairwise calls
  closer := fun _ _ => closer_of_mem_closedBy
  once := fun count _ declared => count_closed declared count
  block := fun _ _ => after_block

/-- A block with a shadowed declaration and a block of its own, an exit too many, and calls behind
the finish: a declaration that is lost and a frame that no exit closes. -/
def reopened : List (Call Nat) :=
  [.declare "x" 10, .enter, .declare "x" 11, .declare "x" 12, .enter, .exit, .declare "y" 13, .exit,
    .exit, .finish, .declare "z" 14, .enter, .exit]

theorem lexical_stack_reopened :
    (after reopened 7).exit? = some ([13, 12, 11], after reopened 1) ∧
      after reopened 9 = after reopened 8 ∧
      (after reopened 9).finish.1.map some = [some 10] ∧
      (after reopened 12).exit? = none := by
  obtain ⟨entities, answer, told⟩ := (lexical_stack reopened).exit 7 rfl (by decide)
  have restored : after reopened 8 = after reopened 1 :=
    (lexical_stack reopened).block 1 7 rfl rfl (by decide) (by decide) ⟨by decide, by decide⟩
  have closed : (closedBy reopened 7).map (entityAt reopened) = [13, 12, 11].map some := by decide
  have listed : entities = [13, 12, 11] :=
    (Option.some_injective Nat).list_map (told.trans closed)
  refine ⟨?_, ?_, ?_, ?_⟩
  · rw [answer, restored, listed]
  · exact ((lexical_stack reopened).refused 8 rfl (by decide)).2.1
  · rw [((lexical_stack reopened).finish 9 rfl).2]
    decide
  · exact ((lexical_stack reopened).refused 12 rfl (by decide)).1

end Scopes

end Lending
