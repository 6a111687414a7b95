import Lending.Scopes
import Lending.Proofs.Containers

/-!
# Laws of scopes

Looking names up in frames and in stacks of frames, and renaming what stands in them. Two stacks
that differ by a function on their entities find the same declarations and open, close and declare
alike (`lookup_map`, `map_enter`, `map_declare`, `exit?_map`); this is how stacks that hold
different facts about the same declarations are compared.

A frame that is opened at some level of nesting stays open as long as the level is kept
(`LevelKept`), whatever it is that opens and closes frames.
-/

namespace Lending

/-! ## Levels of nesting -/

/-- From `index` to `count` the level has never been lower than at `index`. -/
def LevelKept (level : Nat → Nat) (index count : Nat) : Prop :=
  ∀ between ≤ count, index ≤ between → level index ≤ level between

instance (level : Nat → Nat) (index count : Nat) : Decidable (LevelKept level index count) :=
  inferInstanceAs (Decidable (∀ between ≤ count, _))

section LevelKept

variable {level : Nat → Nat} {index count : Nat}

theorem LevelKept.le (kept : LevelKept level index count) (before : index ≤ count) :
    level index ≤ level count :=
  kept count (Nat.le_refl count) before

theorem levelKept_self (level : Nat → Nat) (index : Nat) : LevelKept level index index := by
  intro between last first
  exact Nat.le_of_eq (by rw [Nat.le_antisymm last first])

/-- One step more ends it exactly if the level falls below. -/
theorem levelKept_succ_iff (before : index ≤ count) :
    LevelKept level index (count + 1) ↔
      LevelKept level index count ∧ level index ≤ level (count + 1) := by
  constructor
  · intro kept
    exact ⟨fun between last => kept between (by omega), kept.le (by omega)⟩
  · intro both between last first
    by_cases now : between = count + 1
    · rw [now]
      exact both.2
    · exact both.1 between (by omega) first

end LevelKept

namespace Scopes

/-! ## Changed entities -/

variable {α β : Type}

/-- A frame with `change` applied to its entities. -/
def mapFrame (change : α → β) (frame : Frame α) : Frame β :=
  frame.map fun entry => (entry.1, change entry.2)

/-- The scopes with `change` applied to all entities. -/
def map (change : α → β) (scopes : Scopes α) : Scopes β :=
  { frames := scopes.frames.map (mapFrame change) }

theorem lookup_mapFrame (change : α → β) (frame : Frame α) (name : String) :
    List.lookup name (mapFrame change frame) = (List.lookup name frame).map change := by
  induction frame with
  | nil => rfl
  | cons entry rest ih =>
      obtain ⟨first, entity⟩ := entry
      show List.lookup name ((first, change entity) :: mapFrame change rest) = _
      rw [lookup_cons_ite, lookup_cons_ite, ih]
      split <;> rfl

theorem destructionOrder_mapFrame (change : α → β) (frame : Frame α) :
    destructionOrder (mapFrame change frame) = (destructionOrder frame).map change := by
  simp [destructionOrder, mapFrame]

/-- What a name means is what it meant, changed. -/
theorem lookup_map (change : α → β) (scopes : Scopes α) (name : String) :
    (scopes.map change).lookup name = (scopes.lookup name).map change := by
  obtain ⟨frames⟩ := scopes
  show (frames.map (mapFrame change)).findSome? _ = (frames.findSome? _).map change
  induction frames with
  | nil => rfl
  | cons frame outer ih =>
      rw [List.map_cons, List.findSome?_cons, List.findSome?_cons, lookup_mapFrame, ih]
      cases List.lookup name frame <;> rfl

theorem map_enter (change : α → β) (scopes : Scopes α) :
    scopes.enter.map change = (scopes.map change).enter := rfl

theorem map_declare (change : α → β) (scopes : Scopes α) (name : String) (entity : α) :
    (scopes.declare name entity).map change = (scopes.map change).declare name (change entity) := by
  obtain ⟨frames⟩ := scopes
  cases frames with
  | nil => rfl
  | cons frame outer => rfl

theorem exit?_map (change : α → β) (scopes : Scopes α) :
    (scopes.map change).exit? =
      scopes.exit?.map fun closed => (closed.1.map change, closed.2.map change) := by
  obtain ⟨frames⟩ := scopes
  match frames with
  | [] => rfl
  | [_] => rfl
  | frame :: next :: outer =>
      simp [exit?, map, destructionOrder_mapFrame]

/-- Only the entities that are there count. -/
theorem map_congr {first second : α → β} {scopes : Scopes α}
    (same : ∀ frame ∈ scopes.frames, ∀ entry ∈ frame, first entry.2 = second entry.2) :
    scopes.map first = scopes.map second := by
  have frames : scopes.frames.map (mapFrame first) = scopes.frames.map (mapFrame second) := by
    apply List.map_congr_left
    intro frame inside
    apply List.map_congr_left
    intro entry there
    rw [same frame inside entry there]
  simp only [map, frames]

theorem frames_of_exit? {scopes : Scopes α} {closed : List α × Scopes α}
    (found : scopes.exit? = some closed) :
    ∃ frame next outer, scopes.frames = frame :: next :: outer ∧
      closed = (destructionOrder frame, { frames := next :: outer }) := by
  unfold exit? at found
  split at found
  · rename_i frame next outer stack
    exact ⟨frame, next, outer, stack, (Option.some.inj found).symm⟩
  · exact absurd found (by simp)

/-! ## What is found -/

/-- What a name means stands in one of the open frames, as what the name means there. -/
theorem exists_frame_of_lookup {scopes : Scopes α} {name : String} {entity : α}
    (found : scopes.lookup name = some entity) :
    ∃ frame ∈ scopes.frames, List.lookup name frame = some entity :=
  List.exists_of_findSome?_eq_some found

/-- What a name means in the innermost frame alone stands there. -/
theorem exists_frame_of_lookupInner {scopes : Scopes α} {name : String} {entity : α}
    (found : scopes.lookupInner name = some entity) :
    ∃ frame ∈ scopes.frames, List.lookup name frame = some entity := by
  unfold lookupInner at found
  split at found
  · rename_i frame outer stack
    exact ⟨frame, by simp [stack], found⟩
  · exact absurd found (by simp)

theorem mem_destructionOrder {frame : Frame α} {name : String} {entity : α}
    (there : (name, entity) ∈ frame) : entity ∈ destructionOrder frame :=
  List.mem_map_of_mem there

theorem mem_destructionOrder_of_lookup {frame : Frame α} {name : String} {entity : α}
    (found : List.lookup name frame = some entity) : entity ∈ destructionOrder frame :=
  mem_destructionOrder (mem_of_lookup found)

theorem mem_flatMap_of_lookup {scopes : Scopes α} {name : String} {entity : α}
    (meaning : scopes.lookup name = some entity) :
    entity ∈ scopes.frames.flatMap destructionOrder := by
  obtain ⟨frame, inside, found⟩ := exists_frame_of_lookup meaning
  exact List.mem_flatMap.mpr ⟨frame, inside, mem_destructionOrder_of_lookup found⟩

end Scopes

end Lending
