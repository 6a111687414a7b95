import Mathlib.Data.List.Basic

/-!
# Association lists and arrays of records

The state of the checker and that of the machine are kept in lists of pairs, searched from the
front, and in arrays of records of which one entry is changed at a time. What both share:

* **lookup** — the first pair with a key counts (`lookup_cons_ite`);
* **change of one entry** — every other entry stays (`getElem?_modify_ite`), a view of the entries
  that the change respects stays everywhere (`map_getElem?_modify`), and changes that do not get
  into each other's way can be swapped (`modify_comm`), also with a change of all entries
  (`modify_map`).
-/

namespace Lending

/-- A list of pairs is searched from the front. -/
theorem lookup_cons_ite {κ β : Type} [BEq κ] [LawfulBEq κ] [DecidableEq κ] (key first : κ)
    (value : β) (rest : List (κ × β)) :
    ((first, value) :: rest).lookup key = if key = first then some value else rest.lookup key := by
  rw [List.lookup_cons]
  by_cases same : key = first
  · simp [same]
  · rw [if_neg same, beq_eq_false_iff_ne.mpr same]

theorem mem_of_lookup {κ β : Type} [BEq κ] [LawfulBEq κ] {key : κ} {value : β}
    {entries : List (κ × β)} (found : entries.lookup key = some value) :
    (key, value) ∈ entries := by
  obtain ⟨before, after, split, -⟩ := List.lookup_eq_some_iff.mp found
  rw [split]
  simp

variable {α : Type} (values : Array α)

theorem getElem?_modify_ite (index other : Nat) (change : α → α) :
    (values.modify index change)[other]? =
      if other = index then values[index]?.map change else values[other]? := by
  rw [Array.getElem?_modify]
  by_cases same : index = other
  · rw [if_pos same, if_pos same.symm, same]
  · rw [if_neg same, if_neg (Ne.symm same)]

theorem map_getElem?_modify {β : Type} {view : α → β} {change : α → α}
    (kept : ∀ value, view (change value) = view value) (index other : Nat) :
    (values.modify index change)[other]?.map view = values[other]?.map view := by
  rw [getElem?_modify_ite]
  split
  · rename_i same
    rw [same, Option.map_map]
    congr 1
    funext value
    exact kept value
  · rfl

theorem modify_comm {first second : Nat} {change change' : α → α}
    (commute : first = second → ∀ value, change (change' value) = change' (change value)) :
    (values.modify second change').modify first change =
      (values.modify first change).modify second change' := by
  apply Array.ext_getElem?
  intro index
  simp only [Array.getElem?_modify]
  by_cases here : first = index
  · by_cases here' : second = index
    · simp only [if_pos here, if_pos here', Option.map_map]
      congr 1
      funext value
      exact commute (here.trans here'.symm) value
    · simp only [if_pos here, if_neg here']
  · simp only [if_neg here]

theorem modify_map {β : Type} {all : α → β} {change : α → α} {change' : β → β}
    (commute : ∀ value, change' (all value) = all (change value)) (index : Nat) :
    (values.map all).modify index change' = (values.modify index change).map all := by
  apply Array.ext_getElem?
  intro other
  rw [Array.getElem?_map, getElem?_modify_ite, getElem?_modify_ite, Array.getElem?_map,
    Array.getElem?_map]
  split
  · simp only [Option.map_map, Function.comp_def, commute]
  · rfl

end Lending
