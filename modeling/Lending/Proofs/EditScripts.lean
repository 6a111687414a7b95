import Lending.Proofs.EditDistance
import Mathlib.Order.MinMax

/-!
# The distance counts edits

A text is edited one character at a time, at any place: a character is inserted, deleted or replaced
(`Edit`). The distance that is computed is the least number of edits that lead from one text to
another:

* **enough** — the choices in the definition of the distance are edits, made from the left to the
  right (`edits_levenshtein`);
* **needed** — one edit changes the distance to any text by one at most (`levenshtein_le_of_edit`),
  also behind a common beginning (`levenshtein_cons_le_of_le`), so that no shorter way exists
  (`levenshtein_le_of_edits`).

Edits can be undone and carried out one after the other, which makes the distance symmetric and
gives it the triangle inequality.
-/

namespace Lending.Text

/-! ## Edits -/

/-- **One edit.** A character is inserted, deleted or replaced between `before` and `after`. -/
inductive Edit : List Char → List Char → Prop
  | insert (before after : List Char) (c : Char) : Edit (before ++ after) (before ++ c :: after)
  | delete (before after : List Char) (c : Char) : Edit (before ++ c :: after) (before ++ after)
  | replace (before after : List Char) (c d : Char) :
      Edit (before ++ c :: after) (before ++ d :: after)

/-- A number of edits, one after the other. -/
inductive Edits : Nat → List Char → List Char → Prop
  | done (text : List Char) : Edits 0 text text
  | more {count : Nat} {first second third : List Char} :
      Edit first second → Edits count second third → Edits (count + 1) first third

variable {count count' : Nat} {first second third : List Char}

theorem Edit.cons (c : Char) (edit : Edit first second) : Edit (c :: first) (c :: second) := by
  cases edit with
  | insert before after d => exact .insert (c :: before) after d
  | delete before after d => exact .delete (c :: before) after d
  | replace before after d e => exact .replace (c :: before) after d e

theorem Edit.symm (edit : Edit first second) : Edit second first := by
  cases edit with
  | insert before after c => exact .delete before after c
  | delete before after c => exact .insert before after c
  | replace before after c d => exact .replace before after d c

theorem Edits.cons (c : Char) (edits : Edits count first second) :
    Edits count (c :: first) (c :: second) := by
  induction edits with
  | done text => exact .done (c :: text)
  | more edit _ ih => exact .more (edit.cons c) ih

theorem Edits.trans (edits : Edits count first second) (edits' : Edits count' second third) :
    Edits (count + count') first third := by
  induction edits with
  | done text => rwa [Nat.zero_add]
  | more edit _ ih =>
      rw [Nat.add_right_comm]
      exact .more edit (ih edits')

theorem Edits.symm (edits : Edits count first second) : Edits count second first := by
  induction edits with
  | done text => exact .done text
  | more edit _ ih => exact ih.trans (.more edit.symm (.done _))

theorem Edits.eq_of_zero (edits : Edits 0 first second) : first = second := by
  cases edits with
  | done text => rfl

/-! ## Enough edits -/

theorem edits_nil_left (target : List Char) : Edits target.length [] target := by
  induction target with
  | nil => exact .done []
  | cons d target ih => exact .more (.insert [] [] d) (ih.cons d)

theorem edits_substitution (c d : Char) (edits : Edits count first second) :
    Edits (count + substitution c d) (c :: first) (d :: second) := by
  by_cases same : c = d
  · rw [same, substitution, if_pos rfl]
    exact edits.cons d
  · rw [substitution, if_neg same]
    exact .more (.replace [] first c d) (edits.cons d)

/-- **So many edits are enough.** What is done to the first characters comes first. -/
theorem edits_levenshtein (source target : List Char) :
    Edits (levenshtein source target) source target := by
  fun_induction levenshtein source target with
  | case1 target => exact edits_nil_left target
  | case2 c source => exact (edits_nil_left (c :: source)).symm
  | case3 c source d target deleted inserted replaced =>
      have deleting := Edits.more (.delete [] source c) deleted
      have inserting := Edits.more (.insert [] (c :: source) d) (inserted.cons d)
      have replacing := edits_substitution c d replaced
      exact min_rec' (Edits · (c :: source) (d :: target))
        (min_rec' (Edits · (c :: source) (d :: target)) deleting inserting) replacing

/-! ## Needed edits -/

theorem levenshtein_self (text : List Char) : levenshtein text text = 0 := by
  induction text with
  | nil => rw [levenshtein_nil_left, List.length_nil]
  | cons c text ih => rw [levenshtein_cons_cons, ih, substitution, if_pos rfl, Nat.min_zero]

theorem substitution_le_one (c d : Char) : substitution c d ≤ 1 := by
  rw [substitution]
  split <;> omega

/-- A first character can be deleted. -/
theorem levenshtein_cons_left_le (c : Char) (source target : List Char) :
    levenshtein (c :: source) target ≤ levenshtein source target + 1 := by
  cases target with
  | nil => simp only [levenshtein_nil_right, List.length_cons, le_refl]
  | cons d target =>
      rw [levenshtein_cons_cons]
      omega

/-- A first character can be inserted. -/
theorem levenshtein_cons_right_le (d : Char) (source target : List Char) :
    levenshtein source (d :: target) ≤ levenshtein source target + 1 := by
  cases source with
  | nil => simp only [levenshtein_nil_left, List.length_cons, le_refl]
  | cons c source =>
      rw [levenshtein_cons_cons]
      omega

/-- A first character can be replaced or kept. -/
theorem levenshtein_cons_cons_le (c d : Char) (source target : List Char) :
    levenshtein (c :: source) (d :: target) ≤ levenshtein source target + substitution c d := by
  rw [levenshtein_cons_cons]
  omega

/-- **At most one edit apart.** Two sources are, from every target, if the first is never far from
what the second leaves when its first character is dealt with. -/
theorem levenshtein_le_cons_of_le {c : Char}
    (deleted : ∀ target, levenshtein first target ≤ levenshtein second target + 2)
    (replaced : ∀ d target,
      levenshtein first (d :: target) ≤ levenshtein second target + substitution c d + 1)
    (target : List Char) :
    levenshtein first target ≤ levenshtein (c :: second) target + 1 := by
  induction target with
  | nil =>
      have longer := deleted []
      simp only [levenshtein_nil_right, List.length_cons] at longer ⊢
      omega
  | cons d target ih =>
      -- The second source may also begin with an insertion, and so may the first one then.
      have inserted := levenshtein_cons_right_le d first target
      have deleted' := deleted (d :: target)
      have replaced' := replaced d target
      rw [levenshtein_cons_cons]
      omega

/-- A character in front of the source saves one edit at most. -/
theorem levenshtein_le_cons_left (c : Char) (source target : List Char) :
    levenshtein source target ≤ levenshtein (c :: source) target + 1 := by
  refine levenshtein_le_cons_of_le (fun target => Nat.le_add_right _ 2) (fun d target => ?_) target
  have inserted := levenshtein_cons_right_le d source target
  omega

/-- So does another first character. -/
theorem levenshtein_cons_le_cons (c d : Char) (source target : List Char) :
    levenshtein (c :: source) target ≤ levenshtein (d :: source) target + 1 := by
  refine levenshtein_le_cons_of_le (fun target => ?_) (fun e target => ?_) target
  · have deleted := levenshtein_cons_left_le c source target
    omega
  · have replaced := levenshtein_cons_cons_le c e source target
    have once := substitution_le_one c e
    omega

/-- **A common first character** does not bring two sources further apart. -/
theorem levenshtein_cons_le_of_le (c : Char)
    (near : ∀ target, levenshtein first target ≤ levenshtein second target + 1)
    (target : List Char) :
    levenshtein (c :: first) target ≤ levenshtein (c :: second) target + 1 := by
  refine levenshtein_le_cons_of_le (fun target => ?_) (fun d target => ?_) target
  · have deleted := levenshtein_cons_left_le c first target
    have apart := near target
    omega
  · have replaced := levenshtein_cons_cons_le c d first target
    have apart := near target
    omega

theorem levenshtein_append_le_of_le (before : List Char)
    (near : ∀ target, levenshtein first target ≤ levenshtein second target + 1)
    (target : List Char) :
    levenshtein (before ++ first) target ≤ levenshtein (before ++ second) target + 1 := by
  induction before generalizing target with
  | nil => exact near target
  | cons c before ih => exact levenshtein_cons_le_of_le c ih target

/-- **One edit changes the distance by one at most.** -/
theorem levenshtein_le_of_edit (edit : Edit first second) (target : List Char) :
    levenshtein first target ≤ levenshtein second target + 1 := by
  cases edit with
  | insert before after c =>
      exact levenshtein_append_le_of_le before (levenshtein_le_cons_left c after) target
  | delete before after c =>
      exact levenshtein_append_le_of_le before (levenshtein_cons_left_le c after) target
  | replace before after c d =>
      exact levenshtein_append_le_of_le before (levenshtein_cons_le_cons c d after) target

/-- **So many edits are needed.** -/
theorem levenshtein_le_of_edits (edits : Edits count first second) :
    levenshtein first second ≤ count := by
  induction edits with
  | done text => rw [levenshtein_self]
  | more edit _ ih => exact (levenshtein_le_of_edit edit _).trans (Nat.succ_le_succ ih)

/-! ## The distance that is computed -/

theorem edits_editDistance (source target : String) :
    Edits (editDistance source target) source.toList target.toList := by
  rw [editDistance_eq_levenshtein]
  exact edits_levenshtein source.toList target.toList

theorem editDistance_le_of_edits {source target : String}
    (edits : Edits count source.toList target.toList) : editDistance source target ≤ count := by
  rw [editDistance_eq_levenshtein]
  exact levenshtein_le_of_edits edits

theorem editDistance_le_swap (source target : String) :
    editDistance source target ≤ editDistance target source :=
  editDistance_le_of_edits (edits_editDistance target source).symm

theorem editDistance_eq_zero_iff (source target : String) :
    editDistance source target = 0 ↔ source = target := by
  constructor
  · intro zero
    have edits := edits_editDistance source target
    rw [zero] at edits
    exact String.toList_inj.mp edits.eq_of_zero
  · rintro rfl
    exact Nat.le_zero.mp (editDistance_le_of_edits (.done _))

/-- **Two rows are enough for the least number of edits.** For any two texts every entry of the rows
that is read or written is there, so that a distance is computed. It is the Levenshtein distance of
their characters, and the least number of insertions, deletions and replacements of one character
that turn the first text into the second. It is zero for equal texts only, the same in both
directions, and never longer than the way through a third text. -/
theorem editDistance_least_edits (source target : String) :
    editDistance? source target = some (editDistance source target) ∧
    editDistance source target = levenshtein source.toList target.toList ∧
    Edits (editDistance source target) source.toList target.toList ∧
    (∀ count, Edits count source.toList target.toList → editDistance source target ≤ count) ∧
    (editDistance source target = 0 ↔ source = target) ∧
    editDistance source target = editDistance target source ∧
    ∀ between, editDistance source target ≤
      editDistance source between + editDistance between target := by
  refine ⟨?_, editDistance_eq_levenshtein source target, edits_editDistance source target,
    fun count edits => editDistance_le_of_edits edits, editDistance_eq_zero_iff source target,
    ?_, ?_⟩
  · rw [editDistance?_eq_some, editDistance_eq_levenshtein]
  · exact Nat.le_antisymm (editDistance_le_swap source target) (editDistance_le_swap target source)
  · intro between
    exact editDistance_le_of_edits
      ((edits_editDistance source between).trans (edits_editDistance between target))

end Lending.Text
