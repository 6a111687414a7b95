import Lending.Text.EditDistance

/-!
# Rows of distances

The distance between two texts is defined by what is done to their first characters
(`levenshtein`), and the table of distances is filled in by what is done to the last ones. Both
descriptions agree (`levenshtein_snoc_snoc`). While a row is written, the row before holds the
distances to all prefixes of the target, and the row itself those up to a column (`Rows.Filled`);
behind that column stands what was there before, and it is not read. So no entry outside of the rows
is asked for, and the last entry is the distance (`editDistance?_eq_some`).
-/

namespace Lending.Text

/-- What it costs to put one character in the place of another. -/
def substitution (c d : Char) : Nat :=
  if c = d then 0 else 1

/-- **The Levenshtein distance.** A first character is deleted, inserted or replaced, whichever is
best with what is left. -/
def levenshtein : List Char → List Char → Nat
  | [], target => target.length
  | c :: source, [] => (c :: source).length
  | c :: source, d :: target =>
      min (min (levenshtein source (d :: target) + 1) (levenshtein (c :: source) target + 1))
        (levenshtein source target + substitution c d)
termination_by source target => source.length + target.length

theorem levenshtein_nil_left (target : List Char) : levenshtein [] target = target.length := by
  rw [levenshtein]

theorem levenshtein_nil_right (source : List Char) : levenshtein source [] = source.length := by
  cases source with
  | nil => rw [levenshtein]
  | cons c source => rw [levenshtein]

theorem levenshtein_cons_cons (c d : Char) (source target : List Char) :
    levenshtein (c :: source) (d :: target) =
      min (min (levenshtein source (d :: target) + 1) (levenshtein (c :: source) target + 1))
        (levenshtein source target + substitution c d) := by
  rw [levenshtein]

/-! ## The last characters -/

theorem levenshtein_singleton_snoc (c d : Char) (target : List Char) :
    levenshtein [c] (target ++ [d]) =
      min (min (levenshtein [] (target ++ [d]) + 1) (levenshtein [c] target + 1))
        (levenshtein [] target + substitution c d) := by
  induction target with
  | nil => simp only [List.nil_append, levenshtein_cons_cons]
  | cons b target ih =>
      rw [List.cons_append, levenshtein_cons_cons, ih, levenshtein_cons_cons]
      simp only [levenshtein_nil_left, List.length_cons, List.length_append, List.length_nil]
      omega

theorem levenshtein_snoc_singleton (c d : Char) (source : List Char) :
    levenshtein (source ++ [c]) [d] =
      min (min (levenshtein source [d] + 1) (levenshtein (source ++ [c]) [] + 1))
        (levenshtein source [] + substitution c d) := by
  induction source with
  | nil => simp only [List.nil_append, levenshtein_cons_cons]
  | cons a source ih =>
      rw [List.cons_append, levenshtein_cons_cons, ih, levenshtein_cons_cons]
      simp only [levenshtein_nil_right, List.length_cons, List.length_append, List.length_nil]
      omega

/-- **The last characters may be looked at instead of the first ones.** -/
theorem levenshtein_snoc_snoc (c d : Char) (source target : List Char) :
    levenshtein (source ++ [c]) (target ++ [d]) =
      min (min (levenshtein source (target ++ [d]) + 1) (levenshtein (source ++ [c]) target + 1))
        (levenshtein source target + substitution c d) := by
  -- Both sides open at the first characters, and what is left of the texts is smaller there.
  induction source generalizing target with
  | nil => exact levenshtein_singleton_snoc c d target
  | cons a source shorterSource =>
      induction target with
      | nil => exact levenshtein_snoc_singleton c d (a :: source)
      | cons b target shorterTarget =>
          have first := shorterSource (b :: target)
          have both := shorterSource target
          simp only [List.cons_append, levenshtein_cons_cons] at first shorterTarget ⊢
          rw [first, shorterTarget, both]
          -- The same nine ways to go on, in another order.
          simp only [← Nat.add_min_add_right]
          ac_rfl

/-! ## The table -/

namespace Rows

/-- **The row before** holds the distances from a source to the prefixes of a target. Of the row
that is to be written only the width is known. -/
structure Holds (source target : List Char) (rows : Rows) : Prop where
  previous_size : rows.previous.size = target.length + 1
  current_size : rows.current.size = target.length + 1
  previous : ∀ column ≤ target.length,
    rows.previous[column]? = some (levenshtein source (target.take column))

/-- **The row that is written** for one more source character `c` holds its distances up to a
column. -/
structure Filled (source target : List Char) (c : Char) (column : Nat) (rows : Rows) : Prop
    extends Holds source target rows where
  current : ∀ written ≤ column,
    rows.current[written]? = some (levenshtein (source ++ [c]) (target.take written))

variable {source target : List Char} {c : Char} {rows : Rows}

theorem holds_start (target : List Char) : Holds [] target (start target.length) where
  previous_size := by rw [start, Array.size_range]
  current_size := by rw [start, Array.size_replicate]
  previous column inside := by
    rw [start, Array.getElem?_range, if_pos (Nat.lt_succ_of_le inside), levenshtein_nil_left,
      List.length_take, Nat.min_eq_left inside]

/-- Writing changes one entry, if there is one. -/
theorem write?_eq_some {column entry : Nat} (inside : column < rows.current.size) :
    rows.write? column entry =
      some { rows with current := rows.current.set column entry inside } := by
  rw [write?, dif_pos inside]

theorem Holds.write_zero (holds : Holds source target rows) :
    ∃ started, rows.write? 0 (source.length + 1) = some started ∧
      Filled source target c 0 started := by
  have inside : 0 < rows.current.size := by rw [holds.current_size]; omega
  refine ⟨_, write?_eq_some inside, { holds with current_size := ?_, current := ?_ }⟩
  · rw [Array.size_set, holds.current_size]
  · intro written first
    obtain rfl := Nat.le_zero.mp first
    rw [Array.getElem?_set_self, List.take_zero, levenshtein_nil_right, List.length_append,
      List.length_singleton]

/-- **One more entry.** The entry to the left and the two above are there and give the next one. -/
theorem Filled.fill {column : Nat} {t : Char} {rest : List Char}
    (filled : Filled source target c column rows) (ahead : target.drop column = t :: rest) :
    ∃ next, rows.fill? c t column = some next ∧ Filled source target c (column + 1) next := by
  have inside : column < target.length := by
    rw [← Nat.not_le, ← List.drop_eq_nil_iff, ahead]
    exact List.cons_ne_nil t rest
  have here : column + 1 < rows.current.size := by rw [filled.current_size]; omega
  have longer : target.take (column + 1) = target.take column ++ [t] := by
    rw [List.take_add, ahead, List.take_succ_cons, List.take_zero]
  have entry : rows.fill? c t column =
      rows.write? (column + 1) (levenshtein (source ++ [c]) (target.take (column + 1))) := by
    rw [fill?, filled.previous (column + 1) inside, filled.current column (Nat.le_refl column),
      filled.previous column (Nat.le_of_lt inside), longer, levenshtein_snoc_snoc]
    rfl
  refine ⟨_, entry.trans (write?_eq_some here),
    { filled with current_size := ?_, current := ?_ }⟩
  · rw [Array.size_set, filled.current_size]
  · -- Entries further right are older; nothing is known about them, and nothing is claimed.
    intro written upTo
    rcases Nat.le_succ_iff.mp upTo with before | rfl
    · rw [Array.getElem?_set_ne here (by omega), filled.current written before]
    · rw [Array.getElem?_set_self]

/-- **The rest of a row,** entry by entry. -/
theorem Filled.fillFrom {column : Nat} {rest : List Char}
    (filled : Filled source target c column rows) (ahead : target.drop column = rest) :
    ∃ full, fillFrom? c column rest rows = some full ∧
      Filled source target c target.length full := by
  induction rest generalizing column rows with
  | nil =>
      refine ⟨rows, rfl, { filled with current := fun written inside => ?_ }⟩
      exact filled.current written (Nat.le_trans inside (List.drop_eq_nil_iff.mp ahead))
  | cons t rest ih =>
      obtain ⟨next, wrote, filled'⟩ := filled.fill ahead
      have ahead' : target.drop (column + 1) = rest := by
        rw [← List.drop_drop, ahead, List.drop_one, List.tail_cons]
      obtain ⟨full, wrote', filled''⟩ := ih filled' ahead'
      exact ⟨full, by rw [fillFrom?, wrote]; exact wrote', filled''⟩

/-- A full row is the row before of the next one. -/
theorem Filled.swap (filled : Filled source target c target.length rows) :
    Holds (source ++ [c]) target { previous := rows.current, current := rows.previous } where
  previous_size := filled.current_size
  current_size := filled.previous_size
  previous := filled.current

/-- **One more row.** -/
theorem Holds.next (holds : Holds source target rows) (c : Char) :
    ∃ next, rows.next? target source.length c = some next ∧ Holds (source ++ [c]) target next := by
  obtain ⟨started, wrote, filled⟩ := holds.write_zero (c := c)
  obtain ⟨full, wrote', filled'⟩ := filled.fillFrom List.drop_zero
  exact ⟨_, by rw [next?, wrote, Option.bind_eq_bind, Option.bind_some, wrote']; rfl, filled'.swap⟩

/-- **All rows.** -/
theorem Holds.nextFrom (holds : Holds source target rows) (rest : List Char) :
    ∃ last, nextFrom? target source.length rest rows = some last ∧
      Holds (source ++ rest) target last := by
  induction rest generalizing source rows with
  | nil => exact ⟨rows, rfl, by rwa [List.append_nil]⟩
  | cons c rest ih =>
      obtain ⟨next, wrote, holds'⟩ := holds.next c
      obtain ⟨last, wrote', holds''⟩ := ih holds'
      rw [List.length_append, List.length_singleton] at wrote'
      rw [List.append_assoc, List.singleton_append] at holds''
      exact ⟨last, by rw [nextFrom?, wrote]; exact wrote', holds''⟩

end Rows

/-- **The table holds the distance in its last entry,** and every entry that is asked for is
there. -/
theorem editDistance?_eq_some (source target : String) :
    editDistance? source target = some (levenshtein source.toList target.toList) := by
  obtain ⟨last, wrote, holds⟩ := (Rows.holds_start target.toList).nextFrom source.toList
  have entry := holds.previous target.toList.length (Nat.le_refl _)
  rw [List.nil_append, List.take_length] at entry
  exact Option.bind_eq_some_iff.mpr ⟨last, wrote, entry⟩

theorem editDistance_eq_levenshtein (source target : String) :
    editDistance source target = levenshtein source.toList target.toList := by
  rw [editDistance, editDistance?_eq_some, Option.getD_some]

end Lending.Text
