import Lending.Proofs.Utf8
import Lending.Text.Lines

/-!
# Lines and columns are what they should be

A byte offset is looked up among the starts of the lines, and its column is counted in characters or
in bytes.

* **search** — halving the range finds an entry or the gap where it would be (`bisectFrom_spec`), so
  that the line is the last one that starts at the offset or before it (`exists_start`);
* **bytes** — a newline is one byte, and no other character has this byte, so that newlines stand at
  the same places in the text and in its bytes (`newline_mem_charOffsets`) and can be counted either
  way (`count_newline`);
* **characters** — at a boundary between characters the text of the line up to the offset is cut out
  (`slice?_eq_some`). Farther boundaries are in a later line or have more characters before them
  (`lineCol_lt`);
* **words** — no number on the way is below 0 or much above the offset (`checkedLineCol_eq`).
-/

namespace Lending.Text

/-! ## Search -/

/-- The entries of an array grow from left to right. -/
def Rising (entries : Array Nat) : Prop :=
  ∀ {i j first second : Nat}, i < j → entries[i]? = some first → entries[j]? = some second →
    first < second

/-- The entries before `low` are smaller than the key, and those from `high` on are larger. -/
structure Parts (entries : Array Nat) (key low high : Nat) : Prop where
  below : ∀ {i entry : Nat}, i < low → entries[i]? = some entry → entry < key
  above : ∀ {i entry : Nat}, high ≤ i → entries[i]? = some entry → key < entry

/-- **Halving the range finds the key.** -/
theorem bisectFrom_spec {entries : Array Nat} (rising : Rising entries) {key low high : Nat}
    (bound : high ≤ entries.size) (ordered : low ≤ high) (parts : Parts entries key low high) :
    (∃ index, bisectFrom entries key low high bound = .hit index ∧ entries[index]? = some key) ∨
    ∃ index, bisectFrom entries key low high bound = .gap index ∧ index ≤ entries.size ∧
      Parts entries key index index := by
  fun_induction bisectFrom entries key low high bound with
  | case1 low high bound nonempty inside equal =>
      exact .inl ⟨_, rfl, by rw [← equal]; exact Array.getElem?_eq_getElem inside⟩
  | case2 low high bound nonempty inside different smaller ih =>
      apply ih (by omega)
      refine ⟨?_, parts.above⟩
      intro i entry before there
      rcases Nat.lt_or_eq_of_le (Nat.le_of_lt_succ before) with earlier | rfl
      · exact (rising earlier there (Array.getElem?_eq_getElem inside)).trans smaller
      · rw [Array.getElem?_eq_getElem inside] at there
        exact Option.some.inj there ▸ smaller
  | case3 low high bound nonempty inside different notSmaller ih =>
      apply ih (by omega)
      refine ⟨parts.below, ?_⟩
      intro i entry after there
      have larger : key < entries[low + (high - low) / 2] := by omega
      rcases Nat.lt_or_eq_of_le after with later | rfl
      · exact larger.trans (rising later (Array.getElem?_eq_getElem inside) there)
      · rw [Array.getElem?_eq_getElem inside] at there
        exact Option.some.inj there ▸ larger
  | case4 low high bound empty =>
      obtain rfl : low = high := by omega
      exact .inr ⟨low, rfl, bound, parts⟩

/-- **The line of an offset is the last one that does not start behind it.** If there is a line at
the front, then there is one before every gap. -/
theorem exists_start {index : LineIndex} (rising : Rising index.starts)
    (front : index.starts[0]? = some 0) (offset : Nat) :
    (∀ next, bisect index.starts offset = .gap next → 1 ≤ next) ∧
    ∃ start, index.starts[index.line offset]? = some start ∧ start ≤ offset ∧
      ∀ {i later : Nat}, index.line offset < i → index.starts[i]? = some later →
        offset < later := by
  have parts : Parts index.starts offset 0 index.starts.size :=
    ⟨fun none => absurd none (Nat.not_lt_zero _), fun beyond there => by
      rw [Array.getElem?_eq_none beyond] at there
      cases there⟩
  rcases bisectFrom_spec rising (Nat.le_refl _) (Nat.zero_le _) parts with
    ⟨line, hit, there⟩ | ⟨next, gap, bound, parts'⟩
  · have found : index.line offset = line := by
      rw [LineIndex.line, bisect, hit]
    refine ⟨fun next gap => ?_, offset, by rw [found, there], Nat.le_refl _, ?_⟩
    · rw [bisect, hit] at gap
      cases gap
    · intro i later after there'
      exact rising (found ▸ after) there there'
  · have found : index.line offset = next - 1 := by
      rw [LineIndex.line, bisect, gap]
    have positive : 1 ≤ next := by
      by_contra zero
      have behind := parts'.above (by omega) front
      omega
    refine ⟨fun next' gap' => ?_, ?_⟩
    · rw [bisect, gap] at gap'
      exact Bisection.gap.inj gap' ▸ positive
    · have there : index.starts[next - 1]? = some index.starts[next - 1] :=
        Array.getElem?_eq_getElem (by omega)
      refine ⟨_, by rw [found, there], Nat.le_of_lt (parts'.below (by omega) there), ?_⟩
      intro i later after there'
      exact parts'.above (by omega) there'

/-! ## Offsets -/

variable {text : String} {chars : List Char}

theorem charOffsets_append (first second : List Char) (base : Nat) :
    charOffsets (first ++ second) base =
      charOffsets first base ++ charOffsets second (base + byteCount first) := by
  induction first generalizing base with
  | nil => rfl
  | cons c rest ih =>
      rw [List.cons_append, charOffsets, ih, charOffsets, byteCount_cons, Nat.add_assoc]
      rfl

/-- Characters start inside the bytes of the text. -/
theorem bounds_of_mem_charOffsets {base : Nat} {entry : Nat × Char}
    (there : entry ∈ charOffsets chars base) :
    base ≤ entry.1 ∧ entry.1 < base + byteCount chars := by
  induction chars generalizing base with
  | nil => cases there
  | cons c rest ih =>
      have positive := c.utf8Size_pos
      rw [byteCount_cons]
      rcases List.mem_cons.mp there with rfl | later
      · exact ⟨Nat.le_refl _, by omega⟩
      · have bounds := ih later
        omega

theorem map_charOffsets (base : Nat) : (charOffsets chars base).map (·.2) = chars := by
  induction chars generalizing base with
  | nil => rfl
  | cons c rest ih => rw [charOffsets, List.map_cons, ih]

theorem pairwise_charOffsets (base : Nat) :
    (charOffsets chars base).Pairwise fun first second => first.1 < second.1 := by
  induction chars generalizing base with
  | nil => exact List.Pairwise.nil
  | cons c rest ih =>
      refine List.pairwise_cons.mpr ⟨?_, ih _⟩
      intro entry there
      have positive := c.utf8Size_pos
      have bounds := bounds_of_mem_charOffsets there
      exact (Nat.lt_add_of_pos_right positive).trans_le bounds.1

/-- An entry splits the text in front of its character. -/
theorem mem_charOffsets_iff {base position : Nat} {c : Char} :
    (position, c) ∈ charOffsets chars base ↔
      ∃ before after, chars = before ++ c :: after ∧ position = base + byteCount before := by
  constructor
  · intro there
    induction chars generalizing base with
    | nil => cases there
    | cons d rest ih =>
        rcases List.mem_cons.mp there with here | later
        · obtain ⟨rfl, rfl⟩ := Prod.mk.inj here
          exact ⟨[], rest, rfl, rfl⟩
        · obtain ⟨before, after, rfl, rfl⟩ := ih later
          exact ⟨d :: before, after, rfl, by rw [byteCount_cons, Nat.add_assoc]⟩
  · rintro ⟨before, after, rfl, rfl⟩
    rw [charOffsets_append]
    exact List.mem_append_right _ List.mem_cons_self

/-! ## Boundaries -/

/-- **An offset between two characters,** or at an end of the text. -/
def Boundary (text : String) (offset : Nat) : Prop :=
  ∃ before after, text = before ++ after ∧ before.utf8ByteSize = offset

theorem boundary_iff {offset : Nat} :
    Boundary text offset ↔
      ∃ before after, text.toList = before ++ after ∧ byteCount before = offset := by
  constructor
  · rintro ⟨before, after, rfl, rfl⟩
    exact ⟨before.toList, after.toList, String.toList_append, (utf8ByteSize_eq before).symm⟩
  · rintro ⟨before, after, split, rfl⟩
    refine ⟨String.ofList before, String.ofList after, ?_, ?_⟩
    · rw [← String.toList_inj, String.toList_append, String.toList_ofList, String.toList_ofList,
        split]
    · rw [utf8ByteSize_eq, String.toList_ofList]

theorem isBoundary_iff {offset : Nat} : isBoundary text offset = true ↔ Boundary text offset := by
  rw [isBoundary, Bool.or_eq_true, beq_iff_eq, List.any_eq_true, boundary_iff]
  constructor
  · rintro (rfl | ⟨entry, there, same⟩)
    · exact ⟨text.toList, [], (List.append_nil _).symm, (utf8ByteSize_eq text).symm⟩
    · obtain ⟨position, c⟩ := entry
      obtain ⟨before, after, split, rfl⟩ := mem_charOffsets_iff.mp there
      exact ⟨before, _, split, by simpa using same⟩
  · rintro ⟨before, after, split, rfl⟩
    cases after with
    | nil =>
        left
        rw [utf8ByteSize_eq, split, List.append_nil]
    | cons c rest =>
        right
        refine ⟨(byteCount before, c), mem_charOffsets_iff.mpr ⟨before, rest, split, by omega⟩, ?_⟩
        exact beq_self_eq_true _

/-- Of two beginnings of a text the one with fewer bytes is the beginning of the other. -/
theorem prefix_of_byteCount_le {first second rest rest' : List Char}
    (same : first ++ rest = second ++ rest') (less : byteCount first ≤ byteCount second) :
    ∃ between, second = first ++ between := by
  rcases List.append_eq_append_iff.mp same with ⟨between, longer, -⟩ | ⟨between, shorter, -⟩
  · exact ⟨between, longer⟩
  · rw [shorter, byteCount_append] at less
    have empty : byteCount between = 0 := by omega
    exact ⟨[], by rw [shorter, eq_nil_of_byteCount empty, List.append_nil, List.append_nil]⟩

section Ranges

variable {base start stop : Nat}

theorem filter_charOffsets_outside (apart : base + byteCount chars ≤ start ∨ stop ≤ base) :
    ((charOffsets chars base).filter fun entry =>
      decide (start ≤ entry.1) && decide (entry.1 < stop)) = [] := by
  rw [List.filter_eq_nil_iff]
  intro entry there
  have bounds := bounds_of_mem_charOffsets there
  simp only [Bool.and_eq_true, decide_eq_true_eq]
  omega

theorem filter_charOffsets_inside (low : start ≤ base) (high : base + byteCount chars ≤ stop) :
    ((charOffsets chars base).filter fun entry =>
      decide (start ≤ entry.1) && decide (entry.1 < stop)) = charOffsets chars base := by
  rw [List.filter_eq_self]
  intro entry there
  have bounds := bounds_of_mem_charOffsets there
  simp only [Bool.and_eq_true, decide_eq_true_eq]
  omega

end Ranges

/-- **What stands between two boundaries is cut out.** -/
theorem slice?_eq_some {before inside after : List Char}
    (split : text.toList = before ++ inside ++ after) :
    slice? text (byteCount before) (byteCount (before ++ inside)) = some inside := by
  have start : isBoundary text (byteCount before) = true :=
    isBoundary_iff.mpr (boundary_iff.mpr ⟨before, inside ++ after, by rw [split]; simp, rfl⟩)
  have stop : isBoundary text (byteCount (before ++ inside)) = true :=
    isBoundary_iff.mpr (boundary_iff.mpr ⟨before ++ inside, after, split, rfl⟩)
  have ordered : byteCount before ≤ byteCount (before ++ inside) := by
    rw [byteCount_append]
    omega
  have entries : (offsets text).filter (fun entry => decide (byteCount before ≤ entry.1) &&
      decide (entry.1 < byteCount (before ++ inside))) =
      charOffsets inside (byteCount before) := by
    rw [offsets, split, charOffsets_append, charOffsets_append, Nat.zero_add, Nat.zero_add,
      List.filter_append, List.filter_append, filter_charOffsets_outside (.inl (by omega)),
      filter_charOffsets_inside (Nat.le_refl _) (by rw [byteCount_append]),
      filter_charOffsets_outside (.inr (Nat.le_refl _)), List.nil_append, List.append_nil]
  rw [slice?, start, stop, decide_eq_true ordered, entries, map_charOffsets]
  rfl

theorem slice?_eq_none {start stop : Nat} (inside : ¬ Boundary text stop) :
    slice? text start stop = none := by
  rw [← isBoundary_iff, Bool.not_eq_true] at inside
  rw [slice?, inside, Bool.and_false]
  rfl

/-! ## Newlines -/

/-- **Newlines are found in the bytes where they are found in the text.** -/
theorem newline_mem_charOffsets {base i : Nat} :
    (base + i, '\n') ∈ charOffsets chars base ↔
      (chars.flatMap String.utf8EncodeChar)[i]? = some newline := by
  induction chars generalizing base i with
  | nil => simp [charOffsets]
  | cons c rest ih =>
      have positive := c.utf8Size_pos
      rw [charOffsets, List.mem_cons, List.flatMap_cons]
      by_cases early : i < c.utf8Size
      · -- Among the bytes of the first character.
        rw [List.getElem?_append_left (by rwa [String.length_utf8EncodeChar])]
        constructor
        · rintro (here | later)
          · obtain ⟨same, rfl⟩ := Prod.mk.inj here
            obtain rfl : i = 0 := by omega
            rfl
          · have behind : base + c.utf8Size ≤ base + i := (bounds_of_mem_charOffsets later).1
            omega
        · intro byte
          obtain rfl := newline_mem_utf8EncodeChar.mp (List.mem_of_getElem? byte)
          have one : ('\n').utf8Size = 1 := by decide
          obtain rfl : i = 0 := by omega
          exact .inl rfl
      · obtain ⟨k, rfl⟩ : ∃ k, i = c.utf8Size + k := ⟨i - c.utf8Size, by omega⟩
        have elsewhere : (base + (c.utf8Size + k), '\n') ≠ (base, c) := by
          intro here
          have same := (Prod.mk.inj here).1
          omega
        rw [List.getElem?_append_right (by rw [String.length_utf8EncodeChar]; omega),
          String.length_utf8EncodeChar, Nat.add_sub_cancel_left, ← Nat.add_assoc, ih,
          Nat.add_assoc, or_iff_right elsewhere]

/-- **Newlines may be counted in the bytes or in the text.** -/
theorem count_newline (chars : List Char) (base offset : Nat) :
    (((charOffsets chars base).filter (·.2 == '\n')).countP fun entry =>
        decide (entry.1 < base + offset)) =
      ((chars.flatMap String.utf8EncodeChar).take offset).count newline := by
  induction chars generalizing base offset with
  | nil => simp [charOffsets]
  | cons c rest ih =>
      have positive := c.utf8Size_pos
      have later : (((charOffsets rest (base + c.utf8Size)).filter (·.2 == '\n')).countP fun entry =>
          decide (entry.1 < base + offset)) =
          ((rest.flatMap String.utf8EncodeChar).take (offset - c.utf8Size)).count newline := by
        rw [← ih (base + c.utf8Size)]
        apply List.countP_congr
        intro entry there
        have bounds := bounds_of_mem_charOffsets (List.mem_of_mem_filter there)
        simp only [decide_eq_true_eq]
        omega
      rw [List.flatMap_cons, List.take_append, List.count_append, String.length_utf8EncodeChar,
        ← later, charOffsets, List.filter_cons]
      by_cases same : c = '\n'
      · rw [same, if_pos (beq_self_eq_true _), List.countP_cons, Nat.add_comm]
        congr 1
        cases offset with
        | zero => simp
        | succ offset => simp [show String.utf8EncodeChar '\n' = [newline] from rfl]
      · have none : ((String.utf8EncodeChar c).take offset).count newline = 0 := by
          rw [List.count_eq_zero]
          intro inside
          exact same (newline_mem_utf8EncodeChar.mp (List.mem_of_mem_take inside))
        rw [if_neg (by simpa using same), none, Nat.zero_add]

/-! ## Lines -/

/-- **The start of the line of an offset:** the front of the text or the byte behind a newline, with
no newline from there up to the offset. -/
structure LineStart (text : String) (offset start : Nat) : Prop where
  le : start ≤ offset
  starts : start = 0 ∨ ∃ position, start = position + 1 ∧ (bytes text)[position]? = some newline
  unbroken : ∀ {i : Nat}, start ≤ i → i < offset → (bytes text)[i]? ≠ some newline

theorem LineStart.unique {offset start start' : Nat} (first : LineStart text offset start)
    (second : LineStart text offset start') : start = start' := by
  rcases Nat.lt_trichotomy start start' with less | same | greater
  · rcases second.starts with rfl | ⟨position, rfl, byte⟩
    · omega
    · have bound := second.le
      exact absurd byte (first.unbroken (by omega) (by omega))
  · exact same
  · rcases first.starts with rfl | ⟨position, rfl, byte⟩
    · omega
    · have bound := first.le
      exact absurd byte (second.unbroken (by omega) (by omega))

/-- The place of the last entry up to a limit says how many there are. -/
theorem countP_eq_of_last {entries : List Nat} (rising : Rising entries.toArray)
    {index last limit : Nat} (there : entries.toArray[index]? = some last) (le : last ≤ limit)
    (beyond : ∀ {i later : Nat}, index < i → entries.toArray[i]? = some later → limit < later) :
    entries.countP (fun entry => decide (entry ≤ limit)) = index + 1 := by
  have bound : index < entries.length := by
    rw [List.getElem?_toArray] at there
    exact (List.getElem?_eq_some_iff.mp there).1
  have up : (entries.take (index + 1)).countP (fun entry => decide (entry ≤ limit)) =
      (entries.take (index + 1)).length := by
    rw [List.countP_eq_length]
    intro entry inside
    obtain ⟨i, place⟩ := List.getElem?_of_mem inside
    rw [List.getElem?_take, ← List.getElem?_toArray] at place
    split at place
    · rename_i before
      rcases Nat.lt_or_eq_of_le (Nat.le_of_lt_succ before) with earlier | rfl
      · have less := rising earlier place there
        exact decide_eq_true (by omega)
      · rw [Option.some.inj (place.symm.trans there)]
        exact decide_eq_true le
    · cases place
  have down : (entries.drop (index + 1)).countP (fun entry => decide (entry ≤ limit)) = 0 := by
    rw [List.countP_eq_zero]
    intro entry inside
    obtain ⟨i, place⟩ := List.getElem?_of_mem inside
    rw [List.getElem?_drop, ← List.getElem?_toArray] at place
    have larger := beyond (by omega) place
    simpa using larger
  rw [← List.take_append_drop (index + 1) entries, List.countP_append, up, down, List.length_take]
  omega

theorem newline_mem_offsets {position : Nat} :
    (position, '\n') ∈ offsets text ↔ (bytes text)[position]? = some newline := by
  rw [bytes_eq_flatMap, ← newline_mem_charOffsets, Nat.zero_add]
  rfl

namespace LineIndex

@[simp]
theorem text_ofText (text : String) : (ofText text).text = text :=
  rfl

theorem mem_starts_iff {start : Nat} :
    start ∈ (ofText text).starts ↔
      start = 0 ∨ ∃ position, start = position + 1 ∧ (bytes text)[position]? = some newline := by
  rw [ofText, List.mem_toArray, List.mem_cons, List.mem_map]
  refine or_congr_right ⟨?_, ?_⟩
  · rintro ⟨entry, there, rfl⟩
    obtain ⟨listed, same⟩ := List.mem_filter.mp there
    obtain ⟨position, c⟩ := entry
    obtain rfl : c = '\n' := beq_iff_eq.mp same
    exact ⟨position, rfl, newline_mem_offsets.mp listed⟩
  · rintro ⟨position, rfl, byte⟩
    exact ⟨(position, '\n'), List.mem_filter.mpr ⟨newline_mem_offsets.mpr byte, rfl⟩, rfl⟩

theorem rising_starts (text : String) : Rising (ofText text).starts := by
  have sorted : (0 :: ((offsets text).filter (·.2 == '\n')).map (·.1 + 1)).Pairwise (· < ·) := by
    refine List.pairwise_cons.mpr ⟨?_, ?_⟩
    · intro start there
      obtain ⟨entry, -, rfl⟩ := List.mem_map.mp there
      omega
    · rw [List.pairwise_map]
      exact ((pairwise_charOffsets 0).filter _).imp (by omega)
  intro i j first second before there there'
  rw [ofText, List.getElem?_toArray, List.getElem?_eq_some_iff] at there there'
  obtain ⟨bound, rfl⟩ := there
  obtain ⟨bound', rfl⟩ := there'
  exact List.pairwise_iff_getElem.mp sorted i j bound bound' before

theorem countP_starts (text : String) (offset : Nat) :
    (0 :: ((offsets text).filter (·.2 == '\n')).map (·.1 + 1)).countP
        (fun entry => decide (entry ≤ offset)) =
      ((bytes text).take offset).count newline + 1 := by
  have counted := count_newline text.toList 0 offset
  rw [bytes_eq_flatMap, ← counted, List.countP_cons, List.countP_map,
    decide_eq_true (Nat.zero_le _), if_pos rfl]
  refine congrArg (· + 1) (List.countP_congr fun entry _ => ?_)
  simp only [Function.comp_apply, decide_eq_true_eq]
  omega

/-- **Lines are counted by the newlines before them.** -/
theorem line_eq_count (text : String) (offset : Nat) :
    (ofText text).line offset = ((bytes text).take offset).count newline := by
  obtain ⟨-, start, there, le, beyond⟩ := exists_start (rising_starts text) rfl offset
  have counted := countP_eq_of_last (rising_starts text) there le beyond
  rw [countP_starts] at counted
  omega

/-- **Lines start where they should.** -/
theorem exists_lineStart (text : String) (offset : Nat) :
    ∃ start, (ofText text).starts[(ofText text).line offset]? = some start ∧
      LineStart text offset start := by
  obtain ⟨-, start, there, le, beyond⟩ := exists_start (rising_starts text) rfl offset
  refine ⟨start, there, le, mem_starts_iff.mp (Array.mem_of_getElem? there), ?_⟩
  intro i after before byte
  obtain ⟨j, there'⟩ := Array.getElem?_of_mem (mem_starts_iff.mpr (.inr ⟨i, rfl, byte⟩))
  -- The line behind this newline would start later, and still not behind the offset.
  have later : (ofText text).line offset < j := by
    rcases Nat.lt_trichotomy j ((ofText text).line offset) with earlier | rfl | later
    · have less := rising_starts text earlier there' there
      omega
    · have same := Option.some.inj (there.symm.trans there')
      omega
    · exact later
  have behind := beyond later there'
  omega

end LineIndex

/-! ## Columns -/

variable {offset start : Nat}

/-- A line starts between two characters. -/
theorem LineStart.exists_split (lineStart : LineStart text offset start) :
    ∃ before after, text.toList = before ++ after ∧ byteCount before = start := by
  rcases lineStart.starts with rfl | ⟨position, rfl, byte⟩
  · exact ⟨[], text.toList, rfl, rfl⟩
  · obtain ⟨before, after, split, rfl⟩ := mem_charOffsets_iff.mp (newline_mem_offsets.mpr byte)
    refine ⟨before ++ ['\n'], after, by rw [split]; simp, ?_⟩
    rw [byteCount_append, Nat.zero_add]
    rfl

/-- **Up to a boundary the line is made of characters.** -/
theorem LineStart.exists_slice (lineStart : LineStart text offset start) {whole after : List Char}
    (split : text.toList = whole ++ after) (size : byteCount whole = offset) :
    ∃ before inside, whole = before ++ inside ∧ byteCount before = start ∧
      slice? text start offset = some inside := by
  obtain ⟨before, rest, split', rfl⟩ := lineStart.exists_split
  obtain ⟨inside, rfl⟩ := prefix_of_byteCount_le (split'.symm.trans split) (size ▸ lineStart.le)
  exact ⟨before, inside, rfl, rfl, size ▸ slice?_eq_some split⟩

theorem lineCol_eq (there : (LineIndex.ofText text).starts[(LineIndex.ofText text).line offset]? =
    some start) :
    lineCol text offset = (((bytes text).take offset).count newline + 1,
      ((slice? text start offset).map List.length).getD (offset - start) + 1) := by
  have found : (LineIndex.ofText text).starts.getD ((LineIndex.ofText text).line offset) 0 =
      start := by
    rw [Array.getD_eq_getD_getElem?, there, Option.getD_some]
  rw [lineCol, LineIndex.lineCol, found, LineIndex.line_eq_count]
  rw [LineIndex.text_ofText]
  cases slice? text start offset <;> rfl

/-- A newline between two offsets is counted before the second and not before the first. -/
theorem count_newline_lt {first second i : Nat} (after : first ≤ i) (before : i < second)
    (byte : (bytes text)[i]? = some newline) :
    ((bytes text).take first).count newline < ((bytes text).take second).count newline := by
  have upTo : ((bytes text).take first).count newline ≤ ((bytes text).take i).count newline :=
    (List.take_prefix_take_left after).sublist.count_le _
  have onward : ((bytes text).take (i + 1)).count newline ≤
      ((bytes text).take second).count newline :=
    (List.take_prefix_take_left before).sublist.count_le _
  have here : ((bytes text).take (i + 1)).count newline =
      ((bytes text).take i).count newline + 1 := by
    rw [List.take_add_one, byte, List.count_append]
    rfl
  omega

/-- As long as no newline is passed the line starts where it did. -/
theorem LineStart.extend {further : Nat} (lineStart : LineStart text offset start)
    (le : offset ≤ further)
    (same : ((bytes text).take offset).count newline =
      ((bytes text).take further).count newline) :
    LineStart text further start := by
  refine ⟨lineStart.le.trans le, lineStart.starts, ?_⟩
  intro i after before byte
  rcases Nat.lt_or_ge i offset with inside | behind
  · exact lineStart.unbroken after inside byte
  · exact absurd same (Nat.ne_of_lt (count_newline_lt behind before byte))

/-- **A farther boundary has a later place:** in a later line, or with more characters before it. -/
theorem lineCol_lt {first second : Nat} (boundary : Boundary text first)
    (boundary' : Boundary text second) (less : first < second) :
    Prod.Lex (· < ·) (· < ·) (lineCol text first) (lineCol text second) := by
  obtain ⟨whole, after, split, rfl⟩ := boundary_iff.mp boundary
  obtain ⟨whole', after', split', rfl⟩ := boundary_iff.mp boundary'
  obtain ⟨start, there, lineStart⟩ := LineIndex.exists_lineStart text (byteCount whole)
  obtain ⟨start', there', lineStart'⟩ := LineIndex.exists_lineStart text (byteCount whole')
  rw [lineCol_eq there, lineCol_eq there']
  have grows : ((bytes text).take (byteCount whole)).count newline ≤
      ((bytes text).take (byteCount whole')).count newline :=
    (List.take_prefix_take_left (Nat.le_of_lt less)).sublist.count_le _
  rcases Nat.lt_or_eq_of_le grows with later | same
  · exact Prod.Lex.left _ _ (Nat.succ_lt_succ later)
  · obtain rfl := (lineStart.extend (Nat.le_of_lt less) same).unique lineStart'
    obtain ⟨before, inside, rfl, rfl, slice⟩ := lineStart.exists_slice split rfl
    obtain ⟨between, rfl⟩ :=
      prefix_of_byteCount_le (split.symm.trans split') (Nat.le_of_lt less)
    have slice' : slice? text (byteCount before) (byteCount (before ++ inside ++ between)) =
        some (inside ++ between) := by
      rw [List.append_assoc]
      exact slice?_eq_some (by rw [split', List.append_assoc before])
    have more : 0 < between.length := by
      rw [List.length_pos_iff]
      rintro rfl
      rw [List.append_nil] at less
      exact Nat.lt_irrefl _ less
    rw [same, slice, slice', Option.map_some, Option.map_some, Option.getD_some, Option.getD_some,
      List.length_append]
    exact Prod.Lex.right _ (by omega)

/-! ## Words -/

/-- The difference of two numbers, if it is none below 0. -/
def difference? (a b : Nat) : Option Nat :=
  if b ≤ a then some (a - b) else none

/-- The sum of two numbers, if it is none above `limit`. -/
def sum? (limit a b : Nat) : Option Nat :=
  if a + b ≤ limit then some (a + b) else none

theorem difference?_eq_some {a b : Nat} (le : b ≤ a) : difference? a b = some (a - b) :=
  if_pos le

theorem sum?_eq_some {limit a b : Nat} (le : a + b ≤ limit) : sum? limit a b = some (a + b) :=
  if_pos le

namespace LineIndex

/-- The line of an offset, if the search does not end before the first one. -/
def checkedLine (index : LineIndex) (offset : Nat) : Option Nat :=
  match bisect index.starts offset with
  | .hit line => some line
  | .gap next => difference? next 1

/-- The place of an offset with numbers up to `limit`. Nothing comes out if a number is too large or
below 0 on the way, or if the line is none of the index. -/
def checkedLineCol (limit : Nat) (index : LineIndex) (offset : Nat) : Option (Nat × Nat) := do
  let line ← index.checkedLine offset
  let start ← index.starts[line]?
  -- The distance is taken also where the characters are counted.
  let distance ← difference? offset start
  let column := ((slice? index.text start offset).map List.length).getD distance
  return (← sum? limit line 1, ← sum? limit column 1)

theorem checkedLine_eq (text : String) (offset : Nat) :
    (ofText text).checkedLine offset = some ((ofText text).line offset) := by
  have positive := (exists_start (rising_starts text) rfl offset).1
  rw [checkedLine, line]
  cases result : bisect (ofText text).starts offset with
  | hit line => rfl
  | gap next => exact difference?_eq_some (positive next result)

end LineIndex

/-- A column is not greater than the distance in bytes. -/
theorem LineStart.column_le (lineStart : LineStart text offset start) :
    ((slice? text start offset).map List.length).getD (offset - start) ≤ offset - start := by
  by_cases boundary : Boundary text offset
  · obtain ⟨whole, after, split, rfl⟩ := boundary_iff.mp boundary
    obtain ⟨before, inside, rfl, rfl, slice⟩ := lineStart.exists_slice split rfl
    have short := length_le_byteCount inside
    rw [slice, Option.map_some, Option.getD_some, byteCount_append]
    omega
  · rw [slice?_eq_none boundary]
    exact Nat.le_refl _

/-- **Words are wide enough.** -/
theorem checkedLineCol_eq {limit : Nat} (small : offset < limit) :
    (LineIndex.ofText text).checkedLineCol limit offset = some (lineCol text offset) := by
  obtain ⟨start, there, lineStart⟩ := LineIndex.exists_lineStart text offset
  have lines : (LineIndex.ofText text).line offset ≤ offset := by
    rw [LineIndex.line_eq_count]
    exact List.count_le_length.trans (List.length_take_le _ _)
  have columns := lineStart.column_le
  rw [lineCol_eq there, ← LineIndex.line_eq_count]
  simp only [LineIndex.checkedLineCol, LineIndex.checkedLine_eq, there, Option.bind_eq_bind,
    Option.bind_some, difference?_eq_some lineStart.le, LineIndex.text_ofText]
  rw [sum?_eq_some (by omega), sum?_eq_some (by omega)]
  rfl

/-! ## Places -/

/-- **The place of an offset,** said without a search. The line is counted in newlines, and the
column in characters, or in bytes where the offset is no boundary between characters. -/
structure PlaceOf (text : String) (offset : Nat) (place : Nat × Nat) : Prop where
  line : place.1 = 1 + ((bytes text).take offset).count newline
  characters : Boundary text offset → ∃ before inside after, text = before ++ inside ++ after ∧
    (before ++ inside).utf8ByteSize = offset ∧ LineStart text offset before.utf8ByteSize ∧
    place.2 = 1 + inside.length
  inBytes : ¬ Boundary text offset → ∃ start, LineStart text offset start ∧
    place.2 = 1 + (offset - start)

theorem placeOf_lineCol (text : String) (offset : Nat) :
    PlaceOf text offset (lineCol text offset) := by
  obtain ⟨start, there, lineStart⟩ := LineIndex.exists_lineStart text offset
  rw [lineCol_eq there]
  refine ⟨Nat.add_comm _ _, ?_, ?_⟩
  · intro boundary
    obtain ⟨whole, after, split, rfl⟩ := boundary_iff.mp boundary
    obtain ⟨before, inside, rfl, rfl, slice⟩ := lineStart.exists_slice split rfl
    refine ⟨String.ofList before, String.ofList inside, String.ofList after, ?_, ?_, ?_, ?_⟩
    · rw [← String.ofList_append, ← String.ofList_append, ← split, String.ofList_toList]
    · rw [← String.ofList_append, utf8ByteSize_eq, String.toList_ofList]
    · rw [utf8ByteSize_eq, String.toList_ofList]
      exact lineStart
    · rw [slice, String.length_ofList]
      exact Nat.add_comm _ _
  · intro inside
    refine ⟨start, lineStart, ?_⟩
    rw [slice?_eq_none inside]
    exact Nat.add_comm _ _

/-- **Lines and columns are right, and tell boundaries apart.** The place of an offset is worked out
in words that hold a number greater than it, and is what it should be. From one boundary between
characters to the next places grow. -/
theorem lineCol_correct (text : String) :
    (∀ offset, PlaceOf text offset (lineCol text offset) ∧
      ∀ limit, offset < limit →
        (LineIndex.ofText text).checkedLineCol limit offset = some (lineCol text offset)) ∧
    (∀ first second, Boundary text first → Boundary text second → first < second →
      Prod.Lex (· < ·) (· < ·) (lineCol text first) (lineCol text second)) ∧
    ∀ first second, Boundary text first → Boundary text second →
      lineCol text first = lineCol text second → first = second := by
  refine ⟨fun offset => ⟨placeOf_lineCol text offset, fun limit => checkedLineCol_eq⟩,
    fun first second => lineCol_lt, ?_⟩
  intro first second boundary boundary' same
  have irreflexive (place : Nat × Nat) : ¬ Prod.Lex (· < ·) (· < ·) place place := by
    rw [Prod.lex_def]
    omega
  rcases Nat.lt_trichotomy first second with less | equal | greater
  · exact absurd (same ▸ lineCol_lt boundary boundary' less) (irreflexive _)
  · exact equal
  · exact absurd (same ▸ lineCol_lt boundary' boundary greater) (irreflexive _)

/-- Two lines with one character of two bytes each. -/
def accented : String := "é\nß"

/-- The end of the text and the byte before it, which is inside of a character, have one place. The
first is counted in characters and the second in bytes, and only the first is a boundary. -/
theorem lineCol_correct_accented :
    lineCol accented 4 = (2, 2) ∧ lineCol accented 5 = (2, 2) ∧
    ¬ Boundary accented 4 ∧ (∃ start, LineStart accented 4 start ∧ 2 = 1 + (4 - start)) ∧
    Boundary accented 2 ∧ Boundary accented 5 ∧
    Prod.Lex (· < ·) (· < ·) (lineCol accented 2) (2, 2) ∧
    (lineCol accented 2 = lineCol accented 5 → 2 = 5) ∧
    5 < 6 ∧ (LineIndex.ofText accented).checkedLineCol 6 5 = some (2, 2) := by
  have inside : lineCol accented 4 = (2, 2) := by decide +kernel
  have atEnd : lineCol accented 5 = (2, 2) := by decide +kernel
  have notBoundary : ¬ Boundary accented 4 := by
    rw [← isBoundary_iff]
    decide
  have boundary : Boundary accented 2 := isBoundary_iff.mp (by decide)
  have boundary' : Boundary accented 5 := isBoundary_iff.mp (by decide)
  have correct := lineCol_correct accented
  refine ⟨inside, atEnd, notBoundary, ?_, boundary, boundary', ?_,
    correct.2.2 2 5 boundary boundary', by decide, ?_⟩
  · have distance := (correct.1 4).1.inBytes notBoundary
    rw [inside] at distance
    exact distance
  · exact atEnd ▸ correct.2.1 2 5 boundary boundary' (by decide)
  · exact atEnd ▸ (correct.1 5).2 6 (by decide)

end Lending.Text
