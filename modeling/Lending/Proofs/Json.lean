import Lending.Datum.Json.Printer
import Lending.Datum.Json.Reader
import Mathlib.Data.List.TakeWhile

/-!
# JSON text is read back

A datum that is written as JSON, on one line or over several, is read as the same datum, as long as
no more brackets are open at once than the reader takes up (`Plain.read?_of_spells`). The data in
question are those for which JSON has a form of their own (`Plain`).

Both ways of writing give the same tokens and differ in the spaces between them:

* **characters** — a text between quotes, and a number, is read back character by character
  (`exists_pieces_of_escaped`, `number?_toString`);
* **tokens** — characters that spell tokens (`Spells`) are split into these (`Spells.scan_eq`), and
  both ways of writing spell those of the datum (`Plain.spells_compact`, `Plain.spells_pretty`);
* **data** — the tokens of a datum, among open brackets, put this datum in its place
  (`Plain.readsAs`);
* **brackets** — how many of them are open at once is said of the characters alone
  (`openBrackets`), and it is the nesting of what is written (`Plain.openBrackets_of_spells`).
-/

namespace Lending

/-! ## Data that can be written -/

/-- A datum for which JSON has a form of its own, and that this form is read as. -/
inductive Json.Plain : Datum → Prop
  | null : Plain .null
  | bool (value : Bool) : Plain (.bool value)
  | int {value : Int} : -9223372036854775808 ≤ value → value ≤ 18446744073709551615 →
      Plain (.int value)
  | text (value : String) : Plain (.text value)
  | list {items : List Datum} : (∀ item ∈ items, Plain item) → Plain (.list items)
  | record {fields : Fields} : (∀ field ∈ fields, Plain field.2) → Plain (.record fields)

namespace Datum

mutual

/-- How deep lists and records are nested. -/
def nesting : Datum → Nat
  | .list items => nestingItems items + 1
  | .record fields => nestingFields fields + 1
  | _ => 0

/-- The greatest nesting of an item. -/
def nestingItems : List Datum → Nat
  | [] => 0
  | item :: rest => max item.nesting (nestingItems rest)

/-- The greatest nesting of the value of a member. -/
def nestingFields : List (String × Datum) → Nat
  | [] => 0
  | (_, value) :: rest => max value.nesting (nestingFields rest)

end

end Datum

namespace Json

/-! ## Strings -/

theorem digitValue?_hexDigit (value : Nat) :
    Decimal.digitValue? (hexDigit value) = some (value % 16) := by
  have all : ∀ digit < 16, Decimal.digitValue? (Nat.digitChar digit) = some digit := by decide
  exact all (value % 16) (Nat.mod_lt value (by decide))

/-- A unit that is no half of a surrogate pair stands for the character of its number. -/
theorem assemble_unit {code : Nat} (small : code < 0x20) (done : List Char) (rest : List Piece) :
    assemble done (.unit code :: rest) = assemble (Char.ofNat code :: done) rest := by
  have high : isHighSurrogate code = false := by
    simp only [isHighSurrogate, Bool.and_eq_false_iff, decide_eq_false_iff_not]
    omega
  have low : isLowSurrogate code = false := by
    simp only [isLowSurrogate, Bool.and_eq_false_iff, decide_eq_false_iff_not]
    omega
  cases rest with
  | nil => simp [assemble, high, low]
  | cons piece rest => cases piece <;> simp [assemble, high, low]

/-- The piece is put together as the character `c`. -/
def Piece.StandsFor (piece : Piece) (c : Char) : Prop :=
  ∀ done rest, assemble done (piece :: rest) = assemble (c :: done) rest

/-- **A character is read back**: as it is, by its short escape, or by its number. -/
theorem exists_piece_of_escapeChar (c : Char) :
    ∃ piece : Piece, piece.StandsFor c ∧
      ∀ done rest, pieces done (escapeChar c ++ rest) = pieces (piece :: done) rest := by
  have itself : (Piece.char c).StandsFor c := fun done rest => by rw [assemble]
  unfold escapeChar
  split
  iterate 7 exact ⟨.char _, itself, fun done rest => by simp [pieces, shortEscape?]⟩
  rename_i quote backslash _ _ _ _ _
  split
  · rename_i control
    refine ⟨.unit c.toNat, fun done rest => ?_, fun done rest => ?_⟩
    · rw [assemble_unit control, Char.ofNat_toNat]
    · have code : hex4? '0' '0' (hexDigit (c.toNat / 16)) (hexDigit c.toNat) = some c.toNat := by
        have zero : Decimal.digitValue? '0' = some 0 := by decide
        simp only [hex4?, zero, digitValue?_hexDigit, Option.bind_eq_bind, Option.bind_some,
          Option.pure_def, Option.some.injEq]
        omega
      simp only [List.cons_append, List.nil_append, pieces, code]
  · rename_i visible
    refine ⟨.char c, itself, fun done rest => ?_⟩
    simp only [List.cons_append, List.nil_append]
    rw [pieces]
    · rw [if_neg visible]
    · exact quote
    · exact fun _ _ _ _ _ same => absurd same backslash
    · exact fun _ _ same => absurd same backslash

/-- What stands between the quotes of a written text is read as pieces that make up the text. -/
theorem exists_pieces_of_escaped (text : List Char) (done : List Piece) (rest : List Char) :
    ∃ found, pieces done (text.flatMap escapeChar ++ '"' :: rest) =
        some (done.reverse ++ found, rest) ∧
      ∀ before, assemble before found = some (String.ofList (before.reverse ++ text)) := by
  induction text generalizing done with
  | nil =>
      refine ⟨[], ?_, fun before => ?_⟩
      · rw [List.append_nil]
        rfl
      · rw [List.append_nil]
        rfl
  | cons c text ih =>
      obtain ⟨piece, standsFor, read⟩ := exists_piece_of_escapeChar c
      obtain ⟨found, read', made⟩ := ih (piece :: done)
      refine ⟨piece :: found, ?_, fun before => ?_⟩
      · rw [List.flatMap_cons, List.append_assoc, read, read']
        simp
      · rw [standsFor, made]
        simp

/-! ## Numbers -/

theorem isDigit_of_mem_toDigits {number : Nat} {c : Char} (there : c ∈ Nat.toDigits 10 number) :
    c.isDigit = true :=
  Nat.isDigit_of_mem_toDigits (by decide) (by decide) there

theorem digitValue?_of_isDigit {c : Char} (digit : c.isDigit = true) :
    Decimal.digitValue? c = some (c.toNat - '0'.toNat) :=
  if_pos (Char.isDigit_iff_toNat.mp digit)

theorem ofDigits_toDigits (number : Nat) :
    Decimal.ofDigits 10 (Nat.toDigits 10 number) = number := by
  have digits : ∀ (chars : List Char) (start : Nat), (∀ c ∈ chars, c.isDigit = true) →
      chars.foldl (fun value c => value * 10 + (Decimal.digitValue? c).getD 0) start =
        Nat.ofDigitChars 10 chars start := by
    intro chars start all
    rw [Nat.ofDigitChars_eq_foldl]
    induction chars generalizing start with
    | nil => rfl
    | cons c chars ih =>
        have here := digitValue?_of_isDigit (all c List.mem_cons_self)
        rw [List.foldl_cons, List.foldl_cons, here, Option.getD_some, Nat.mul_comm start]
        exact ih _ (fun other there => all other (List.mem_cons_of_mem c there))
  rw [Decimal.ofDigits, digits _ _ (fun _ there => isDigit_of_mem_toDigits there),
    Nat.ofDigitChars_ten_toDigits]

/-- Only zero is written with a zero in front. -/
theorem head?_toDigits_ne {number : Nat} (positive : 0 < number) :
    (Nat.toDigits 10 number).head? ≠ some '0' := by
  induction number using Nat.strongRecOn with
  | ind number ih =>
      rw [Nat.toDigits_eq_if (by decide)]
      split
      · rename_i small
        have all : ∀ digit < 10, 0 < digit → [Nat.digitChar digit].head? ≠ some '0' := by decide
        exact all number small positive
      · -- The first digit is that of the number without its last one.
        have shorter := ih (number / 10) (by omega) (by omega)
        rw [List.head?_append]
        cases first : (Nat.toDigits 10 (number / 10)).head? with
        | none => exact absurd (List.head?_eq_none_iff.mp first) Nat.toDigits_ne_nil
        | some c =>
            rw [first] at shorter
            exact shorter

theorem parts?_toDigits (isNegative : Bool) (number : Nat) :
    Decimal.parts? isNegative (Nat.toDigits 10 number) =
      some { isNegative, whole := Nat.toDigits 10 number, fraction := none, exponent := none } := by
  have digits : ∀ c ∈ Nat.toDigits 10 number, c.isDigit = true :=
    fun _ there => isDigit_of_mem_toDigits there
  have whole := List.takeWhile_eq_self_iff.mpr digits
  have rest := List.dropWhile_eq_nil_iff.mpr digits
  have nonempty : (Nat.toDigits 10 number).isEmpty = false := by simp [Nat.toDigits_ne_nil]
  simp only [Decimal.parts?, whole, rest, nonempty]
  rfl

/-- No numeral that is written has a zero in front of other digits. -/
theorem leadingZero_toDigits (number : Nat) :
    (decide (1 < (Nat.toDigits 10 number).length) &&
      (Nat.toDigits 10 number).head? == some '0') = false := by
  by_cases positive : 0 < number
  · rw [beq_eq_false_iff_ne.mpr (head?_toDigits_ne positive), Bool.and_false]
  · obtain rfl : number = 0 := by omega
    decide

/-- The characters of an integer: digits, behind a minus if it is negative. -/
theorem toList_toString_int (value : Int) :
    (toString value).toList =
      (if value < 0 then ['-'] else []) ++ Nat.toDigits 10 value.natAbs := by
  cases value with
  | ofNat number =>
      show (toString number).toList = _
      rw [Nat.toString_eq_ofList_toDigits, String.toList_ofList, if_neg (by simp)]
      rfl
  | negSucc number =>
      show ("-" ++ toString (number + 1)).toList = _
      have digits : (toString (number + 1)).toList = Nat.toDigits 10 (number + 1) := by
        rw [Nat.toString_eq_ofList_toDigits, String.toList_ofList]
      rw [String.toList_append, digits, if_pos (Int.negSucc_lt_zero number)]
      rfl

/-- **A number is read back.** -/
theorem number?_toString {value : Int} (lower : -9223372036854775808 ≤ value)
    (upper : value ≤ 18446744073709551615) :
    number? (toString value).toList = some (.int value) := by
  unfold number?
  split
  rename_i isNegative body sign
  obtain ⟨rfl, rfl⟩ : isNegative = decide (value < 0) ∧ body = Nat.toDigits 10 value.natAbs := by
    rw [toList_toString_int] at sign
    by_cases negative : value < 0
    · rw [if_pos negative] at sign
      obtain ⟨rfl, rfl⟩ := Prod.mk.inj sign
      exact ⟨by simp [negative], rfl⟩
    · rw [if_neg negative, List.nil_append] at sign
      split at sign
      · rename_i minus
        have digit := isDigit_of_mem_toDigits (minus ▸ List.mem_cons_self)
        exact absurd digit (by decide)
      · obtain ⟨rfl, rfl⟩ := Prod.mk.inj sign
        exact ⟨by simp [negative], rfl⟩
  have leading := leadingZero_toDigits value.natAbs
  have number : (if decide (value < 0) = true then -(value.natAbs : Int) else value.natAbs) =
      value := by
    simp only [decide_eq_true_eq]
    split <;> omega
  have signedZero : (decide (value < 0) && value == 0) = false := by
    simp only [Bool.and_eq_false_iff, decide_eq_false_iff_not, beq_eq_false_iff_ne]
    omega
  simp only [parts?_toDigits, leading, Decimal.Numeral.integer?, ofDigits_toDigits, number,
    signedZero, Bool.false_eq_true, if_false, lower, upper, and_self, if_true]

/-! ## Tokens -/

/-- Behind a scalar stands no character that could belong to it. -/
def Ends (rest : List Char) : Prop :=
  ∀ c ∈ rest.head?, isNumeralChar c = false ∧ c.isAlpha = false

/-- Whether a token is a number, a truth value or null. -/
def Token.isScalar : Token → Bool
  | .scalar _ => true
  | _ => false

/-- A token that is read as it is written. -/
inductive Token.Plain : Token → Prop
  | openList : Plain .openList
  | closeList : Plain .closeList
  | openRecord : Plain .openRecord
  | closeRecord : Plain .closeRecord
  | comma : Plain .comma
  | colon : Plain .colon
  | text (value : String) : Plain (.text (some value))
  | null : Plain (.scalar .null)
  | bool (value : Bool) : Plain (.scalar (.bool value))
  | int {value : Int} : -9223372036854775808 ≤ value → value ≤ 18446744073709551615 →
      Plain (.scalar (.int value))

/-- **Characters that spell tokens.** Spaces may stand between the tokens. -/
inductive Spells : List Token → List Char → Prop
  | nil : Spells [] []
  | space {tokens : List Token} {c : Char} {rest : List Char} :
      isSpace c = true → Spells tokens rest → Spells tokens (c :: rest)
  | token {token : Token} {tokens : List Token} {rest : List Char} :
      token.Plain → (token.isScalar = true → Ends rest) → Spells tokens rest →
      Spells (token :: tokens) (token.chars ++ rest)

theorem takeWhile_append_of_head? {holds : Char → Bool} {chars rest : List Char}
    (all : ∀ c ∈ chars, holds c = true) (stops : ∀ c ∈ rest.head?, holds c = false) :
    (chars ++ rest).takeWhile holds = chars ∧ (chars ++ rest).dropWhile holds = rest := by
  rw [List.takeWhile_append_of_pos all, List.dropWhile_append_of_pos all]
  cases rest with
  | nil => simp
  | cons c rest =>
      have stop := stops c rfl
      simp [stop]

theorem scan_space {c : Char} (space : isSpace c = true) (done : List Token) (rest : List Char) :
    scan done (c :: rest) = scan done rest := by
  rw [scan, if_pos space]

theorem scan_mark {c : Char} {token : Token} (space : isSpace c = false)
    (mark : mark? c = some token) (done : List Token) (rest : List Char) :
    scan done (c :: rest) = scan (token :: done) rest := by
  rw [scan, if_neg (by simp [space])]
  simp only [mark]

theorem scan_text (value : String) (done : List Token) (rest : List Char) :
    scan done (quote value ++ rest) = scan (.text (some value) :: done) rest := by
  obtain ⟨found, read, made⟩ := exists_pieces_of_escaped value.toList [] rest
  have made' := made []
  rw [List.reverse_nil, List.nil_append, String.ofList_toList] at made'
  rw [List.reverse_nil, List.nil_append] at read
  rw [quote, List.cons_append, List.append_assoc, List.singleton_append, scan, if_neg (by decide)]
  have none : mark? '"' = none := rfl
  simp only [none, if_true]
  split
  · rename_i found' after read'
    rw [read] at read'
    obtain ⟨rfl, rfl⟩ := Prod.mk.inj (Option.some.inj read')
    rw [made']
  · rename_i unread
    rw [read] at unread
    exact absurd unread (by simp)

/-- A digit or a minus starts a numeral, and nothing else. -/
theorem starts_numeral {first : Char} (starts : first.isDigit = true ∨ first = '-') :
    isSpace first = false ∧ mark? first = none ∧ first ≠ '"' ∧
      (isNumeralChar first && first != 'e' && first != 'E') = true := by
  have marks : isSpace first = false ∧ (mark? first).isNone = true ∧ first ≠ '"' ∧
      (isNumeralChar first && first != 'e' && first != 'E') = true := by
    rcases starts with digit | rfl
    · have digits : ∀ code < 58, 48 ≤ code →
          isSpace (Char.ofNat code) = false ∧ (mark? (Char.ofNat code)).isNone = true ∧
            Char.ofNat code ≠ '"' ∧ (isNumeralChar (Char.ofNat code) && Char.ofNat code != 'e' &&
              Char.ofNat code != 'E') = true := by decide
      obtain ⟨low, high⟩ := Char.isDigit_iff_toNat.mp digit
      have here := digits first.toNat (Nat.lt_succ_of_le high) low
      rw [Char.ofNat_toNat] at here
      exact here
    · decide
  exact ⟨marks.1, Option.isNone_iff_eq_none.mp marks.2.1, marks.2.2⟩

theorem scan_int {value : Int} (lower : -9223372036854775808 ≤ value)
    (upper : value ≤ 18446744073709551615) {rest : List Char} (ends : Ends rest)
    (done : List Token) :
    scan done ((toString value).toList ++ rest) = scan (.scalar (.int value) :: done) rest := by
  have read := number?_toString lower upper
  obtain ⟨first, chars, written, starts, all⟩ : ∃ first chars,
      (toString value).toList = first :: chars ∧ (first.isDigit = true ∨ first = '-') ∧
        ∀ c ∈ chars, isNumeralChar c = true := by
    have digits : ∀ c ∈ Nat.toDigits 10 value.natAbs, isNumeralChar c = true := by
      intro c there
      simp [isNumeralChar, isDigit_of_mem_toDigits there]
    rw [toList_toString_int]
    split
    · exact ⟨'-', _, rfl, .inr rfl, digits⟩
    · obtain ⟨first, chars, same⟩ := List.exists_cons_of_ne_nil
        (Nat.toDigits_ne_nil (n := value.natAbs) (b := 10))
      rw [same] at digits ⊢
      have digit := isDigit_of_mem_toDigits (same ▸ List.mem_cons_self)
      exact ⟨first, chars, rfl, .inl digit, fun c there => digits c (List.mem_cons_of_mem _ there)⟩
  obtain ⟨space, mark, quote, numeral⟩ := starts_numeral starts
  obtain ⟨taken, left⟩ := takeWhile_append_of_head? all (fun c there => (ends c there).1)
  rw [written] at read ⊢
  rw [List.cons_append, scan, if_neg (by simp [space])]
  simp only [mark, if_neg quote, if_pos numeral, taken, left, read]

/-- A word is read up to the first character that is no letter. -/
theorem scan_word {literal : List Char} {first : Char} {chars rest : List Char} {value : Datum}
    (written : literal = first :: chars) (read : word? literal = some value)
    (starts : isSpace first = false ∧ (mark? first).isNone = true ∧ first ≠ '"' ∧
      (isNumeralChar first && first != 'e' && first != 'E') = false)
    (all : chars.all Char.isAlpha = true) (ends : Ends rest) (done : List Token) :
    scan done (literal ++ rest) = scan (.scalar value :: done) rest := by
  subst written
  obtain ⟨space, mark, quote, numeral⟩ := starts
  have mark := Option.isNone_iff_eq_none.mp mark
  obtain ⟨taken, left⟩ :=
    takeWhile_append_of_head? (List.all_eq_true.mp all) (fun c there => (ends c there).2)
  rw [List.cons_append, scan, if_neg (by simp [space])]
  simp only [mark, if_neg quote, numeral, Bool.false_eq_true, if_false, taken, left, read]

/-- **A token is read back.** -/
theorem Token.Plain.scan_chars {token : Token} (plain : token.Plain) {rest : List Char}
    (ends : token.isScalar = true → Ends rest) (done : List Token) :
    scan done (token.chars ++ rest) = scan (token :: done) rest := by
  cases plain with
  | openList | closeList | openRecord | closeRecord | comma | colon =>
      exact scan_mark (by decide) rfl done rest
  | text value => exact scan_text value done rest
  | null =>
      have written : "null".toList = 'n' :: ['u', 'l', 'l'] := rfl
      exact scan_word written (by simp [word?]) (by decide) (by decide) (ends rfl) done
  | bool value =>
      cases value with
      | true =>
          have written : "true".toList = 't' :: ['r', 'u', 'e'] := rfl
          exact scan_word written (by simp [word?]) (by decide) (by decide) (ends rfl) done
      | false =>
          have written : "false".toList = 'f' :: ['a', 'l', 's', 'e'] := rfl
          exact scan_word written (by simp [word?]) (by decide) (by decide) (ends rfl) done
  | int lower upper => exact scan_int lower upper (ends rfl) done

theorem Spells.scan_eq {tokens : List Token} {chars : List Char} (spells : Spells tokens chars)
    (done : List Token) : scan done chars = some (done.reverse ++ tokens) := by
  induction spells generalizing done with
  | nil => rw [scan, List.append_nil]
  | space space _ ih => rw [scan_space space, ih]
  | token plain ends _ ih =>
      rw [plain.scan_chars ends, ih, List.reverse_cons, List.append_assoc, List.singleton_append]

/-! ## Writing spells the tokens -/

theorem Ends.cons {c : Char} (other : isNumeralChar c = false ∧ c.isAlpha = false)
    (rest : List Char) : Ends (c :: rest) := by
  intro found same
  obtain rfl : c = found := Option.some.inj same
  exact other

/-- Spaces and what ends a scalar behind them. -/
theorem Ends.spaces {spaces rest : List Char} (all : ∀ c ∈ spaces, isSpace c = true)
    (ends : Ends rest) : Ends (spaces ++ rest) := by
  cases spaces with
  | nil => exact ends
  | cons c more =>
      refine .cons ?_ _
      have space := all c List.mem_cons_self
      simp only [isSpace, Bool.or_eq_true, beq_iff_eq] at space
      rcases space with ((rfl | rfl) | rfl) | rfl <;> decide

theorem Spells.spaces {tokens : List Token} {spaces rest : List Char}
    (all : ∀ c ∈ spaces, isSpace c = true) (spells : Spells tokens rest) :
    Spells tokens (spaces ++ rest) := by
  induction spaces with
  | nil => exact spells
  | cons c more ih =>
      exact .space (all c List.mem_cons_self) (ih (fun d there => all d (List.mem_cons_of_mem c there)))

/-- The characters spell the tokens in front of whatever can follow a scalar. -/
def SpellsBefore (tokens : List Token) (chars : List Char) : Prop :=
  ∀ (more : List Token) (rest : List Char), Ends rest → Spells more rest →
    Spells (tokens ++ more) (chars ++ rest)

theorem Token.Plain.spellsBefore {token : Token} (plain : token.Plain) :
    SpellsBefore [token] token.chars :=
  fun _ _ ends spells => .token plain (fun _ => ends) spells

theorem SpellsBefore.spaces {spaces chars : List Char} {tokens : List Token}
    (all : ∀ c ∈ spaces, isSpace c = true) (spells : SpellsBefore tokens chars) :
    SpellsBefore tokens (spaces ++ chars) := by
  intro more rest ends follow
  rw [List.append_assoc]
  exact .spaces all (spells more rest ends follow)

/-- A token that is no scalar may be followed by anything. -/
theorem SpellsBefore.cons {token : Token} (plain : token.Plain) (mark : token.isScalar = false)
    {tokens : List Token} {chars : List Char} (spells : SpellsBefore tokens chars) :
    SpellsBefore (token :: tokens) (token.chars ++ chars) := by
  intro more rest ends follow
  rw [List.append_assoc]
  exact .token plain (fun scalar => absurd (mark.symm.trans scalar) (by simp))
    (spells more rest ends follow)

section Separated

variable {α : Type} {tokensOf : α → List Token} {charsOf : α → List Char}
variable {spaces inner outer : List Char}

/-- Elements, each behind a comma. -/
theorem SpellsBefore.separated (all : ∀ c ∈ spaces, isSpace c = true) {elements : List α}
    (each : ∀ element ∈ elements, SpellsBefore (tokensOf element) (charsOf element))
    {more : List Token} {rest : List Char} (ends : Ends rest) (follow : Spells more rest) :
    Ends ((elements.flatMap fun element => ',' :: (spaces ++ charsOf element)) ++ rest) ∧
      Spells ((elements.flatMap fun element => .comma :: tokensOf element) ++ more)
        ((elements.flatMap fun element => ',' :: (spaces ++ charsOf element)) ++ rest) := by
  induction elements with
  | nil => exact ⟨ends, follow⟩
  | cons element others ih =>
      refine ⟨.cons (by decide) _, ?_⟩
      obtain ⟨tail_ends, tail⟩ := ih (fun other there => each other (List.mem_cons_of_mem _ there))
      have head := SpellsBefore.cons .comma rfl (.spaces all (each element List.mem_cons_self))
      rw [List.flatMap_cons, List.flatMap_cons, List.append_assoc, List.append_assoc]
      exact head _ _ tail_ends tail

/-- Elements between brackets, with commas between them. -/
theorem SpellsBefore.enclosed {opening closing : Token} (opens : opening.Plain)
    (closes : closing.Plain) (mark : opening.isScalar = false)
    (mark' : ∀ rest, closing.isScalar = false ∧ Ends (closing.chars ++ rest))
    (all : ∀ c ∈ spaces, isSpace c = true) (all_inner : ∀ c ∈ inner, isSpace c = true)
    (all_outer : ∀ c ∈ outer, isSpace c = true) {first : α} {others : List α}
    (each : ∀ element ∈ first :: others, SpellsBefore (tokensOf element) (charsOf element)) :
    SpellsBefore
      (opening :: (tokensOf first ++ (others.flatMap fun element => .comma :: tokensOf element) ++
        [closing]))
      (opening.chars ++ (inner ++ charsOf first ++
        (others.flatMap fun element => ',' :: (spaces ++ charsOf element)) ++ outer ++
        closing.chars)) := by
  intro more rest _ follow
  have last : Spells (closing :: more) (outer ++ (closing.chars ++ rest)) :=
    .spaces all_outer (.token closes
      (fun scalar => absurd ((mark' rest).1.symm.trans scalar) (by simp)) follow)
  obtain ⟨tail_ends, tail⟩ := SpellsBefore.separated all
    (fun other there => each other (List.mem_cons_of_mem _ there))
    (.spaces all_outer (mark' rest).2) last
  have head := each first List.mem_cons_self _ _ tail_ends tail
  have whole := Spells.token opens (fun scalar => absurd (mark.symm.trans scalar) (by simp))
    (.spaces all_inner head)
  simp only [List.cons_append, List.append_assoc, List.nil_append] at whole ⊢
  exact whole

end Separated

/-- The tokens of a member of a record. -/
def memberTokens (field : String × Datum) : List Token :=
  .text (some field.1) :: .colon :: tokens field.2

theorem itemTokens_cons (item : Datum) (rest : List Datum) :
    itemTokens (item :: rest) =
      tokens item ++ rest.flatMap fun item => .comma :: tokens item := by
  induction rest generalizing item with
  | nil => simp [itemTokens]
  | cons next rest ih =>
      rw [itemTokens, ih, List.flatMap_cons]
      · rfl
      · simp

theorem fieldTokens_cons (field : String × Datum) (rest : Fields) :
    fieldTokens (field :: rest) =
      memberTokens field ++ rest.flatMap fun field => .comma :: memberTokens field := by
  induction rest generalizing field with
  | nil => simp [fieldTokens, memberTokens]
  | cons next rest ih =>
      rw [fieldTokens, ih, List.flatMap_cons]
      · rfl
      · simp

/-- Brackets with nothing between them. -/
theorem SpellsBefore.empty {opening closing : Token} (opens : opening.Plain)
    (closes : closing.Plain) (mark : opening.isScalar = false) :
    SpellsBefore [opening, closing] (opening.chars ++ closing.chars) :=
  .cons opens mark closes.spellsBefore

theorem SpellsBefore.member {value : Datum} {spaces chars : List Char} (name : String)
    (all : ∀ c ∈ spaces, isSpace c = true) (spells : SpellsBefore (tokens value) chars) :
    SpellsBefore (memberTokens (name, value)) (quote name ++ ':' :: (spaces ++ chars)) :=
  .cons (.text name) rfl (.cons .colon rfl (.spaces all spells))

/-- **A datum on one line.** -/
theorem Plain.spellsBefore_compact {datum : Datum} (plain : Plain datum) :
    SpellsBefore (tokens datum) ((tokens datum).flatMap Token.chars) := by
  have none : ∀ c ∈ ([] : List Char), isSpace c = true := by simp
  have single : ∀ {token : Token}, token.Plain →
      SpellsBefore [token] ([token].flatMap Token.chars) := by
    intro token plain
    rw [List.flatMap_singleton]
    exact plain.spellsBefore
  induction plain with
  | null => exact single .null
  | bool value => exact single (.bool value)
  | int lower upper => exact single (.int lower upper)
  | text value => exact single (.text value)
  | @list items all ih =>
      cases items with
      | nil => exact .empty .openList .closeList rfl
      | cons first others =>
          have whole := SpellsBefore.enclosed .openList .closeList rfl
            (fun _ => ⟨rfl, .cons (by decide) _⟩) none none none ih
          simpa [tokens, itemTokens_cons, Token.chars, List.flatMap_assoc] using whole
  | @record fields all ih =>
      cases fields with
      | nil => exact .empty .openRecord .closeRecord rfl
      | cons first others =>
          have whole := SpellsBefore.enclosed .openRecord .closeRecord rfl
            (fun _ => ⟨rfl, .cons (by decide) _⟩) none none none
            (fun field there => SpellsBefore.member field.1 none (ih field there))
          simpa [tokens, fieldTokens_cons, memberTokens, Token.chars, List.flatMap_assoc] using whole

theorem prettyItems_eq (level : Nat) (items : List Datum) :
    prettyItems level items =
      items.flatMap fun item => ',' :: (indent level ++ prettyChars level item) := by
  induction items with
  | nil => rfl
  | cons item rest ih =>
      rw [prettyItems, ih, List.flatMap_cons]
      rfl

theorem prettyFields_eq (level : Nat) (fields : Fields) :
    prettyFields level fields =
      fields.flatMap fun field =>
        ',' :: (indent level ++ (quote field.1 ++ ':' :: ([' '] ++ prettyChars level field.2))) := by
  induction fields with
  | nil => rfl
  | cons field rest ih =>
      obtain ⟨name, value⟩ := field
      rw [prettyFields, ih, List.flatMap_cons]
      simp

/-- **A datum over several lines.** -/
theorem Plain.spellsBefore_pretty {datum : Datum} (plain : Plain datum) (level : Nat) :
    SpellsBefore (tokens datum) (prettyChars level datum) := by
  have spaces : ∀ level, ∀ c ∈ indent level, isSpace c = true := by
    intro level c there
    rcases List.mem_cons.mp there with rfl | space
    · rfl
    · rw [List.eq_of_mem_replicate space]
      rfl
  induction plain generalizing level with
  | null => exact Token.Plain.null.spellsBefore
  | bool value => exact (Token.Plain.bool value).spellsBefore
  | int lower upper => exact (Token.Plain.int lower upper).spellsBefore
  | text value => exact (Token.Plain.text value).spellsBefore
  | @list items all ih =>
      cases items with
      | nil => exact .empty .openList .closeList rfl
      | cons first others =>
          have whole := SpellsBefore.enclosed .openList .closeList rfl
            (fun _ => ⟨rfl, .cons (by decide) _⟩) (spaces (level + 1)) (spaces (level + 1))
            (spaces level) (fun item there => ih item there (level + 1))
          rw [tokens, itemTokens_cons, prettyChars, prettyItems_eq]
          exact whole
  | @record fields all ih =>
      cases fields with
      | nil => exact .empty .openRecord .closeRecord rfl
      | cons first others =>
          have one : ∀ c ∈ [' '], isSpace c = true := by simp [isSpace]
          have whole := SpellsBefore.enclosed .openRecord .closeRecord rfl
            (fun _ => ⟨rfl, .cons (by decide) _⟩) (spaces (level + 1)) (spaces (level + 1))
            (spaces level)
            (fun field there => SpellsBefore.member field.1 one (ih field there (level + 1)))
          obtain ⟨name, value⟩ := first
          rw [tokens, fieldTokens_cons, prettyChars, prettyFields_eq]
          simpa [Token.chars] using whole

/-! ## Data from tokens -/

/-- A value may come next. -/
def Stage.takesValue : Stage → Bool
  | .value => true
  | .firstItem => true
  | _ => false

/-- Reading the tokens, among the brackets that are open, puts the datum in its place. -/
def ReadsAs (tokens : List Token) (datum : Datum) : Prop :=
  ∀ (frames : List Frame) (stage : Stage) (rest : List Token), stage.takesValue = true →
    frames.length + datum.nesting ≤ maxOpen →
    (tokens ++ rest).foldlM State.step { frames, stage } =
      rest.foldlM State.step (.accept frames datum)

theorem foldlM_cons_of_step {state after : State} {token : Token}
    (step : state.step token = some after) (rest : List Token) :
    (token :: rest).foldlM State.step state = rest.foldlM State.step after := by
  rw [List.foldlM_cons, step]
  rfl

/-- Where a value may come next, no token but a closing bracket is taken for anything else. -/
theorem step_of_takesValue {frames : List Frame} {stage : Stage} {token : Token}
    (value : stage.takesValue = true) (item : token ≠ .closeList) :
    State.step { frames, stage } token = State.acceptValue frames token := by
  cases stage with
  | value => rfl
  | firstItem =>
      cases token with
      | closeList => exact absurd rfl item
      | openList | openRecord | closeRecord | comma | colon | text | scalar => rfl
  | firstName | name | colon | next | done => exact absurd value (by simp [Stage.takesValue])

theorem readsAs_scalar (datum : Datum) : ReadsAs [.scalar datum] datum :=
  fun _ _ _ value _ => foldlM_cons_of_step (step_of_takesValue value (by simp)) _

theorem readsAs_text (value : String) : ReadsAs [.text (some value)] (.text value) :=
  fun _ _ _ takes _ => foldlM_cons_of_step (step_of_takesValue takes (by simp)) _

theorem close_of_lt {frames : List Frame} (room : frames.length < maxOpen) (datum : Datum) :
    State.close frames datum = .accept frames datum := by
  rw [State.close, if_pos room]

/-- The items of a list behind the first one, and its end. `done` are the items in front, latest
first. -/
theorem foldlM_items {frames : List Frame} {items : List Datum} (done : List Datum)
    (each : ∀ item ∈ items, ReadsAs (tokens item) item)
    (room : frames.length + 1 + Datum.nestingItems items ≤ maxOpen) (rest : List Token) :
    ((items.flatMap fun item => .comma :: tokens item) ++ .closeList :: rest).foldlM State.step
        { frames := .list done :: frames, stage := .next } =
      rest.foldlM State.step (.accept frames (.list (done.reverse ++ items))) := by
  induction items generalizing done with
  | nil =>
      rw [List.append_nil, List.flatMap_nil, List.nil_append, foldlM_cons_of_step rfl,
        close_of_lt (by omega)]
  | cons item items ih =>
      rw [Datum.nestingItems] at room
      have taken := each item List.mem_cons_self (.list done :: frames) .value
        ((items.flatMap fun item => .comma :: tokens item) ++ .closeList :: rest) rfl
        (by rw [List.length_cons]; omega)
      rw [List.flatMap_cons, List.append_assoc, List.cons_append, foldlM_cons_of_step rfl]
      refine taken.trans ((ih (item :: done) ?_ (by omega)).trans ?_)
      · exact fun other there => each other (List.mem_cons_of_mem _ there)
      · rw [List.reverse_cons, List.append_assoc, List.singleton_append]

theorem readsAs_list {items : List Datum} (each : ∀ item ∈ items, ReadsAs (tokens item) item) :
    ReadsAs (tokens (.list items)) (.list items) := by
  intro frames stage rest value room
  rw [Datum.nesting] at room
  rw [tokens, List.cons_append, List.append_assoc, List.singleton_append,
    foldlM_cons_of_step (step_of_takesValue value (by simp))]
  cases items with
  | nil =>
      rw [itemTokens, List.nil_append, foldlM_cons_of_step rfl, List.reverse_nil,
        close_of_lt (by omega)]
  | cons first others =>
      rw [Datum.nestingItems] at room
      have taken := each first List.mem_cons_self (.list [] :: frames) .firstItem
        ((others.flatMap fun item => .comma :: tokens item) ++ .closeList :: rest) rfl
        (by rw [List.length_cons]; omega)
      rw [itemTokens_cons, List.append_assoc]
      exact taken.trans (foldlM_items [first]
        (fun other there => each other (List.mem_cons_of_mem _ there)) (by omega) rest)

/-- A member of a record; `done` are those in front of it, latest first. -/
theorem foldlM_member {frames : List Frame} {field : String × Datum} {stage : Stage}
    (takesName : stage = .firstName ∨ stage = .name) (reads : ReadsAs (tokens field.2) field.2)
    (room : frames.length + 1 + field.2.nesting ≤ maxOpen) (done : Fields) (known : String)
    (rest : List Token) :
    (memberTokens field ++ rest).foldlM State.step
        { frames := .record done known true :: frames, stage } =
      rest.foldlM State.step
        { frames := .record (field :: done) field.1 true :: frames, stage := .next } := by
  have named : State.step { frames := .record done known true :: frames, stage }
      (.text (some field.1)) =
        some { frames := .record done field.1 true :: frames, stage := .colon } := by
    rcases takesName with rfl | rfl <;> rfl
  rw [memberTokens, List.cons_append, List.cons_append, foldlM_cons_of_step named,
    foldlM_cons_of_step rfl]
  exact reads (.record done field.1 true :: frames) .value rest rfl
    (by rw [List.length_cons]; omega)

/-- The members of a record behind the first one, and its end. -/
theorem foldlM_members {frames : List Frame} {fields : Fields} (done : Fields) (known : String)
    (each : ∀ field ∈ fields, ReadsAs (tokens field.2) field.2)
    (room : frames.length + 1 + Datum.nestingFields fields ≤ maxOpen) (rest : List Token) :
    ((fields.flatMap fun field => .comma :: memberTokens field) ++
        .closeRecord :: rest).foldlM State.step
        { frames := .record done known true :: frames, stage := .next } =
      rest.foldlM State.step (.accept frames (.record (done.reverse ++ fields))) := by
  induction fields generalizing done known with
  | nil =>
      rw [List.append_nil, List.flatMap_nil, List.nil_append, foldlM_cons_of_step rfl,
        close_of_lt (by omega)]
      rfl
  | cons field fields ih =>
      rw [Datum.nestingFields] at room
      rw [List.flatMap_cons, List.append_assoc, List.cons_append, foldlM_cons_of_step rfl,
        foldlM_member (.inr rfl) (each field List.mem_cons_self) (by omega),
        ih (field :: done) field.1 (fun other there => each other (List.mem_cons_of_mem _ there))
          (by omega),
        List.reverse_cons, List.append_assoc, List.singleton_append]

theorem readsAs_record {fields : Fields}
    (each : ∀ field ∈ fields, ReadsAs (tokens field.2) field.2) :
    ReadsAs (tokens (.record fields)) (.record fields) := by
  intro frames stage rest value room
  rw [Datum.nesting] at room
  rw [tokens, List.cons_append, List.append_assoc, List.singleton_append,
    foldlM_cons_of_step (step_of_takesValue value (by simp))]
  cases fields with
  | nil =>
      rw [fieldTokens, List.nil_append, foldlM_cons_of_step rfl, List.reverse_nil,
        close_of_lt (by omega)]
      rfl
  | cons first others =>
      rw [Datum.nestingFields] at room
      rw [fieldTokens_cons, List.append_assoc,
        foldlM_member (.inl rfl) (each first List.mem_cons_self) (by omega),
        foldlM_members [first] first.1
          (fun other there => each other (List.mem_cons_of_mem _ there)) (by omega)]
      rfl

/-- **The tokens of a datum are read as this datum.** -/
theorem Plain.readsAs {datum : Datum} (plain : Plain datum) : ReadsAs (tokens datum) datum := by
  induction plain with
  | null => exact readsAs_scalar _
  | bool value => exact readsAs_scalar _
  | int lower upper => exact readsAs_scalar _
  | text value => exact readsAs_text value
  | list _ ih => exact readsAs_list ih
  | record _ ih => exact readsAs_record ih

theorem Plain.spells_compact {datum : Datum} (plain : Plain datum) :
    Spells (tokens datum) (compact datum).toList := by
  have spells := plain.spellsBefore_compact [] [] (by simp [Ends]) .nil
  rw [List.append_nil, List.append_nil] at spells
  rw [compact, String.toList_ofList]
  exact spells

theorem Plain.spells_pretty {datum : Datum} (plain : Plain datum) :
    Spells (tokens datum) (pretty datum).toList := by
  have spells := plain.spellsBefore_pretty 0 [] [] (by simp [Ends]) .nil
  rw [List.append_nil, List.append_nil] at spells
  rw [pretty, String.toList_ofList]
  exact spells

/-- **A text that spells the tokens of a datum is read as this datum**, unless it is nested too
deep. -/
theorem Plain.read?_of_spells {datum : Datum} (plain : Plain datum)
    (room : datum.nesting ≤ maxOpen) {text : String} (spells : Spells (tokens datum) text.toList) :
    read? text = some datum := by
  have split : tokens? text = some (tokens datum) := by
    rw [tokens?, spells.scan_eq, List.reverse_nil, List.nil_append]
  have read := plain.readsAs [] .value [] rfl (by rw [List.length_nil]; omega)
  rw [List.append_nil] at read
  simp only [read?, split, ofTokens?, read]
  rfl

/-! ## Open brackets -/

/-- Where a character of a text stands. -/
inductive Place where
  /-- Outside of all strings. -/
  | between
  /-- In a string. -/
  | quoted
  /-- In a string, behind a backslash. -/
  | escaped
deriving DecidableEq

/-- Where the next character stands, and how many brackets are open there. -/
def track (place : Place) (count : Nat) (c : Char) : Place × Nat :=
  match place with
  | .escaped => (.quoted, count)
  | .quoted => (if c = '\\' then .escaped else if c = '"' then .between else .quoted, count)
  | .between =>
      if c = '"' then (.quoted, count)
      else if c = '[' ∨ c = '\x7b' then (.between, count + 1)
      else if c = ']' ∨ c = '\x7d' then (.between, count - 1)
      else (.between, count)

/-- The greatest number of brackets that are open at once, if `count` are open in front. -/
def mostOpen (place : Place) (count : Nat) : List Char → Nat
  | [] => count
  | c :: rest => max count (mostOpen (track place count c).1 (track place count c).2 rest)

/-- **The greatest number of brackets that are open at once** in a JSON text. Brackets in strings do
not count. -/
def openBrackets (text : String) : Nat :=
  mostOpen .between 0 text.toList

theorem le_mostOpen (place : Place) (count : Nat) (chars : List Char) :
    count ≤ mostOpen place count chars := by
  cases chars with
  | nil => exact Nat.le_refl count
  | cons c rest => exact Nat.le_max_left _ _

/-- A character that neither opens nor closes a bracket. -/
theorem mostOpen_cons {place next : Place} {count : Nat} {c : Char}
    (same : track place count c = (next, count)) (rest : List Char) :
    mostOpen place count (c :: rest) = mostOpen next count rest := by
  rw [mostOpen, same]
  exact Nat.max_eq_right (le_mostOpen next count rest)

theorem mostOpen_append {chars : List Char} {place : Place} {count : Nat}
    (all : ∀ c ∈ chars, track place count c = (place, count)) (rest : List Char) :
    mostOpen place count (chars ++ rest) = mostOpen place count rest := by
  induction chars with
  | nil => rfl
  | cons c chars ih =>
      rw [List.cons_append, mostOpen_cons (all c List.mem_cons_self)]
      exact ih (fun other there => all other (List.mem_cons_of_mem c there))

/-- The characters that are counted between tokens, or begin a text. -/
def delimiters : List Char :=
  ['"', '[', '\x7b', ']', '\x7d']

theorem track_of_ne {c : Char} (other : c ∉ delimiters) (count : Nat) :
    track .between count c = (.between, count) := by
  simp only [delimiters, List.mem_cons, List.not_mem_nil, or_false, not_or] at other
  obtain ⟨quote, openList, openRecord, closeList, closeRecord⟩ := other
  simp only [track, quote, openList, openRecord, closeList, closeRecord, if_false, or_self]

/-- A character that is written in a string neither ends it nor counts. -/
theorem mostOpen_escapeChar (count : Nat) (c : Char) (rest : List Char) :
    mostOpen .quoted count (escapeChar c ++ rest) = mostOpen .quoted count rest := by
  have short : ∀ letter rest, mostOpen .quoted count ('\\' :: letter :: rest) =
      mostOpen .quoted count rest := by
    intro letter rest
    exact (mostOpen_cons rfl _).trans (mostOpen_cons rfl _)
  unfold escapeChar
  split
  iterate 7 exact short _ rest
  rename_i quote backslash _ _ _ _ _
  split
  · -- The digits of the number are no quotes either.
    have digits : ∀ digit < 16, Nat.digitChar digit ≠ '\\' ∧ Nat.digitChar digit ≠ '"' := by decide
    have hex : ∀ value, track .quoted count (hexDigit value) = (.quoted, count) := by
      intro value
      obtain ⟨backslash, quote⟩ := digits (value % 16) (Nat.mod_lt value (by decide))
      simp only [track, hexDigit, backslash, quote, if_false]
    refine (short 'u' _).trans (mostOpen_append ?_ rest)
    intro digit there
    simp only [List.mem_cons, List.not_mem_nil, or_false] at there
    rcases there with rfl | rfl | rfl | rfl
    · rfl
    · rfl
    · exact hex _
    · exact hex _
  · refine mostOpen_cons ?_ rest
    simp only [track, if_neg backslash, if_neg quote]

theorem mostOpen_quote (count : Nat) (text : String) (rest : List Char) :
    mostOpen .between count (quote text ++ rest) = mostOpen .between count rest := by
  have body : ∀ chars : List Char,
      mostOpen .quoted count (chars.flatMap escapeChar ++ '"' :: rest) =
        mostOpen .between count rest := by
    intro chars
    induction chars with
    | nil => exact mostOpen_cons rfl rest
    | cons c chars ih => rw [List.flatMap_cons, List.append_assoc, mostOpen_escapeChar, ih]
  rw [quote, List.cons_append, List.append_assoc, List.singleton_append]
  exact (mostOpen_cons rfl _).trans (body text.toList)

/-- The characters of a number or a word have nothing to do with brackets. -/
theorem mostOpen_scalarChars {datum : Datum} (plain : (Token.scalar datum).Plain) (count : Nat)
    (rest : List Char) :
    mostOpen .between count (scalarChars datum ++ rest) = mostOpen .between count rest := by
  have marks : ∀ c ∈ scalarChars datum, c ∉ delimiters := by
    have word : ∀ {chars : List Char}, (chars.all fun c => decide (c ∉ delimiters)) = true →
        ∀ c ∈ chars, c ∉ delimiters := by
      intro chars all c there
      exact of_decide_eq_true (List.all_eq_true.mp all c there)
    cases plain with
    | null => exact word (by decide)
    | bool value =>
        cases value with
        | true => exact word (by decide)
        | false => exact word (by decide)
    | @int value lower upper =>
        intro c there marked
        replace there : c ∈ (toString value).toList := there
        rw [toList_toString_int] at there
        rcases List.mem_append.mp there with minus | digit
        · split at minus
          · rw [List.mem_singleton.mp minus] at marked
            exact absurd marked (by decide)
          · exact absurd minus List.not_mem_nil
        · have none : ∀ mark ∈ delimiters, mark.isDigit = false := by
            intro mark there
            simp only [delimiters, List.mem_cons, List.not_mem_nil, or_false] at there
            rcases there with rfl | rfl | rfl | rfl | rfl <;> rfl
          exact absurd (isDigit_of_mem_toDigits digit) (by rw [none c marked]; simp)
  exact mostOpen_append (fun c there => track_of_ne (marks c there) count) rest

/-- How many brackets are open behind a token. -/
def Token.openAfter (count : Nat) : Token → Nat
  | .openList => count + 1
  | .openRecord => count + 1
  | .closeList => count - 1
  | .closeRecord => count - 1
  | _ => count

/-- The greatest number of brackets that are open at once among the tokens. -/
def mostOpenTokens (count : Nat) : List Token → Nat
  | [] => count
  | token :: rest => max count (mostOpenTokens (token.openAfter count) rest)

theorem le_mostOpenTokens (count : Nat) (tokens : List Token) :
    count ≤ mostOpenTokens count tokens := by
  cases tokens with
  | nil => exact Nat.le_refl count
  | cons token rest => exact Nat.le_max_left _ _

/-- What the characters of a token do to the brackets. -/
theorem Token.Plain.mostOpen_chars {token : Token} (plain : token.Plain) (count : Nat)
    (rest : List Char) :
    mostOpen .between count (token.chars ++ rest) =
      max count (mostOpen .between (token.openAfter count) rest) := by
  have stays := Nat.max_eq_right (le_mostOpen .between count rest)
  cases plain with
  | openList | closeList | openRecord | closeRecord | comma | colon => rfl
  | text value => exact (mostOpen_quote count value rest).trans stays.symm
  | null => exact (mostOpen_scalarChars .null count rest).trans stays.symm
  | bool value => exact (mostOpen_scalarChars (.bool value) count rest).trans stays.symm
  | int lower upper => exact (mostOpen_scalarChars (.int lower upper) count rest).trans stays.symm

/-- Brackets may be counted in the tokens that are spelled. -/
theorem Spells.mostOpen_eq {tokens : List Token} {chars : List Char} (spells : Spells tokens chars)
    (count : Nat) : mostOpen .between count chars = mostOpenTokens count tokens := by
  induction spells generalizing count with
  | nil => rfl
  | @space _ c rest space _ ih =>
      have other : c ∉ delimiters := by
        simp only [isSpace, Bool.or_eq_true, beq_iff_eq] at space
        rcases space with ((rfl | rfl) | rfl) | rfl <;> decide
      rw [mostOpen_cons (track_of_ne other count), ih]
  | token plain _ _ ih => rw [plain.mostOpen_chars, ih, mostOpenTokens]

/-- The tokens open `height` brackets at once, and close them all. -/
def Rises (tokens : List Token) (height : Nat) : Prop :=
  ∀ (count : Nat) (rest : List Token),
    mostOpenTokens count (tokens ++ rest) = max (count + height) (mostOpenTokens count rest)

theorem Rises.append {first second : List Token} {height height' : Nat}
    (rises : Rises first height) (rises' : Rises second height') :
    Rises (first ++ second) (max height height') := by
  intro count rest
  rw [List.append_assoc, rises, rises', ← Nat.max_assoc, Nat.add_max_add_left]

theorem Rises.single {token : Token} (same : ∀ count, token.openAfter count = count) :
    Rises [token] 0 := by
  intro count rest
  rw [List.singleton_append, mostOpenTokens, same, Nat.add_zero]

theorem Rises.cons {token : Token} (same : ∀ count, token.openAfter count = count)
    {tokens : List Token} {height : Nat} (rises : Rises tokens height) :
    Rises (token :: tokens) height := by
  have both := (Rises.single same).append rises
  rwa [Nat.zero_max] at both

theorem Rises.enclosed {opening closing : Token}
    (opens : ∀ count, opening.openAfter count = count + 1)
    (closes : ∀ count, closing.openAfter count = count - 1)
    {tokens : List Token} {height : Nat} (rises : Rises tokens height) :
    Rises (opening :: (tokens ++ [closing])) (height + 1) := by
  intro count rest
  have low := le_mostOpenTokens count rest
  rw [List.cons_append, List.append_assoc, mostOpenTokens, opens, rises, List.singleton_append,
    mostOpenTokens, closes, Nat.add_sub_cancel]
  omega

theorem Rises.nil : Rises [] 0 :=
  fun count rest => (Nat.max_eq_right (le_mostOpenTokens count rest)).symm

/-- Elements, each behind a comma, of which each rises by itself. -/
theorem Rises.separated {α : Type} {tokensOf : α → List Token} {heightOf : α → Nat}
    {heights : List α → Nat} (none : heights [] = 0)
    (some : ∀ element rest, heights (element :: rest) = max (heightOf element) (heights rest))
    {elements : List α} (each : ∀ element ∈ elements, Rises (tokensOf element) (heightOf element)) :
    Rises (elements.flatMap fun element => .comma :: tokensOf element) (heights elements) := by
  induction elements with
  | nil =>
      rw [none]
      exact .nil
  | cons element others ih =>
      rw [some, List.flatMap_cons]
      exact .append (.cons (fun _ => rfl) (each element List.mem_cons_self))
        (ih (fun other there => each other (List.mem_cons_of_mem _ there)))

/-- **The brackets of a datum are as many as it is deep.** -/
theorem Plain.rises {datum : Datum} (plain : Plain datum) :
    Rises (tokens datum) datum.nesting := by
  induction plain with
  | null | bool | int | text => exact .single (fun _ => rfl)
  | @list items _ ih =>
      rw [tokens, Datum.nesting]
      refine .enclosed (fun _ => rfl) (fun _ => rfl) ?_
      cases items with
      | nil => exact .nil
      | cons first others =>
          rw [itemTokens_cons, Datum.nestingItems]
          exact .append (ih first List.mem_cons_self)
            (.separated rfl (fun _ _ => rfl) (fun item there => ih item (.tail _ there)))
  | @record fields _ ih =>
      have each : ∀ field ∈ fields, Rises (memberTokens field) field.2.nesting :=
        fun field there => .cons (fun _ => rfl) (.cons (fun _ => rfl) (ih field there))
      rw [tokens, Datum.nesting]
      refine .enclosed (fun _ => rfl) (fun _ => rfl) ?_
      cases fields with
      | nil => exact .nil
      | cons first others =>
          rw [fieldTokens_cons, Datum.nestingFields]
          exact .append (each first List.mem_cons_self)
            (.separated rfl (fun _ _ => rfl) (fun field there => each field (.tail _ there)))

theorem Plain.openBrackets_of_spells {datum : Datum} (plain : Plain datum) {text : String}
    (spells : Spells (tokens datum) text.toList) : openBrackets text = datum.nesting := by
  have rises := plain.rises 0 []
  rw [List.append_nil, mostOpenTokens, Nat.zero_add, Nat.max_eq_left (Nat.zero_le _)] at rises
  rw [openBrackets, spells.mostOpen_eq, rises]

end Json

end Lending
