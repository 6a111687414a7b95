import Mathlib.Data.List.Lex
import Mathlib.Data.String.Basic

/-!
# Texts as bytes

A text is a list of characters and a list of bytes. Characters are encoded by their numbers, in one
to four bytes, so that texts come in the same order either way (`lt_iff_lex_bytes`). A newline is one
byte, and no other character has this byte (`newline_mem_utf8EncodeChar`).
-/

namespace Lending.Text

/-- The bytes of a text in UTF-8. -/
def bytes (text : String) : List UInt8 :=
  text.toUTF8.data.toList

theorem bytes_eq_flatMap (text : String) :
    bytes text = text.toList.flatMap String.utf8EncodeChar := by
  have same : text.toByteArray = text.toList.utf8Encode := by
    rw [← String.toByteArray_ofList, String.ofList_toList]
  rw [bytes, String.toUTF8_eq_toByteArray, same, List.utf8Encode, List.data_toByteArray]

/-- The number of bytes that some characters take. -/
def byteCount (chars : List Char) : Nat :=
  (chars.flatMap String.utf8EncodeChar).length

@[simp]
theorem byteCount_nil : byteCount [] = 0 :=
  rfl

@[simp]
theorem byteCount_cons (c : Char) (rest : List Char) :
    byteCount (c :: rest) = c.utf8Size + byteCount rest := by
  rw [byteCount, List.flatMap_cons, List.length_append, String.length_utf8EncodeChar]
  rfl

@[simp]
theorem byteCount_append (first second : List Char) :
    byteCount (first ++ second) = byteCount first + byteCount second := by
  rw [byteCount, List.flatMap_append, List.length_append]
  rfl

theorem utf8ByteSize_eq (text : String) : text.utf8ByteSize = byteCount text.toList := by
  rw [byteCount, ← bytes_eq_flatMap]
  rfl

/-- Every character takes a byte or more. -/
theorem length_le_byteCount (chars : List Char) : chars.length ≤ byteCount chars := by
  induction chars with
  | nil => exact Nat.le_refl _
  | cons c rest ih =>
      have positive := c.utf8Size_pos
      rw [List.length_cons, byteCount_cons]
      omega

theorem eq_nil_of_byteCount {chars : List Char} (empty : byteCount chars = 0) : chars = [] :=
  List.eq_nil_of_length_eq_zero (Nat.le_zero.mp (empty ▸ length_le_byteCount chars))

/-- The byte of a newline. -/
def newline : UInt8 := 10

/-- A character that does not stand for itself has bytes from 128 on only. -/
theorem mem_utf8EncodeChar {c : Char} {byte : UInt8} (inside : byte ∈ String.utf8EncodeChar c) :
    byte.toNat = c.val.toNat ∨ 128 ≤ byte.toNat := by
  simp only [String.utf8EncodeChar] at inside
  generalize c.val.toNat = code at *
  split at inside
  · obtain rfl := List.mem_singleton.mp inside
    rw [UInt8.toNat_ofNat']
    omega
  · right
    split at inside
    · simp only [List.mem_cons, List.not_mem_nil, or_false] at inside
      rcases inside with rfl | rfl <;> rw [UInt8.toNat_ofNat'] <;> omega
    · split at inside
      · simp only [List.mem_cons, List.not_mem_nil, or_false] at inside
        rcases inside with rfl | rfl | rfl <;> rw [UInt8.toNat_ofNat'] <;> omega
      · simp only [List.mem_cons, List.not_mem_nil, or_false] at inside
        rcases inside with rfl | rfl | rfl | rfl <;> rw [UInt8.toNat_ofNat'] <;> omega

/-- **Only a newline has the byte of a newline.** -/
theorem newline_mem_utf8EncodeChar {c : Char} :
    newline ∈ String.utf8EncodeChar c ↔ c = '\n' := by
  constructor
  · intro inside
    rcases mem_utf8EncodeChar inside with same | large
    · exact Char.ext (UInt32.toNat_inj.mp same.symm)
    · exact absurd large (by decide)
  · rintro rfl
    decide

/-! ## Order -/

/-- Bytes are compared as the numbers that they are made from. -/
theorem lex_ofNat {a b : Nat} {rest rest' : List UInt8} (ordered : a ≤ b) (small : b < 256)
    (tied : a = b → List.Lex (· < ·) rest rest') :
    List.Lex (· < ·) (UInt8.ofNat a :: rest) (UInt8.ofNat b :: rest') := by
  rcases Nat.lt_or_eq_of_le ordered with less | same
  · apply List.Lex.rel
    rw [UInt8.lt_iff_toNat_lt, UInt8.toNat_ofNat', UInt8.toNat_ofNat']
    omega
  · rw [same]
    exact List.Lex.cons (tied same)

/-- **Smaller characters have smaller bytes,** whatever follows them: a shorter encoding starts with
a smaller byte, and encodings of one length write the number in base 64. -/
theorem lex_utf8EncodeChar {c d : Char} (less : c < d) (rest rest' : List UInt8) :
    List.Lex (· < ·) (String.utf8EncodeChar c ++ rest) (String.utf8EncodeChar d ++ rest') := by
  have ordered : c.val.toNat < d.val.toNat := less
  have valid : d.val.toNat < 0xd800 ∨ 0xdfff < d.val.toNat ∧ d.val.toNat < 0x110000 := d.valid
  simp only [String.utf8EncodeChar]
  generalize c.val.toNat = code at *
  generalize d.val.toNat = code' at *
  split
  · split
    · exact lex_ofNat (by omega) (by omega) (by omega)
    · split
      · exact lex_ofNat (by omega) (by omega) (by omega)
      · split
        · exact lex_ofNat (by omega) (by omega) (by omega)
        · exact lex_ofNat (by omega) (by omega) (by omega)
  · rw [if_neg (show ¬ code' ≤ 0x7f by omega)]
    split
    · split
      · refine lex_ofNat (by omega) (by omega) fun high => ?_
        exact lex_ofNat (by omega) (by omega) (by omega)
      · split
        · exact lex_ofNat (by omega) (by omega) (by omega)
        · exact lex_ofNat (by omega) (by omega) (by omega)
    · rw [if_neg (show ¬ code' ≤ 0x7ff by omega)]
      split
      · split
        · refine lex_ofNat (by omega) (by omega) fun high => ?_
          refine lex_ofNat (by omega) (by omega) fun middle => ?_
          exact lex_ofNat (by omega) (by omega) (by omega)
        · exact lex_ofNat (by omega) (by omega) (by omega)
      · rw [if_neg (show ¬ code' ≤ 0xffff by omega)]
        refine lex_ofNat (by omega) (by omega) fun highest => ?_
        refine lex_ofNat (by omega) (by omega) fun high => ?_
        refine lex_ofNat (by omega) (by omega) fun middle => ?_
        exact lex_ofNat (by omega) (by omega) (by omega)

theorem lex_flatMap_utf8EncodeChar {first second : List Char}
    (less : List.Lex (· < ·) first second) :
    List.Lex (· < ·) (first.flatMap String.utf8EncodeChar)
      (second.flatMap String.utf8EncodeChar) := by
  induction less with
  | @nil c rest =>
      rw [List.flatMap_nil, List.flatMap_cons]
      cases encoded : String.utf8EncodeChar c with
      | nil => exact absurd encoded String.utf8EncodeChar_ne_nil
      | cons byte more => exact List.Lex.nil
  | cons _ ih => exact List.Lex.append_left _ ih _
  | rel smaller => exact lex_utf8EncodeChar smaller _ _

theorem lex_bytes {first second : String} (less : first < second) :
    List.Lex (· < ·) (bytes first) (bytes second) := by
  rw [bytes_eq_flatMap, bytes_eq_flatMap]
  exact lex_flatMap_utf8EncodeChar (String.lt_iff_toList_lt.mp less)

/-- **Texts are ordered as their bytes are.** -/
theorem lt_iff_lex_bytes {first second : String} :
    first < second ↔ List.Lex (· < ·) (bytes first) (bytes second) := by
  refine ⟨lex_bytes, ?_⟩
  intro less
  rcases lt_trichotomy first second with before | rfl | after
  · exact before
  · exact absurd less (irrefl_of (List.Lex (· < ·)) _)
  · exact absurd (lex_bytes after) (asymm_of (List.Lex (· < ·)) less)

end Lending.Text
