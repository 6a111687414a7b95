/-!
# Lines and columns

The lines of a text, and where a byte offset falls in it: the line is the last one that starts at
the offset or before it. The column counts characters from the start of the line when the offset is
a character boundary of the text, and bytes otherwise, so every offset has a place, also past the
end.
-/

namespace Lending.Text

/-- The lines between the newlines of some characters; the line that is open is given in reverse. -/
def splitLinesFrom (current : List Char) : List Char → List String
  | [] => [String.ofList current.reverse]
  | '\n' :: rest => String.ofList current.reverse :: splitLinesFrom [] rest
  | c :: rest => splitLinesFrom (c :: current) rest

/-- The lines of a text. A newline at its end is followed by an empty line. -/
def splitLines (text : String) : List String :=
  splitLinesFrom [] text.toList

/-- The text without the spaces at its end. -/
def trimSpacesEnd (text : String) : String :=
  String.ofList (text.toList.reverse.dropWhile (· == ' ')).reverse

/-- The characters of a text, each with the byte offset at which it starts. -/
def charOffsets : List Char → Nat → List (Nat × Char)
  | [], _ => []
  | c :: rest, offset => (offset, c) :: charOffsets rest (offset + c.utf8Size)

/-- The characters of a text with their byte offsets, from the front. -/
def offsets (text : String) : List (Nat × Char) :=
  charOffsets text.toList 0

/-- Whether `offset` is the end of the text or the start of one of its characters. -/
def isBoundary (text : String) (offset : Nat) : Bool :=
  offset == text.utf8ByteSize || (offsets text).any fun entry => entry.1 == offset

/-- The characters between two byte offsets. There are none to give when the range runs backwards or
an end of it is no character boundary. -/
def slice? (text : String) (start stop : Nat) : Option (List Char) :=
  if decide (start ≤ stop) && isBoundary text start && isBoundary text stop then
    some (((offsets text).filter fun entry =>
      decide (start ≤ entry.1) && decide (entry.1 < stop)).map (·.2))
  else none

/-! ## Search -/

/-- Where a number stands among the rising entries of an array. -/
inductive Bisection where
  /-- It is the entry at `index`. -/
  | hit (index : Nat)
  /-- It is no entry, and would have to be put in at `index`. -/
  | gap (index : Nat)
deriving DecidableEq, Repr

/-- Looks for `key` among the entries from `low` up to `high`, which is halved each time. -/
def bisectFrom (entries : Array Nat) (key low high : Nat) (bound : high ≤ entries.size) : Bisection :=
  if nonempty : low < high then
    have inside : low + (high - low) / 2 < entries.size := by omega
    if entries[low + (high - low) / 2] = key then .hit (low + (high - low) / 2)
    else if entries[low + (high - low) / 2] < key then
      bisectFrom entries key (low + (high - low) / 2 + 1) high bound
    else bisectFrom entries key low (low + (high - low) / 2) (Nat.le_of_lt inside)
  else .gap low
termination_by high - low

/-- Looks for `key` among all entries. -/
def bisect (entries : Array Nat) (key : Nat) : Bisection :=
  bisectFrom entries key 0 entries.size (Nat.le_refl _)

/-! ## Lines of a text -/

/-- A text with the byte offsets at which its lines start. -/
structure LineIndex where
  text : String
  starts : Array Nat
deriving DecidableEq, Repr

namespace LineIndex

/-- A line starts at the front, and one behind each newline. -/
def ofText (text : String) : LineIndex where
  text := text
  starts := (0 :: ((offsets text).filter (·.2 == '\n')).map (·.1 + 1)).toArray

/-- The number of the line of a byte offset, counted from 0. -/
def line (index : LineIndex) (offset : Nat) : Nat :=
  match bisect index.starts offset with
  | .hit line => line
  | .gap next => next - 1

/-- The line and the column of a byte offset, both counted from 1. -/
def lineCol (index : LineIndex) (offset : Nat) : Nat × Nat :=
  let line := index.line offset
  let start := index.starts.getD line 0
  let column := match slice? index.text start offset with
    | some chars => chars.length
    | none => offset - start
  (line + 1, column + 1)

end LineIndex

/-- The line and the column of a byte offset in a text, both counted from 1. -/
def lineCol (text : String) (offset : Nat) : Nat × Nat :=
  (LineIndex.ofText text).lineCol offset

end Lending.Text
