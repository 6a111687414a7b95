/-!
# Edit distance

The least number of insertions, deletions and substitutions of single characters that turn one
text into another. The table of distances between prefixes is computed one row at a time, in two
rows that take turns: the row before is read, and the other one is written over, entry by entry.
-/

namespace Lending.Text

/-- Two rows of a table of distances. The row that is written still holds what was there before. -/
structure Rows where
  previous : Array Nat
  current : Array Nat
deriving Repr

namespace Rows

/-- The rows before the first source character: distances from the empty source to the prefixes of
a target with `width` characters. -/
def start (width : Nat) : Rows where
  previous := Array.range (width + 1)
  current := Array.replicate (width + 1) 0

/-- Writes an entry, if the row has one there. -/
def write? (rows : Rows) (column entry : Nat) : Option Rows :=
  if inside : column < rows.current.size then
    some { rows with current := rows.current.set column entry inside }
  else none

/-- Writes the entry right of a column, for the source character `c` and the target character `t`,
from the entries above it, to its left and above that one. -/
def fill? (rows : Rows) (c t : Char) (column : Nat) : Option Rows := do
  let above ← rows.previous[column + 1]?
  let left ← rows.current[column]?
  let diagonal ← rows.previous[column]?
  rows.write? (column + 1) (min (min (above + 1) (left + 1)) (diagonal + if c = t then 0 else 1))

/-- Writes the entries right of a column, for the target characters that are left. -/
def fillFrom? (c : Char) (column : Nat) : List Char → Rows → Option Rows
  | [], rows => some rows
  | t :: target, rows => do
      let filled ← rows.fill? c t column
      fillFrom? c (column + 1) target filled

/-- Writes the row for one more source character `c`, which is the one with the given number. The
rows change places. -/
def next? (target : List Char) (number : Nat) (c : Char) (rows : Rows) : Option Rows := do
  let started ← rows.write? 0 (number + 1)
  let filled ← fillFrom? c 0 target started
  return { previous := filled.current, current := filled.previous }

/-- Writes the rows for the source characters that are left. -/
def nextFrom? (target : List Char) (number : Nat) : List Char → Rows → Option Rows
  | [], rows => some rows
  | c :: source, rows => do
      let next ← rows.next? target number c
      nextFrom? target (number + 1) source next

end Rows

/-- The last entry of the table of distances, if no entry outside of the rows is asked for. -/
def editDistance? (source target : String) : Option Nat := do
  let width := target.toList.length
  let rows ← Rows.nextFrom? target.toList 0 source.toList (.start width)
  rows.previous[width]?

/-- The edit distance between two texts, counted in characters. -/
def editDistance (source target : String) : Nat :=
  (editDistance? source target).getD 0

end Lending.Text
