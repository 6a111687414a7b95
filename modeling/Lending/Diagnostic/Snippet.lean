import Lending.Diagnostic.Basic
import Lending.Text.Lines
import Lending.Text.Width

/-!
# Source snippets

A diagnostic drawn into its source: the lines around its span, one line of context before and
after, with the span underlined and labelled. Offsets count bytes; columns count display width.
-/

namespace Lending.Snippet

/-! ## The lines around a span -/

/-- A range of bytes: where it starts, and how many there are. -/
structure Extent where
  start : Nat
  length : Nat
deriving DecidableEq, Repr, Inhabited

/-- The first byte behind the extent. -/
def Extent.stop (extent : Extent) : Nat :=
  extent.start + extent.length

/-- The end of the extent where an empty one counts as one byte. -/
def Extent.visibleStop (extent : Extent) : Nat :=
  extent.start + max extent.length 1

/-- The state of the search for the lines around an extent. -/
structure Search where
  offset : Nat := 0
  /-- The index of the first line that is kept. -/
  line : Nat := 0
  /-- The number of bytes before the extent on its line. -/
  column : Nat := 0
  /-- The starts of the lines kept before the extent. -/
  starts : List Nat := []
  lineStart : Nat := 0
  /-- The number of complete lines behind the extent. -/
  linesAfter : Nat := 0
  /-- Whether the last byte of the extent has been passed. -/
  isPast : Bool := false
  /-- Whether the line on which the extent ends is complete. -/
  isLineDone : Bool := false
  /-- Whether enough lines have been found. -/
  isStopped : Bool := false
deriving DecidableEq, Repr, Inhabited

/-- Ends the search behind the current byte if enough lines follow the extent. -/
def Search.stopAt (search : Search) (after : Nat) : Search :=
  if after ≤ search.linesAfter then
    { search with offset := search.offset + 1, isStopped := true }
  else search

/-- Takes a line end, at the last byte of it. -/
def Search.lineEnd (search : Search) (extent : Extent) (before after : Nat) : Search :=
  let passed :=
    if search.offset < extent.start then
      let starts := search.starts ++ [search.lineStart]
      if before < starts.length then
        { search with column := 0, line := search.line + 1, starts := starts.tail }
      else { search with column := 0, starts }
    else if extent.start + (extent.length - 1) ≤ search.offset && search.isPast then
      let counted :=
        if search.isLineDone then
          { search with column := 0, linesAfter := search.linesAfter + 1 }
        else { search with column := 0, isLineDone := true }
      counted.stopAt after
    else search
  if passed.isStopped then passed else { passed with lineStart := passed.offset + 1 }

/-- Goes on to the next byte, unless the search ends here. -/
def Search.advance (search : Search) (extent : Extent) (after : Nat) : Search :=
  if search.isStopped then search
  else
    let passed :=
      if extent.stop - 1 ≤ search.offset then { search with isPast := true }.stopAt after
      else search
    if passed.isStopped then passed else { passed with offset := passed.offset + 1 }

/-- Searches the bytes of the source. A carriage return right before a newline belongs to it. -/
def search (extent : Extent) (before after : Nat) (state : Search) : List UInt8 → Search
  | [] => state
  | 13 :: 10 :: rest =>
      if state.isStopped then state
      else
        let atNewline := { state with offset := state.offset + 1 }
        search extent before after
          ((atNewline.lineEnd extent before after).advance extent after) rest
  | byte :: rest =>
      if state.isStopped then state
      else if byte = 13 ∨ byte = 10 then
        search extent before after ((state.lineEnd extent before after).advance extent after) rest
      else
        let passed :=
          if state.offset < extent.start then { state with column := state.column + 1 } else state
        search extent before after (passed.advance extent after) rest

/-- The part of the source that is shown: its bytes, the index of its first line, and the column
at which it starts. -/
structure Window where
  start : Nat
  stop : Nat
  line : Nat
  column : Nat
deriving DecidableEq, Repr, Inhabited

/-- The window around an extent, with some lines before and after, unless the extent lies outside
the source. -/
def window? (source : String) (extent : Extent) (before after : Nat) : Option Window :=
  let found := search extent before after {} source.toUTF8.data.toList
  if extent.stop - 1 ≤ found.offset then
    some {
      start := found.starts.head?.getD (if before = 0 then extent.start else 0)
      stop := found.offset
      line := found.line
      column := if before = 0 then found.column else 0 }
  else none

/-! ## Lines -/

/-- A line of the window. -/
structure Line where
  number : Nat
  /-- The offset of its first byte. -/
  offset : Nat
  /-- The number of its bytes, line end included. -/
  length : Nat
  text : List Char
deriving DecidableEq, Repr, Inhabited

/-- The number of bytes of a text. -/
def byteLength (text : List Char) : Nat :=
  text.foldl (fun length c => length + c.utf8Size) 0

/-- Splits the characters into lines at newlines. The line that is open is given in reverse. A last
line that ends in a carriage return is not counted: it has the number of the line before it. -/
def splitLines (number offset : Nat) (current : List Char) : List Char → List Line
  | [] =>
      match current with
      | [] => []
      | last :: _ =>
          [{ number := if last = '\r' then number - 1 else number
             offset
             length := byteLength current
             text := current.reverse }]
  | '\n' :: rest =>
      let length := byteLength current + 1
      let text := match current with
        | '\r' :: before => before.reverse
        | all => all.reverse
      { number, offset, length, text } :: splitLines (number + 1) (offset + length) [] rest
  | c :: rest => splitLines number offset (c :: current) rest

/-- The lines of a window. -/
def linesOf (source : String) (window : Window) : List Line :=
  let shown := (Text.offsets source).filter fun entry =>
    decide (window.start ≤ entry.1) && decide (entry.1 < window.stop)
  splitLines (window.line + 1) window.start [] (shown.map (·.2))

namespace Line

/-- The offset behind the line. -/
def stop (line : Line) : Nat :=
  line.offset + line.length

/-- Whether the extent lies on this line alone. -/
def holds (line : Line) (extent : Extent) : Bool :=
  decide (line.offset ≤ extent.start) && decide (extent.stop ≤ line.stop)

/-- Whether the extent starts inside the line. -/
def startsInside (line : Line) (extent : Extent) : Bool :=
  decide (line.offset ≤ extent.start) && decide (extent.start < line.stop)

/-- Whether the extent ends inside the line. -/
def endsInside (line : Line) (extent : Extent) : Bool :=
  decide (line.offset < extent.visibleStop) && decide (extent.visibleStop ≤ line.stop)

/-- Whether the extent has a part on the line. -/
def meets (line : Line) (extent : Extent) : Bool :=
  line.startsInside extent ||
    (decide (extent.start < line.offset) && decide (line.stop < extent.visibleStop)) ||
    line.endsInside extent

/-- Whether the extent has a part on the line and goes on beyond it. -/
def meetsGutter (line : Line) (extent : Extent) : Bool :=
  line.meets extent && !(line.startsInside extent && line.endsInside extent)

/-- Whether the extent starts on the line or behind it. -/
def isFirst (line : Line) (extent : Extent) : Bool :=
  decide (line.offset ≤ extent.start)

/-- Whether the extent ends on the line. -/
def isLast (line : Line) (extent : Extent) : Bool :=
  decide (line.offset ≤ extent.stop) && decide (extent.stop ≤ line.stop)

/-- Whether the extent starts before the line and ends behind it. -/
def isInner (line : Line) (extent : Extent) : Bool :=
  decide (extent.start < line.offset) && decide (line.stop < extent.stop)

/-- The characters in front of byte `offset` of a text, and whether the offset lies behind the
text. An offset inside a character is moved to its start or its end. -/
def charsBefore (toStart : Bool) (offset : Nat) : List Char → List Char × Bool
  | [] => ([], decide (0 < offset))
  | c :: rest =>
      if offset = 0 then ([], false)
      else if offset < c.utf8Size then ((if toStart then [] else [c]), false)
      else
        let (before, isBehind) := charsBefore toStart (offset - c.utf8Size) rest
        (c :: before, isBehind)

/-- The display column of a byte of the source; behind the text of the line there is one more. -/
def columnOf (line : Line) (offset : Nat) (toStart : Bool) : Nat :=
  let (before, isBehind) := charsBefore toStart (offset - line.offset) line.text
  Text.lineWidth before + if isBehind then 1 else 0

end Line

/-! ## Drawing -/

/-- The same character some times over. -/
def times (count : Nat) (c : Char) : String :=
  String.ofList (List.replicate count c)

/-- The marks in front of a line that show how a long extent runs. -/
def gutter (line : Line) (extent : Extent) : String :=
  if line.meetsGutter extent then
    if line.isFirst extent then "╭─▶ "
    else if line.isLast extent then "├─▶ "
    else if line.isInner extent then "│   "
    else "    "
  else "    "

/-- A label behind the mark that leads to it: `single` in front of a label of one line, else
`first` and `next` in front of its lines. -/
def labelRows (single first next label : String) : List String :=
  match Text.splitLines label with
  | [line] => [single ++ line]
  | line :: rest => (first ++ line) :: rest.map (next ++ ·)
  | [] => []

/-- The rows under a line: the underline with the label, or the end of a long extent. -/
def marks (line : Line) (extent : Extent) (label : String) : List String :=
  if !line.meets extent then []
  else if line.holds extent then
    let first := line.columnOf extent.start true
    let last := if extent.length = 0 then first + 1
      else max (line.columnOf extent.stop false) (first + 1)
    let middle := (first + last) / 2
    let pointer := if extent.length = 0 then "▲" else "┬"
    (times first ' ' ++ times (middle - first) '─' ++ pointer ++ times (last - middle - 1) '─') ::
      (labelRows "╰── " "╰─┤ " "  │ " label).map (times middle ' ' ++ ·)
  else if line.isLast extent && !line.isFirst extent then
    labelRows "╰──── " "╰──┤ " "   │ " label
  else []

/-- The snippet of a source for an extent. -/
def draw (source : SourceText) (extent : Extent) (label : String) : String :=
  match window? source.text extent 1 1 with
  | none =>
      s!"  [Failed to read contents for label `{label}` (offset: {extent.start}, length: " ++
        s!"{extent.length}): OutOfBounds]\n"
  | some shown =>
      let header := (window? source.text extent 0 0).getD shown
      let lines := linesOf source.text shown
      let lastNumber := (lines.getLast?.map (·.number)).getD 0
      let width := (toString lastNumber).length
      let hasGutter := lines.any fun line => !line.holds extent && line.meetsGutter extent
      let rows := lines.map fun line =>
        " " ++ Program.padLeft width (toString line.number) ++ " │ " ++
          (if hasGutter then gutter line extent else "") ++
          String.ofList (Text.expandTabs line.text) ++ "\n" ++
          String.join ((marks line extent label).map fun row =>
            " " ++ times width ' ' ++ " · " ++ row ++ "\n")
      times (width + 2) ' ' ++ s!"╭─[{source.path}:{header.line + 1}:{header.column + 1}]\n" ++
        String.join rows ++ times (width + 2) ' ' ++ "╰────\n"

end Lending.Snippet

namespace Lending

/-- The lines of a text behind an indent, which is `first` for the first line and `next` for all
others. Spaces at the end of a line are dropped. -/
def Snippet.paragraph (first next text : String) : String :=
  match Text.splitLines text with
  | [] => ""
  | line :: rest =>
      String.join ((first ++ Text.trimSpacesEnd line ++ "\n") ::
        rest.map fun line => next ++ Text.trimSpacesEnd line ++ "\n")

/-- The diagnostic with a snippet of its source, if the program has a source and the diagnostic a
span. -/
def Program.snippet? (program : Program) (diagnostic : Diagnostic) : Option String := do
  let source ← program.source
  let span ← (← diagnostic.position).span
  let violation := diagnostic.violation
  let extent : Snippet.Extent := { start := span.span.start.toNat, length := span.span.length }
  return s!"{violation.kind.code}\n\n" ++
    Snippet.paragraph "  × " "  │ " violation.message ++
    Snippet.draw source extent violation.label ++
    Snippet.paragraph "  help: " "        " violation.help

end Lending
