/-!
# Source spans and positions

A span is a range of bytes in a source file; a position says which statement of a program is
meant, together with its span if it has one.
-/

namespace Lending

/-- A range of byte offsets, `stop` excluded. Nothing forces `start ≤ stop`. -/
structure Span where
  start : UInt32
  stop : UInt32
deriving DecidableEq, Repr, Inhabited

namespace Span

/-- The number of bytes in the span, zero when it runs backwards. -/
def length (span : Span) : Nat :=
  span.stop.toNat - span.start.toNat

/-- Whether the span holds no byte. -/
def isEmpty (span : Span) : Bool :=
  decide (span.stop.toNat ≤ span.start.toNat)

/-- The span as `start..stop`. -/
def render (span : Span) : String :=
  s!"{span.start.toNat}..{span.stop.toNat}"

end Span

/-- A span in a numbered source file. -/
structure FileSpan where
  file : UInt32 := 0
  span : Span
deriving DecidableEq, Repr, Inhabited

/-- The file of a span as it is written in reports. -/
def FileSpan.fileName (span : FileSpan) : String :=
  s!"file#{span.file.toNat}"

/-- A place in a program. What happens after the last statement has the number of statements as
its index and is marked as the end of the program. -/
structure Position where
  index : Nat
  span : Option FileSpan := none
  endOfProgram : Bool := false
deriving DecidableEq, Repr, Inhabited

namespace Position

/-- The place of the statement with the given index and span. -/
def statement (index : Nat) (span : Option FileSpan) : Position :=
  { index, span }

/-- The place after the last of `count` statements. -/
def atEnd (count : Nat) : Position :=
  { index := count, endOfProgram := true }

/-- The position in words. -/
def render (position : Position) : String :=
  if position.endOfProgram then "end of program" else s!"statement {position.index}"

end Position

end Lending
