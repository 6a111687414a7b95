import Lending.Diagnostic.Basic
import Lending.Text.Lines

/-!
# Text reports

Diagnostics as blocks of plain text: the message with its code, the place, and the help. The place
is a line and column of the source if both are known, and else the statement itself.
-/

namespace Lending

/-- The place of a diagnostic in words. -/
def Program.locate (program : Program) (position : Position) : String :=
  match position.span, program.source with
  | some span, some source =>
      let (line, column) := Text.lineCol source.text span.span.start.toNat
      s!"{source.path}:{line}:{column}"
  | _, _ =>
      match program.statements[position.index]? with
      | some statement =>
          if position.endOfProgram then position.render
          else s!"{position.render}: {statement.action.render}"
      | none => position.render

/-- One diagnostic as a block of text, with an empty line at its end. -/
def Program.reportBlock (program : Program) (diagnostic : Diagnostic) : String :=
  let violation := diagnostic.violation
  let place := match diagnostic.position with
    | some position => s!" --> {program.locate position}\n"
    | none => ""
  s!"error[{violation.kind.code}]: {violation.message}\n{place}  = help: {violation.help}\n\n"

/-- All diagnostics as text. -/
def Program.report (program : Program) (diagnostics : List Diagnostic) : String :=
  String.join (diagnostics.map program.reportBlock)

end Lending
