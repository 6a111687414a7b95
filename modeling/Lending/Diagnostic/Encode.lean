import Lending.Diagnostic.Basic
import Lending.Evaluation
import Lending.Program.Encode

/-!
# Diagnostics as data

The form in which diagnostics and observations are written for other programs. The members of
each record stand in alphabetical order.
-/

namespace Lending

namespace Defect

/-- The defect as the value of the member `reason`. -/
def keyword : Defect → String
  | .unknownName .. => "unknown_name"
  | .notAReference .. => "not_a_reference"
  | .notABinding .. => "not_a_binding"
  | .writeThroughShared .. => "write_through_shared"
  | .unbalancedScope => "unbalanced_scope"
  | .emptyIdentifier => "empty_identifier"

/-- The suggestions that come with the defect. -/
def suggestions? : Defect → Option (List String)
  | .unknownName _ suggestions => some suggestions
  | _ => none

end Defect

/-- The error as a record. -/
def ProgramError.toDatum (error : ProgramError) : Datum :=
  .record (
    [("index", .nat error.index)] ++
    Fields.present "name" (error.defect.name?.map .text) ++
    [("reason", .text error.defect.keyword)] ++
    Fields.present "suggestions" (error.defect.suggestions?.map .texts))

/-- The diagnostic as a record. -/
def Diagnostic.toDatum (diagnostic : Diagnostic) : Datum :=
  let kind := ("kind", .text diagnostic.violation.kind.keyword)
  let position := Fields.present "position" (diagnostic.position.map Position.toDatum)
  .record <| match diagnostic.violation with
    | .exclusivity binding requested reference held holders =>
        [("binding", .text binding), ("held", .text held.keyword), ("holders", .texts holders),
          kind] ++ position ++ Fields.present "reference" (reference.map .text) ++
          [("requested", .text requested.keyword)]
    | .ownerAccess binding access held holders =>
        [("access", .text access.keyword), ("binding", .text binding),
          ("held", .text held.keyword), ("holders", .texts holders), kind] ++ position
    | .immutableAssignment name => [kind, ("name", .text name)] ++ position
    | .danglingReferent binding references =>
        [("binding", .text binding), kind] ++ position ++ [("references", .texts references)]
    | .unsupportedMode mode => [kind, ("mode", .text mode.keyword)]
    | .malformedProgram error => [("error", error.toDatum), kind] ++ position

/-- The observation as a record. -/
def Observation.toDatum (observation : Observation) : Datum :=
  .record [("index", .nat observation.index), ("name", .text observation.name),
    ("value", .int observation.value.val)]

end Lending
