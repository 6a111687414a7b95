import Lending.Text.Blank

/-!
# Kinds of violation

The categories into which diagnostics fall, with the names, codes and explanations shown to
users. A kind can be looked up by its name or its code in any case and with any separators.
-/

namespace Lending

/-- A category of diagnostics. -/
inductive ViolationKind where
  | exclusivity
  | ownerAccess
  | immutableAssignment
  | danglingReferent
  | unsupportedMode
  | malformedProgram
deriving DecidableEq, Repr, Inhabited

namespace ViolationKind

/-- The kinds, in the order in which they are listed to users. -/
def all : List ViolationKind :=
  [.exclusivity, .ownerAccess, .immutableAssignment, .danglingReferent, .unsupportedMode,
   .malformedProgram]

/-- The name of the kind. -/
def name : ViolationKind → String
  | .exclusivity => "ExclusivityViolation"
  | .ownerAccess => "OwnerAccessWhileBorrowed"
  | .immutableAssignment => "ImmutableOwnerAssignment"
  | .danglingReferent => "DanglingReferentViolation"
  | .unsupportedMode => "UnsupportedMode"
  | .malformedProgram => "MalformedProgram"

/-- The kind as the member `kind` of a diagnostic that is written as data. -/
def keyword : ViolationKind → String
  | .exclusivity => "exclusivity_violation"
  | .ownerAccess => "owner_access_while_borrowed"
  | .immutableAssignment => "immutable_owner_assignment"
  | .danglingReferent => "dangling_referent_violation"
  | .unsupportedMode => "unsupported_mode"
  | .malformedProgram => "malformed_program"

/-- The code that stays the same from one release to the next. -/
def code : ViolationKind → String
  | .exclusivity => "borrowck::exclusivity"
  | .ownerAccess => "borrowck::owner_access"
  | .immutableAssignment => "borrowck::immutable_assignment"
  | .danglingReferent => "borrowck::dangling_referent"
  | .unsupportedMode => "borrowck::unsupported_mode"
  | .malformedProgram => "borrowck::malformed_program"

/-- The rule behind the kind. -/
def explanation : ViolationKind → String
  | .exclusivity =>
      "A binding may be borrowed by any number of shared references or by exactly one " ++
      "exclusive reference, never both. Declaring or rebinding a reference, or reading " ++
      "a binding through a temporary shared borrow, fails when the new borrow conflicts " ++
      "with one that is still live. Borrows last until the end of the declaring scope."
  | .ownerAccess =>
      "While a binding is lent out its owner is restricted too. A live shared reference " ++
      "makes the binding read-only, so the owner cannot assign to it. A live exclusive " ++
      "reference makes it inaccessible, so the owner can neither read nor assign it."
  | .immutableAssignment =>
      "Only bindings declared mutable can be reassigned, and only reference variables " ++
      "declared mutable can be rebound to a new target. This holds whether or not the " ++
      "binding is borrowed."
  | .danglingReferent =>
      "A reference must not outlive its referent. Leaving a scope destroys its entities " ++
      "in reverse declaration order, so a reference declared before the binding it " ++
      "points to is still live when that binding is destroyed."
  | .unsupportedMode =>
      "Only lexical borrow checking is implemented. Non-lexical lifetimes, where a " ++
      "borrow ends at its last use, are rejected before analysis starts."
  | .malformedProgram =>
      "The program breaks the model's static rules: an unknown name, a binding used " ++
      "where a reference is required or the reverse, a write through a shared " ++
      "reference, or an unmatched scope exit. Borrow analysis does not run."

/-- The form in which names and codes are compared: ASCII letters and digits in lower case. -/
def normalize (text : String) : List Char :=
  (text.toList.filter Char.isAlphanum).map Char.toLower

/-- The kind with the given name or code, or the message that there is none. -/
def parse (text : String) : Except String ViolationKind :=
  let wanted := normalize text
  match all.find? fun kind => normalize kind.name == wanted || normalize kind.code == wanted with
  | some kind => .ok kind
  | none => .error s!"unknown violation kind `{text}`"

end ViolationKind

end Lending
