/-!
# Scopes

A stack of open frames, innermost first. Each frame lists what was declared in it, newest first,
shadowed declarations included. So a name means the first entry found for it, and a frame read
from the front is the order in which its entities are destroyed. Frames that keep these two views
apart, with symbols for names, answer alike (`Lending.Proofs.Symbols`).
-/

namespace Lending

/-- The declarations of one scope, newest first. -/
abbrev Frame (α : Type) := List (String × α)

/-- The open frames, innermost first. -/
structure Scopes (α : Type) where
  frames : List (Frame α)
deriving DecidableEq, Repr

namespace Scopes

variable {α : Type}

/-- Only the outermost frame is open, and it is empty. -/
def root : Scopes α :=
  { frames := [[]] }

instance : Inhabited (Scopes α) := ⟨root⟩

/-- How many frames stand around the innermost one. -/
def depth (scopes : Scopes α) : Nat :=
  scopes.frames.length - 1

/-- Opens a frame. -/
def enter (scopes : Scopes α) : Scopes α :=
  { frames := [] :: scopes.frames }

/-- What a name means: its newest declaration in the innermost frame that has one. -/
def lookup (scopes : Scopes α) (name : String) : Option α :=
  scopes.frames.findSome? fun frame => List.lookup name frame

/-- What a name means in the innermost frame alone. -/
def lookupInner (scopes : Scopes α) (name : String) : Option α :=
  match scopes.frames with
  | frame :: _ => List.lookup name frame
  | [] => none

/-- Declares a name in the innermost frame. Nothing happens when no frame is open. -/
def declare (scopes : Scopes α) (name : String) (entity : α) : Scopes α :=
  match scopes.frames with
  | frame :: outer => { frames := ((name, entity) :: frame) :: outer }
  | [] => scopes

/-- The entities of a frame in the order in which they are destroyed: newest first. -/
def destructionOrder (frame : Frame α) : List α :=
  frame.map (·.2)

/-- Closes the innermost frame and gives its entities in the order of their destruction. The last
open frame cannot be closed in this way. -/
def exit? (scopes : Scopes α) : Option (List α × Scopes α) :=
  match scopes.frames with
  | frame :: next :: outer => some (destructionOrder frame, { frames := next :: outer })
  | _ => none

/-- Closes all frames, innermost first, and gives their entities in the order of their
destruction. -/
def finish (scopes : Scopes α) : List α × Scopes α :=
  (scopes.frames.flatMap destructionOrder, { frames := [] })

/-- The names declared in the open frames, once for each declaration. -/
def names (scopes : Scopes α) : List String :=
  scopes.frames.flatMap fun frame => frame.map (·.1)

end Scopes

end Lending
