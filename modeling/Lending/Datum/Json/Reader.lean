import Lending.Datum.Json.Token

/-!
# Reading JSON

Puts tokens together to a datum. The brackets that are open form a stack, and each token takes
one step, so reading follows the list of tokens. At most `maxOpen` brackets may be open around
a value that is to be read; a value behind more of them is unreadable.
-/

namespace Lending.Json

/-- The largest number of brackets that may be open at once around what is read. -/
def maxOpen : Nat := 127

/-- An open bracket with what has been read inside it, latest first. -/
inductive Frame where
  | list (items : List Datum)
  /-- The members so far, the name of the member being read, and whether all names so far
  could be taken up. -/
  | record (fields : Fields) (name : String) (isReadable : Bool)
deriving Inhabited

/-- What may come next. -/
inductive Stage where
  /-- A value. -/
  | value
  /-- A value or the end of the list that was just opened. -/
  | firstItem
  /-- A name or the end of the record that was just opened. -/
  | firstName
  /-- A name. -/
  | name
  /-- The colon behind a name. -/
  | colon
  /-- A comma or a closing bracket. -/
  | next
  /-- Nothing: the text is complete. -/
  | done (result : Datum)
deriving Inhabited

/-- The state of reading: the open brackets, innermost first, and what may come next. -/
structure State where
  frames : List Frame := []
  stage : Stage := .value
deriving Inhabited

namespace State

/-- Takes up a complete value. -/
def accept (frames : List Frame) (value : Datum) : State :=
  match frames with
  | [] => { stage := .done value }
  | .list items :: outer => { frames := .list (value :: items) :: outer, stage := .next }
  | .record fields name isReadable :: outer =>
      { frames := .record ((name, value) :: fields) name isReadable :: outer, stage := .next }

/-- Takes up a value whose closing bracket has been read; `frames` are the brackets around it. -/
def close (frames : List Frame) (value : Datum) : State :=
  accept frames (if frames.length < maxOpen then value else .unreadable)

/-- Takes up the name of a member. A name that cannot be taken up spoils the record. -/
def acceptName (frames : List Frame) (name : Option String) : Option State :=
  match frames with
  | .record fields _ isReadable :: outer =>
      some {
        frames := .record fields (name.getD "") (isReadable && name.isSome) :: outer
        stage := .colon }
  | _ => none

/-- A token where a value is expected. -/
def acceptValue (frames : List Frame) : Token → Option State
  | .text (some value) => some (accept frames (.text value))
  | .text none => some (accept frames .unreadable)
  | .scalar value => some (accept frames value)
  | .openList => some { frames := .list [] :: frames, stage := .firstItem }
  | .openRecord => some { frames := .record [] "" true :: frames, stage := .firstName }
  | _ => none

/-- The closing bracket of the innermost list or record. -/
def acceptClose (frames : List Frame) : Token → Option State
  | .closeList =>
      match frames with
      | .list items :: outer => some (close outer (.list items.reverse))
      | _ => none
  | .closeRecord =>
      match frames with
      | .record fields _ isReadable :: outer =>
          some (close outer (if isReadable then .record fields.reverse else .unreadable))
      | _ => none
  | _ => none

/-- Takes one token. -/
def step (state : State) (token : Token) : Option State :=
  match state.stage with
  | .value => acceptValue state.frames token
  | .firstItem =>
      match token with
      | .closeList => acceptClose state.frames token
      | _ => acceptValue state.frames token
  | .firstName =>
      match token with
      | .closeRecord => acceptClose state.frames token
      | .text name => acceptName state.frames name
      | _ => none
  | .name =>
      match token with
      | .text name => acceptName state.frames name
      | _ => none
  | .colon =>
      match token with
      | .colon => some { state with stage := .value }
      | _ => none
  | .next =>
      match token with
      | .comma =>
          match state.frames with
          | .list _ :: _ => some { state with stage := .value }
          | .record _ _ _ :: _ => some { state with stage := .name }
          | [] => none
      | _ => acceptClose state.frames token
  | .done _ => none

/-- The datum that has been read, if the text is complete. -/
def result? (state : State) : Option Datum :=
  match state.stage with
  | .done value => some value
  | _ => none

end State

/-- The datum that the tokens make up. -/
def ofTokens? (tokens : List Token) : Option Datum :=
  match tokens.foldlM State.step {} with
  | some state => state.result?
  | none => none

/-- The datum of a JSON text. -/
def read? (text : String) : Option Datum :=
  match tokens? text with
  | some tokens => ofTokens? tokens
  | none => none

end Lending.Json
