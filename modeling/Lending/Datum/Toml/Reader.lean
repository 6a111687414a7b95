import Lending.Datum.Toml.Lexeme
import Lending.Datum.Toml.Table

/-!
# Reading TOML

A TOML text is a sequence of headers and of lines with a key and a value. Brackets in values may be
nested up to a limit, on which the recursion runs; what stands inside a bracket is read in rounds,
each of which takes at least one character.
-/

namespace Lending.Toml

/-- The largest number of brackets that may be open at once in a value. -/
def maxOpen : Nat := 79

/-- The largest number of parts of a dotted key. -/
def maxKeyParts : Nat := 79

/-! ## Keys and values -/

/-- The parts of a dotted key, in at most `rounds` rounds. -/
def keyParts : Nat → Reader (List String)
  | 0 => failure
  | rounds + 1 => do
      spaces
      let part ← simpleKey
      spaces
      if ← accept '.' then
        return part :: (← keyParts rounds)
      else return [part]

/-- A dotted key. -/
def key : Reader (List String) :=
  keyParts maxKeyParts

/-- The items of an array behind its opening bracket, with a comma allowed behind the last. -/
def items (value : Reader Datum) : Nat → Reader (List Datum)
  | 0 => failure
  | rounds + 1 => do
      blanks
      if ← accept ']' then return []
      let item ← value
      blanks
      if ← accept ',' then
        return item :: (← items value rounds)
      expect ']'
      return [item]

/-- The members of an inline table, with no comma behind the last. -/
def members (value : Reader Datum) (entries : Entries) : Nat → Reader Entries
  | 0 => failure
  | rounds + 1 => do
      let path ← key
      expect '='
      spaces
      let datum ← value
      spaces
      match entries.insert datum path true with
      | none => failure
      | some entries =>
          if ← accept ',' then members value entries rounds
          else
            expect '\x7d'
            return entries

/-- An inline table behind its opening bracket. -/
def inlineTable (value : Reader Datum) : Reader Datum := do
  spaces
  if ← accept '\x7d' then return .record []
  let entries ← members value [] (← get).length
  return .record (entriesToFields entries)

/-- A value in which at most the given number of brackets may be nested. -/
def value : Nat → Reader Datum
  | 0 => do
      match ← get with
      | '"' :: _ => .text <$> text
      | '\x27' :: _ => .text <$> text
      | _ => scalar
  | room + 1 => do
      match ← get with
      | '"' :: _ => .text <$> text
      | '\x27' :: _ => .text <$> text
      | '[' :: rest =>
          set rest
          .list <$> items (value room) (rest.length + 1)
      | '\x7b' :: rest =>
          set rest
          inlineTable (value room)
      | _ => scalar

/-! ## Documents -/

/-- A document in the making: its root table, and the path of the table that a header opened. -/
structure Document where
  root : Entries := []
  path : List String := []
deriving Inhabited

namespace Document

/-- Opens the table of a header. -/
def header (document : Document) (path : List String) (isArray : Bool) : Option Document :=
  match path.getLast? with
  | none => none
  | some name =>
      let change := if isArray then Entries.openNext name else Entries.openTable name
      (document.root.within change path.dropLast).map fun root => { root, path }

/-- Puts a value under a key of the open table. -/
def assign (document : Document) (path : List String) (datum : Datum) : Option Document :=
  (document.root.within (Entries.insert datum path true) document.path).map fun root =>
    { document with root }

end Document

/-- A header behind its first bracket. -/
def header (document : Document) : Reader Document := do
  let isArray ← accept '['
  let path ← key
  expect ']'
  if isArray then expect ']'
  lineEnd
  liftM (document.header path isArray)

/-- A line with a key and a value. -/
def assignment (document : Document) : Reader Document := do
  let path ← key
  expect '='
  spaces
  let datum ← value maxOpen
  lineEnd
  liftM (document.assign path datum)

/-- The rest of a document, in at most `rounds` rounds. -/
def body (document : Document) : Nat → Reader Document
  | 0 => failure
  | rounds + 1 => do
      spaces
      match ← get with
      | [] => return document
      | c :: rest =>
          if c = '[' then
            set rest
            body (← header document) rounds
          else if c = '#' ∨ c = '\n' ∨ c = '\r' then
            lineEnd
            body document rounds
          else body (← assignment document) rounds

/-- The characters behind a byte order mark at the start of a text. -/
def dropMark : List Char → List Char
  | '\ufeff' :: rest => rest
  | all => all

/-- The datum of a TOML text, which is always a record. -/
def read? (text : String) : Option Datum :=
  let chars := dropMark text.toList
  match (body {} (chars.length + 1)).run chars with
  | some (document, _) => some (.record (entriesToFields document.root))
  | none => none

end Lending.Toml
