import Lending.Datum.Json.Token

/-!
# Writing JSON

A datum as JSON text, either without any space or indented by two spaces a level. Non-ASCII
characters are written as they are; control characters are escaped.
-/

namespace Lending.Json

/-- The hexadecimal digit of a number below 16. -/
def hexDigit (value : Nat) : Char :=
  Nat.digitChar (value % 16)

/-- A character as it is written inside a string. -/
def escapeChar (c : Char) : List Char :=
  match c with
  | '"' => ['\\', '"']
  | '\\' => ['\\', '\\']
  | '\x08' => ['\\', 'b']
  | '\x0c' => ['\\', 'f']
  | '\n' => ['\\', 'n']
  | '\r' => ['\\', 'r']
  | '\t' => ['\\', 't']
  | c =>
      if c.toNat < 0x20 then
        ['\\', 'u', '0', '0', hexDigit (c.toNat / 16), hexDigit c.toNat]
      else [c]

/-- A text between quotes. -/
def quote (text : String) : List Char :=
  '"' :: (text.toList.flatMap escapeChar ++ ['"'])

/-- A scalar as it is written; what JSON has no form for is written as null. -/
def scalarChars : Datum → List Char
  | .bool true => "true".toList
  | .bool false => "false".toList
  | .int value => (toString value).toList
  | .real literal => literal.toList
  | _ => "null".toList

/-- A token as it is written. -/
def Token.chars : Token → List Char
  | .openList => ['[']
  | .closeList => [']']
  | .openRecord => ['\x7b']
  | .closeRecord => ['\x7d']
  | .comma => [',']
  | .colon => [':']
  | .text value => quote (value.getD "")
  | .scalar value => scalarChars value

mutual

/-- The tokens of a datum. -/
def tokens : Datum → List Token
  | .text value => [.text (some value)]
  | .list items => .openList :: (itemTokens items ++ [.closeList])
  | .record fields => .openRecord :: (fieldTokens fields ++ [.closeRecord])
  | scalar => [.scalar scalar]

/-- The tokens of the items of a list, with commas between them. -/
def itemTokens : List Datum → List Token
  | [] => []
  | [item] => tokens item
  | item :: rest => tokens item ++ .comma :: itemTokens rest

/-- The tokens of the members of a record, with commas between them. -/
def fieldTokens : List (String × Datum) → List Token
  | [] => []
  | [(name, value)] => .text (some name) :: .colon :: tokens value
  | (name, value) :: rest =>
      .text (some name) :: .colon :: (tokens value ++ .comma :: fieldTokens rest)

end

/-- The datum as JSON on one line without spaces. -/
def compact (datum : Datum) : String :=
  String.ofList ((tokens datum).flatMap Token.chars)

/-- A new line at the given nesting level. -/
def indent (level : Nat) : List Char :=
  '\n' :: List.replicate (2 * level) ' '

mutual

/-- The datum in indented form at the given nesting level. -/
def prettyChars (level : Nat) : Datum → List Char
  | .text value => quote value
  | .list [] => ['[', ']']
  | .list (item :: rest) =>
      '[' :: (indent (level + 1) ++ prettyChars (level + 1) item ++
        prettyItems (level + 1) rest ++ indent level ++ [']'])
  | .record [] => ['\x7b', '\x7d']
  | .record ((name, value) :: rest) =>
      '\x7b' :: (indent (level + 1) ++ quote name ++ [':', ' '] ++ prettyChars (level + 1) value ++
        prettyFields (level + 1) rest ++ indent level ++ ['\x7d'])
  | scalar => scalarChars scalar

/-- The items behind the first one. -/
def prettyItems (level : Nat) : List Datum → List Char
  | [] => []
  | item :: rest => ',' :: (indent level ++ prettyChars level item ++ prettyItems level rest)

/-- The members behind the first one. -/
def prettyFields (level : Nat) : List (String × Datum) → List Char
  | [] => []
  | (name, value) :: rest =>
      ',' :: (indent level ++ quote name ++ [':', ' '] ++ prettyChars level value ++
        prettyFields level rest)

end

/-- The datum as JSON over several lines. -/
def pretty (datum : Datum) : String :=
  String.ofList (prettyChars 0 datum)

end Lending.Json
