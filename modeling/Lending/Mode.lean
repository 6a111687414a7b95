import Lending.Text.Blank

/-!
# Borrow modes

When a loan ends. Only the lexical mode, in which a loan lasts until the end of the scope of its
reference, is implemented; the other can be named and is refused by the checker.
-/

namespace Lending

/-- How long a loan lasts. -/
inductive Mode where
  /-- Until the end of the scope that declares the reference. -/
  | lexical
  /-- Until the last use of the reference. -/
  | nonLexical
deriving DecidableEq, Repr, Inhabited

namespace Mode

/-- The modes. -/
def all : List Mode := [.lexical, .nonLexical]

/-- The mode as it is written. -/
def keyword : Mode → String
  | .lexical => "lexical"
  | .nonLexical => "non-lexical"

/-- The form in which modes are compared: without blanks at the ends, in lower case, and with
hyphens for underscores. -/
def normalize (text : String) : String :=
  String.ofList
    ((Text.lowerAscii (Text.trim text)).toList.map fun c => if c = '_' then '-' else c)

/-- The mode that a text names, or the message that it names none. -/
def parse (text : String) : Except String Mode :=
  let normalized := normalize text
  if normalized = "lexical" then .ok .lexical
  else if normalized = "non-lexical" ∨ normalized = "nll" then .ok .nonLexical
  else .error s!"unknown borrow mode `{normalized}` (expected `lexical` or `non-lexical`)"

/-- The mode with exactly this keyword. -/
def ofKeyword? (keyword : String) : Option Mode :=
  all.find? fun mode => mode.keyword == keyword

end Mode

end Lending
