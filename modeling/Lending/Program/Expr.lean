import Lending.Word

/-!
# Expressions

Values that a statement computes. Each variable in an expression is a read of that binding by
its owner, and each dereference is a read through that reference.
-/

namespace Lending

/-- An arithmetic operator. -/
inductive BinOp where
  | add
  | sub
  | mul
deriving DecidableEq, Repr, Inhabited

namespace BinOp

/-- The operators, in the order in which they are listed to users. -/
def all : List BinOp := [.add, .sub, .mul]

/-- The operator as it is written in program files. -/
def keyword : BinOp → String
  | .add => "add"
  | .sub => "sub"
  | .mul => "mul"

/-- The operator as it is written between its operands. -/
def symbol : BinOp → String
  | .add => "+"
  | .sub => "-"
  | .mul => "*"

/-- The operator on integers of any size. -/
def apply : BinOp → Int → Int → Int
  | .add, left, right => left + right
  | .sub, left, right => left - right
  | .mul, left, right => left * right

end BinOp

/-- An expression over bindings and references. -/
inductive Expr where
  | int (value : Word)
  | var (name : String)
  | deref (name : String)
  | binary (op : BinOp) (lhs rhs : Expr)
deriving DecidableEq, Repr, Inhabited

/-- A name in an expression, and whether it stands behind a dereference. -/
structure NameUse where
  name : String
  isDeref : Bool
deriving DecidableEq, Repr, Inhabited

namespace Expr

/-- The names that an expression mentions, from left to right. -/
def names : Expr → List NameUse
  | .int _ => []
  | .var name => [⟨name, false⟩]
  | .deref name => [⟨name, true⟩]
  | .binary _ lhs rhs => lhs.names ++ rhs.names

/-- The expression in a line of text. Operands are written without parentheses. -/
def render : Expr → String
  | .int value => value.render
  | .var name => name
  | .deref name => "*" ++ name
  | .binary op lhs rhs => lhs.render ++ " " ++ op.symbol ++ " " ++ rhs.render

end Expr

end Lending
