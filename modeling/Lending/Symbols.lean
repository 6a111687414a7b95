/-!
# Symbols

Numbers for names: each name gets the next number the first time it is interned and keeps it.
-/

namespace Lending

/-- The names interned so far; the number of a name is its place. -/
structure Symbols where
  names : Array String := #[]
deriving DecidableEq, Repr, Inhabited

namespace Symbols

/-- The number of distinct names. -/
def size (symbols : Symbols) : Nat :=
  symbols.names.size

/-- The number of a name that has been interned. -/
def get? (symbols : Symbols) (name : String) : Option Nat :=
  symbols.names.findIdx? (· == name)

/-- The number of a name, which is given one if it has none. -/
def intern (symbols : Symbols) (name : String) : Nat × Symbols :=
  match symbols.get? name with
  | some symbol => (symbol, symbols)
  | none => (symbols.size, { names := symbols.names.push name })

/-- The name with the given number. -/
def resolve? (symbols : Symbols) (symbol : Nat) : Option String :=
  symbols.names[symbol]?

/-- The name with the given number, or a placeholder. -/
def resolve (symbols : Symbols) (symbol : Nat) : String :=
  (symbols.resolve? symbol).getD "<unknown>"

/-- A summary for logs. -/
def summary (symbols : Symbols) : String :=
  s!"Interner \x7b symbols: {symbols.size} \x7d"

end Symbols

end Lending
