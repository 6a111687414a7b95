/-!
# Doubles

The natural numbers that a double can hold: those with at most 53 binary digits in front of zeros,
below `2 ^ 1024`. Other natural numbers are rounded to the nearest one, and to the even one of two
that are equally near.
-/

namespace Lending.Double

/-- The number of binary digits that are kept. -/
def precision : Nat := 53

/-- The least power of two that is too large. -/
def limit : Nat := Nat.pow 2 1024

/-- The quotient of `number` by `unit`, rounded to the nearest whole number; half a unit goes to
the even neighbour. -/
def roundQuotient (number unit : Nat) : Nat :=
  let quotient := number / unit
  let rest := number % unit
  if unit < 2 * rest ∨ (2 * rest = unit ∧ quotient % 2 = 1) then quotient + 1 else quotient

/-- The last place that is kept of a number: the power of two by which it has more binary digits
than fit. -/
def lastPlace (number : Nat) : Nat :=
  Nat.pow 2 (number.log2 + 1 - precision)

/-- The number rounded to one with at most 53 binary digits in front of zeros. -/
def round (number : Nat) : Nat :=
  roundQuotient number (lastPlace number) * lastPlace number

/-- Whether a rounded number is too large for a double. -/
def isInfinite (number : Nat) : Bool :=
  decide (limit ≤ number)

/-- The product of two numbers as doubles are multiplied: factors and product are rounded. -/
def product (left right : Nat) : Nat :=
  round (round left * round right)

end Lending.Double
