/-!
# Decimal numerals

Digits to numbers, and the size of a numeral with a fraction and an exponent: the only question
asked of such a numeral is whether its exact value is too large for a double.
-/

namespace Lending.Decimal

/-- The value of a hexadecimal digit. -/
def digitValue? (c : Char) : Option Nat :=
  if '0' ≤ c ∧ c ≤ '9' then some (c.toNat - '0'.toNat)
  else if 'a' ≤ c ∧ c ≤ 'f' then some (c.toNat - 'a'.toNat + 10)
  else if 'A' ≤ c ∧ c ≤ 'F' then some (c.toNat - 'A'.toNat + 10)
  else none

/-- The number written by digits in the given base; characters that are no digits count as 0. -/
def ofDigits (base : Nat) (digits : List Char) : Nat :=
  digits.foldl (fun value c => value * base + (digitValue? c).getD 0) 0

/-- The least magnitude that rounds to no finite double: half a unit above the largest one. -/
def doubleLimit : Nat :=
  Nat.pow 2 1024 - Nat.pow 2 970

/-- Whether the number `digits · 10 ^ exponent` is at least `doubleLimit`. Numbers with more or
fewer than 309 digits before the point are settled by that count alone. -/
def overflows (digits : List Char) (exponent : Int) : Bool :=
  let significant := digits.dropWhile (· == '0')
  let magnitude := (significant.length : Int) + exponent
  if significant.isEmpty || magnitude < 309 then false
  else if 309 < magnitude then true
  else if 0 ≤ exponent then
    decide (doubleLimit ≤ ofDigits 10 significant * Nat.pow 10 exponent.toNat)
  else
    decide (doubleLimit * Nat.pow 10 (-exponent).toNat ≤ ofDigits 10 significant)

/-- A numeral in its parts: sign, digits before and after the point, exponent. -/
structure Numeral where
  isNegative : Bool
  whole : List Char
  fraction : Option (List Char)
  exponent : Option Int

namespace Numeral

/-- Whether the magnitude of the numeral is too large for a double. -/
def overflows (numeral : Numeral) : Bool :=
  let fraction := numeral.fraction.getD []
  Decimal.overflows (numeral.whole ++ fraction) (numeral.exponent.getD 0 - fraction.length)

/-- The value of a numeral without fraction and exponent. -/
def integer? (numeral : Numeral) : Option Int :=
  match numeral.fraction, numeral.exponent with
  | none, none =>
      let magnitude := (ofDigits 10 numeral.whole : Int)
      some (if numeral.isNegative then -magnitude else magnitude)
  | _, _ => none

end Numeral

/-- Splits off an exponent: its mark, a sign or none, and at least one digit. -/
def exponent? : List Char → Option (Option Int)
  | [] => some none
  | mark :: rest =>
      if mark = 'e' ∨ mark = 'E' then
        let (isNegative, digits) := match rest with
          | '-' :: digits => (true, digits)
          | '+' :: digits => (false, digits)
          | digits => (false, digits)
        if digits.isEmpty || !digits.all Char.isDigit then none
        else
          let magnitude := (ofDigits 10 digits : Int)
          some (some (if isNegative then -magnitude else magnitude))
      else none

/-- Splits an unsigned numeral into its parts: digits, an optional point with at least one digit
behind it, an optional exponent, and nothing else. -/
def parts? (isNegative : Bool) (body : List Char) : Option Numeral :=
  let whole := body.takeWhile Char.isDigit
  if whole.isEmpty then none
  else match body.dropWhile Char.isDigit with
    | '.' :: rest =>
        let fraction := rest.takeWhile Char.isDigit
        if fraction.isEmpty then none
        else (exponent? (rest.dropWhile Char.isDigit)).map fun exponent =>
          { isNegative, whole, fraction := some fraction, exponent }
    | rest => (exponent? rest).map fun exponent =>
        { isNegative, whole, fraction := none, exponent }

end Lending.Decimal
