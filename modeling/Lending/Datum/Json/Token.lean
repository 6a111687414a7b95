import Lending.Datum.Basic
import Lending.Datum.Decimal
import Lending.Datum.Double

/-!
# JSON tokens

Splits a JSON text into brackets, separators, strings and other scalars. A string whose escapes
name half of a surrogate pair is a token without text, and a numeral whose double would be
infinite is an unreadable scalar; both are refused only where their value is wanted.
-/

namespace Lending.Json

/-- A piece of a JSON text. -/
inductive Token where
  | openList
  | closeList
  | openRecord
  | closeRecord
  | comma
  | colon
  /-- A string, without its text when the escapes in it name no text. -/
  | text (value : Option String)
  /-- A number, a truth value or null. -/
  | scalar (value : Datum)
deriving Inhabited

/-! ## Strings -/

/-- A character of a string, or a UTF-16 unit that was written as an escape. -/
inductive Piece where
  | char (c : Char)
  | unit (code : Nat)
deriving Repr, Inhabited

/-- The number written by four hexadecimal digits. -/
def hex4? (a b c d : Char) : Option Nat := do
  let a ← Decimal.digitValue? a
  let b ← Decimal.digitValue? b
  let c ← Decimal.digitValue? c
  let d ← Decimal.digitValue? d
  return ((a * 16 + b) * 16 + c) * 16 + d

/-- The character that a one-letter escape stands for. -/
def shortEscape? : Char → Option Char
  | '"' => some '"'
  | '\\' => some '\\'
  | '/' => some '/'
  | 'b' => some '\x08'
  | 'f' => some '\x0c'
  | 'n' => some '\n'
  | 'r' => some '\r'
  | 't' => some '\t'
  | _ => none

/-- Reads a string after its opening quote: its pieces, and what follows the closing quote. The
pieces in front are given in reverse. Control characters may not stand in a string. -/
def pieces (done : List Piece) : List Char → Option (List Piece × List Char)
  | [] => none
  | '"' :: rest => some (done.reverse, rest)
  | '\\' :: 'u' :: a :: b :: c :: d :: rest =>
      match hex4? a b c d with
      | some code => pieces (.unit code :: done) rest
      | none => none
  | '\\' :: c :: rest =>
      match shortEscape? c with
      | some c => pieces (.char c :: done) rest
      | none => none
  | c :: rest => if c.toNat < 0x20 then none else pieces (.char c :: done) rest

theorem length_le_of_pieces {done found : List Piece} {input rest : List Char}
    (read : pieces done input = some (found, rest)) : rest.length ≤ input.length := by
  fun_induction pieces done input <;> simp_all <;> omega

/-- Whether a UTF-16 unit is the first half of a pair. -/
def isHighSurrogate (code : Nat) : Bool :=
  decide (0xD800 ≤ code) && decide (code < 0xDC00)

/-- Whether a UTF-16 unit is the second half of a pair. -/
def isLowSurrogate (code : Nat) : Bool :=
  decide (0xDC00 ≤ code) && decide (code < 0xE000)

/-- Puts the pieces of a string together, unless half of a surrogate pair stands alone. The
characters in front are given in reverse. -/
def assemble (done : List Char) : List Piece → Option String
  | [] => some (String.ofList done.reverse)
  | .char c :: rest => assemble (c :: done) rest
  | .unit high :: .unit low :: rest =>
      if isHighSurrogate high && isLowSurrogate low then
        assemble (Char.ofNat (0x10000 + (high - 0xD800) * 0x400 + (low - 0xDC00)) :: done) rest
      else if isHighSurrogate high || isLowSurrogate high then none
      else assemble (Char.ofNat high :: done) (.unit low :: rest)
  | .unit code :: rest =>
      if isHighSurrogate code || isLowSurrogate code then none
      else assemble (Char.ofNat code :: done) rest

/-! ## Other scalars -/

/-- Whether a character can stand in a numeral. -/
def isNumeralChar (c : Char) : Bool :=
  c.isDigit || c == '-' || c == '+' || c == '.' || c == 'e' || c == 'E'

/-- The digits that count in a numeral with a fraction or an exponent, as a number of 64 bits, and
the power of ten that it is multiplied by. -/
structure Scaled where
  significand : Nat
  exponent : Int
deriving DecidableEq, Repr, Inhabited

/-- The largest significand. -/
def maxSignificand : Nat := Nat.pow 2 64 - 1

/-- Appends digits to a significand as long as it has room for them, and counts the digits that
are left over from the first one that does not fit. -/
def appendDigits (significand : Nat) : List Char → Nat × Nat
  | [] => (significand, 0)
  | c :: rest =>
      let next := significand * 10 + (Decimal.digitValue? c).getD 0
      if next ≤ maxSignificand then appendDigits next rest
      else (significand, rest.length + 1)

/-- The digits of a numeral that count. Digits before the point that do not fit raise the exponent,
digits behind the point that do not fit are dropped. -/
def scaled (numeral : Decimal.Numeral) : Scaled :=
  let fraction := numeral.fraction.getD []
  let (whole, wholeLeft) := appendDigits 0 numeral.whole
  let (significand, fractionLeft) := appendDigits whole fraction
  { significand
    exponent := (wholeLeft : Int) - ((fraction.length - fractionLeft : Nat) : Int) +
      numeral.exponent.getD 0 }

/-- The largest power of ten that is a double. -/
def maxPowerOfTen : Nat := 308

/-- Whether the product of significand and power of ten is infinite. A significand of zero never
is, nor is one that is divided by a power of ten. -/
def Scaled.isInfinite (scaled : Scaled) : Bool :=
  if scaled.significand = 0 ∨ scaled.exponent < 0 then false
  else if (maxPowerOfTen : Int) < scaled.exponent then true
  else Double.isInfinite (Double.product scaled.significand (Nat.pow 10 scaled.exponent.toNat))

/-- The datum that a numeral stands for. A whole number that fits in 64 bits is an integer,
except for `-0`; all others are reals, unless their double would be infinite. -/
def number? (literal : List Char) : Option Datum :=
  let (isNegative, body) := match literal with
    | '-' :: body => (true, body)
    | body => (false, body)
  match Decimal.parts? isNegative body with
  | none => none
  | some numeral =>
      if 1 < numeral.whole.length && numeral.whole.head? == some '0' then none
      else
        let real :=
          if (scaled numeral).isInfinite then .unreadable else .real (String.ofList literal)
        match numeral.integer? with
        | none => some real
        | some value =>
            if numeral.isNegative && value == 0 then some real
            else if -9223372036854775808 ≤ value ∧ value ≤ 18446744073709551615 then
              some (.int value)
            else some real

/-- The datum that a bare word stands for. -/
def word? (literal : List Char) : Option Datum :=
  if literal = "null".toList then some .null
  else if literal = "true".toList then some (.bool true)
  else if literal = "false".toList then some (.bool false)
  else none

/-- The token that a single character makes up. -/
def mark? : Char → Option Token
  | '[' => some .openList
  | ']' => some .closeList
  | '\x7b' => some .openRecord
  | '\x7d' => some .closeRecord
  | ',' => some .comma
  | ':' => some .colon
  | _ => none

/-- Whether a character may stand between tokens. -/
def isSpace (c : Char) : Bool :=
  c == ' ' || c == '\n' || c == '\t' || c == '\r'

/-- Splits the characters into tokens. The tokens in front are given in reverse. -/
def scan (done : List Token) (input : List Char) : Option (List Token) :=
  match input with
  | [] => some done.reverse
  | c :: rest =>
      if isSpace c then scan done rest
      else match mark? c with
        | some token => scan (token :: done) rest
        | none =>
            if c = '"' then
              match _read : pieces [] rest with
              | some (found, after) => scan (.text (assemble [] found) :: done) after
              | none => none
            else if isNumeralChar c && c != 'e' && c != 'E' then
              match number? (c :: rest.takeWhile isNumeralChar) with
              | some value => scan (.scalar value :: done) (rest.dropWhile isNumeralChar)
              | none => none
            else
              match word? (c :: rest.takeWhile Char.isAlpha) with
              | some value => scan (.scalar value :: done) (rest.dropWhile Char.isAlpha)
              | none => none
termination_by input.length
decreasing_by
  all_goals simp only [List.length_cons]
  · omega
  · omega
  · have := length_le_of_pieces _read
    omega
  · have := (List.dropWhile_sublist (l := rest) isNumeralChar).length_le
    omega
  · have := (List.dropWhile_sublist (l := rest) Char.isAlpha).length_le
    omega

/-- The tokens of a JSON text, if it can be split into tokens. -/
def tokens? (text : String) : Option (List Token) :=
  scan [] text.toList

end Lending.Json
