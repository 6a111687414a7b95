import Lending.Datum.Basic
import Lending.Datum.Decimal

/-!
# TOML lexemes

The smallest parts of a TOML text: blanks, comments, line ends, strings, and the words that stand
for numbers, truth values, dates and times.
-/

namespace Lending.Toml

/-- Reads from the front of the characters that are left. -/
abbrev Reader (α : Type) := StateT (List Char) Option α

/-! ## Characters -/

/-- A space or a tab. -/
def isSpace (c : Char) : Bool :=
  c == ' ' || c == '\t'

/-- A character that may stand in a comment, and in a string as it is, quotes and backslashes
apart: a tab, or no control character. -/
def isTextChar (c : Char) : Bool :=
  c == '\t' || (decide (0x20 ≤ c.toNat) && c.toNat != 0x7F)

/-- A character of a key without quotes. -/
def isKeyChar (c : Char) : Bool :=
  c.isAlphanum || c == '-' || c == '_'

/-- A character of a number, a truth value, a date or a time. -/
def isScalarChar (c : Char) : Bool :=
  c.isAlphanum || c == '+' || c == '-' || c == '_' || c == '.' || c == ':'

/-! ## Blanks and line ends -/

/-- Passes over spaces and tabs. -/
def spaces : Reader Unit :=
  modify (List.dropWhile isSpace)

/-- Takes the given character. -/
def expect (c : Char) : Reader Unit := do
  match ← get with
  | first :: rest => if first = c then set rest else failure
  | [] => failure

/-- Takes the given character if it comes next, and says whether it did. -/
def accept (c : Char) : Reader Bool := do
  match ← get with
  | first :: rest => if first = c then set rest; return true else return false
  | [] => return false

/-- Passes over a comment, if one starts here. -/
def comment : Reader Unit := do
  if ← accept '#' then modify (List.dropWhile isTextChar)

/-- What follows a line end, if one comes next: a newline, or a carriage return before one. -/
def afterNewline? : List Char → Option (List Char)
  | '\n' :: rest => some rest
  | '\r' :: '\n' :: rest => some rest
  | _ => none

/-- Passes over the rest of a line, on which only a comment may stand. -/
def lineEnd : Reader Unit := do
  spaces
  comment
  match ← get with
  | [] => return
  | left =>
      match afterNewline? left with
      | some rest => set rest
      | none => failure

/-- The characters behind blanks, line ends and comments. In a comment, all goes up to its end. -/
def skipBlank (inComment : Bool) : List Char → List Char
  | [] => []
  | '\r' :: '\n' :: rest => skipBlank false rest
  | c :: rest =>
      if c = '\n' then skipBlank false rest
      else if inComment then
        if isTextChar c then skipBlank true rest else c :: rest
      else if isSpace c then skipBlank false rest
      else if c = '#' then skipBlank true rest
      else c :: rest

/-- Passes over blanks, line ends and comments. -/
def blanks : Reader Unit :=
  modify (skipBlank false)

/-! ## Strings -/

/-- The character with the given code point, unless it is a surrogate or too large. -/
def scalar? (digits : List Char) : Option Char := do
  guard (digits.all fun c => (Decimal.digitValue? c).isSome)
  let code := Decimal.ofDigits 16 digits
  if code.isValidChar then some (Char.ofNat code) else none

/-- The character that a one-letter escape stands for. -/
def shortEscape? : Char → Option Char
  | 'b' => some '\x08'
  | 't' => some '\t'
  | 'n' => some '\n'
  | 'f' => some '\x0c'
  | 'r' => some '\r'
  | '"' => some '"'
  | '\\' => some '\\'
  | _ => none

/-- A string with escapes on one line, from behind its opening quote. -/
def basicText (done : List Char) : List Char → Option (String × List Char)
  | [] => none
  | '"' :: rest => some (String.ofList done.reverse, rest)
  | '\\' :: 'u' :: a :: b :: c :: d :: rest =>
      match scalar? [a, b, c, d] with
      | some found => basicText (found :: done) rest
      | none => none
  | '\\' :: 'U' :: a :: b :: c :: d :: e :: f :: g :: h :: rest =>
      match scalar? [a, b, c, d, e, f, g, h] with
      | some found => basicText (found :: done) rest
      | none => none
  | '\\' :: c :: rest =>
      match shortEscape? c with
      | some found => basicText (found :: done) rest
      | none => none
  | c :: rest => if isTextChar c then basicText (c :: done) rest else none

/-- A string without escapes on one line, from behind its opening quote. -/
def literalText (done : List Char) : List Char → Option (String × List Char)
  | [] => none
  | '\x27' :: rest => some (String.ofList done.reverse, rest)
  | c :: rest => if isTextChar c then literalText (c :: done) rest else none

/-- The end of a string over several lines, from behind three quotes: up to two more quotes right
there belong to the text. -/
def closeLong (quote : Char) (done : List Char) (rest : List Char) : String × List Char :=
  match rest with
  | a :: b :: after =>
      if a = quote ∧ b = quote then (String.ofList (quote :: quote :: done).reverse, after)
      else if a = quote then (String.ofList (quote :: done).reverse, b :: after)
      else (String.ofList done.reverse, rest)
  | [a] =>
      if a = quote then (String.ofList (quote :: done).reverse, [])
      else (String.ofList done.reverse, rest)
  | [] => (String.ofList done.reverse, [])

/-- How the characters behind a backslash at the end of a line are passed over. -/
inductive Fold where
  /-- No such backslash. -/
  | none
  /-- Spaces up to the line end, which must come. -/
  | toLineEnd
  /-- Spaces and line ends up to the next text. -/
  | toText
deriving DecidableEq, Repr, Inhabited

/-- A string with escapes over several lines, from behind its opening quotes. -/
def longBasicText (fold : Fold) (done : List Char) : List Char → Option (String × List Char)
  | [] => none
  | '\r' :: '\n' :: rest =>
      match fold with
      | .none => longBasicText .none ('\n' :: done) rest
      | _ => longBasicText .toText done rest
  | '\n' :: rest =>
      match fold with
      | .none => longBasicText .none ('\n' :: done) rest
      | _ => longBasicText .toText done rest
  | '"' :: '"' :: '"' :: rest =>
      if fold = .toLineEnd then none else some (closeLong '"' done rest)
  | '\\' :: 'u' :: a :: b :: c :: d :: rest =>
      if fold = .toLineEnd then none
      else match scalar? [a, b, c, d] with
        | some found => longBasicText .none (found :: done) rest
        | none => none
  | '\\' :: 'U' :: a :: b :: c :: d :: e :: f :: g :: h :: rest =>
      if fold = .toLineEnd then none
      else match scalar? [a, b, c, d, e, f, g, h] with
        | some found => longBasicText .none (found :: done) rest
        | none => none
  | '\\' :: c :: rest =>
      if fold = .toLineEnd then none
      else if isSpace c then longBasicText .toLineEnd done rest
      else if c = '\n' then longBasicText .toText done rest
      else if c = '\r' then
        match rest with
        | '\n' :: after => longBasicText .toText done after
        | _ => none
      else match shortEscape? c with
        | some found => longBasicText .none (found :: done) rest
        | none => none
  | c :: rest =>
      if fold ≠ .none ∧ isSpace c = true then longBasicText fold done rest
      else if fold = .toLineEnd then none
      else if isTextChar c then longBasicText .none (c :: done) rest
      else none

/-- A string without escapes over several lines, from behind its opening quotes. -/
def longLiteralText (done : List Char) : List Char → Option (String × List Char)
  | [] => none
  | '\r' :: '\n' :: rest => longLiteralText ('\n' :: done) rest
  | '\x27' :: '\x27' :: '\x27' :: rest => some (closeLong '\x27' done rest)
  | c :: rest =>
      if c = '\n' ∨ isTextChar c = true then longLiteralText (c :: done) rest else none

/-- The characters behind a line end at the very start, which does not belong to a long string. -/
def dropFirstNewline (left : List Char) : List Char :=
  (afterNewline? left).getD left

/-- A string that has been read: goes on behind it. -/
def goBehind (found : String × List Char) : Reader String := do
  set found.2
  return found.1

/-- A string of any form. -/
def text : Reader String := do
  match ← get with
  | '"' :: '"' :: '"' :: rest => liftM (longBasicText .none [] (dropFirstNewline rest)) >>= goBehind
  | '"' :: rest => liftM (basicText [] rest) >>= goBehind
  | '\x27' :: '\x27' :: '\x27' :: rest =>
      liftM (longLiteralText [] (dropFirstNewline rest)) >>= goBehind
  | '\x27' :: rest => liftM (literalText [] rest) >>= goBehind
  | _ => failure

/-! ## Keys -/

/-- One part of a key: a word, or a string on one line. -/
def simpleKey : Reader String := do
  match ← get with
  | '"' :: rest => liftM (basicText [] rest) >>= goBehind
  | '\x27' :: rest => liftM (literalText [] rest) >>= goBehind
  | left =>
      let word := left.takeWhile isKeyChar
      if word.isEmpty then failure
      set (left.dropWhile isKeyChar)
      return String.ofList word

/-! ## Numbers -/

/-- The digits of a number without the underscores between them. Each underscore stands between
two digits. -/
def plainDigits? (isDigit : Char → Bool) : List Char → Option (List Char)
  | [] => none
  | [c] => if isDigit c then some [c] else none
  | c :: '_' :: rest => if isDigit c then (c :: ·) <$> plainDigits? isDigit rest else none
  | c :: rest => if isDigit c then (c :: ·) <$> plainDigits? isDigit rest else none

/-- Splits off a sign: whether it is a minus, and what follows. -/
def splitSign : List Char → Bool × List Char
  | '-' :: rest => (true, rest)
  | '+' :: rest => (false, rest)
  | rest => (false, rest)

/-- Decimal digits that do not start with a zero, unless there is only one. -/
def decimalDigits? (body : List Char) : Option (List Char) := do
  let digits ← plainDigits? Char.isDigit body
  guard (body.length = 1 ∨ body.head? ≠ some '0')
  return digits

/-- An integer that fits in 64 bits with a sign. -/
def integer? (word : List Char) : Option Int := do
  let value ← match word with
    | '0' :: 'x' :: body =>
        (Decimal.ofDigits 16 · : List Char → Int) <$>
          plainDigits? (fun c => (Decimal.digitValue? c).isSome) body
    | '0' :: 'o' :: body =>
        (Decimal.ofDigits 8 · : List Char → Int) <$>
          plainDigits? (fun c => decide ('0' ≤ c) && decide (c ≤ '7')) body
    | '0' :: 'b' :: body =>
        (Decimal.ofDigits 2 · : List Char → Int) <$>
          plainDigits? (fun c => c == '0' || c == '1') body
    | _ =>
        let (isNegative, body) := splitSign word
        (fun digits : List Char =>
          let magnitude : Int := Decimal.ofDigits 10 digits
          if isNegative then -magnitude else magnitude) <$> decimalDigits? body
  if -9223372036854775808 ≤ value ∧ value ≤ 9223372036854775807 then some value else none

/-- Whether a character starts an exponent. -/
def isExponentMark (c : Char) : Bool :=
  c == 'e' || c == 'E'

/-- The exponent of a number, if there is one. -/
def exponent? (part : List Char) : Option (Option Int) :=
  match part with
  | [] => some none
  | _ :: signed =>
      let (isNegative, digits) := splitSign signed
      (fun digits : List Char =>
        let magnitude : Int := Decimal.ofDigits 10 digits
        some (if isNegative then -magnitude else magnitude)) <$> plainDigits? Char.isDigit digits

/-- The numeral behind a sign. It has a fraction, an exponent or both. -/
def numeral? (isNegative : Bool) (body : List Char) : Option Decimal.Numeral := do
  let isWhole := fun c : Char => c.isDigit || c == '_'
  let whole ← decimalDigits? (body.takeWhile isWhole)
  match body.dropWhile isWhole with
  | '.' :: rest =>
      let fraction ← plainDigits? Char.isDigit (rest.takeWhile isWhole)
      let part := rest.dropWhile isWhole
      guard ((part.head?.map isExponentMark).getD true)
      let exponent ← exponent? part
      return { isNegative, whole, fraction := some fraction, exponent }
  | part =>
      guard ((part.head?.map isExponentMark).getD false)
      let exponent ← exponent? part
      return { isNegative, whole, fraction := none, exponent }

/-- A number with a fraction, an exponent or both, an infinity, or no number. A numeral may not be
too large for a double, unless it is negative. -/
def isFloat (word : List Char) : Bool :=
  let (isNegative, body) := splitSign word
  body = "inf".toList || body = "nan".toList ||
    (numeral? isNegative body).any fun numeral => isNegative || !numeral.overflows

/-! ## Dates and times -/

/-- The number written by exactly `count` digits, if it lies in the closed range. -/
def digits? (count low high : Nat) (part : List Char) : Option Nat := do
  guard (part.length = count ∧ part.all Char.isDigit = true)
  let value := Decimal.ofDigits 10 part
  if low ≤ value ∧ value ≤ high then some value else none

/-- The number of days of a month. -/
def daysIn (year month : Nat) : Nat :=
  let isLeap := year % 4 = 0 ∧ (year % 100 ≠ 0 ∨ year % 400 = 0)
  if month = 2 then (if isLeap then 29 else 28)
  else if month = 4 ∨ month = 6 ∨ month = 9 ∨ month = 11 then 30
  else 31

/-- A date: year, month and day with hyphens between them. -/
def isDate (word : List Char) : Bool :=
  match word with
  | [a, b, c, d, '-', e, f, '-', g, h] =>
      ((do
        let year ← digits? 4 0 9999 [a, b, c, d]
        let month ← digits? 2 1 12 [e, f]
        digits? 2 1 (daysIn year month) [g, h]) : Option Nat).isSome
  | _ => false

/-- A fraction of a second, or nothing. -/
def isSecondFraction : List Char → Bool
  | [] => true
  | '.' :: digits => !digits.isEmpty && digits.all Char.isDigit
  | _ => false

/-- A time of day: hour, minute and second with colons between them. -/
def isTime : List Char → Bool
  | a :: b :: ':' :: c :: d :: ':' :: e :: f :: fraction =>
      (digits? 2 0 23 [a, b]).isSome && (digits? 2 0 59 [c, d]).isSome &&
        (digits? 2 0 60 [e, f]).isSome && isSecondFraction fraction
  | _ => false

/-- An offset from universal time, or nothing. -/
def isOffset : List Char → Bool
  | [] => true
  | [z] => z == 'Z' || z == 'z'
  | [sign, a, b, ':', c, d] =>
      (sign == '+' || sign == '-') && (digits? 2 0 23 [a, b]).isSome &&
        (digits? 2 0 59 [c, d]).isSome
  | _ => false

/-- A time of day with an optional offset. -/
def isTimeWithOffset (word : List Char) : Bool :=
  let inTime := fun c : Char => c.isDigit || c == ':' || c == '.'
  isTime (word.takeWhile inTime) && isOffset (word.dropWhile inTime)

/-- A date, a time, or a date and a time with a `T` between them. -/
def isMoment (word : List Char) : Bool :=
  isTime word || isDate word ||
    (isDate (word.take 10) &&
      (match word.drop 10 with
      | mark :: time => (mark == 'T' || mark == 't') && isTimeWithOffset time
      | [] => false))

/-! ## Scalars without quotes -/

/-- The datum that a word stands for. -/
def ofWord? (word : List Char) : Option Datum :=
  if word = "true".toList then some (.bool true)
  else if word = "false".toList then some (.bool false)
  else if isMoment word then some (.moment (String.ofList word))
  else if isFloat word then some (.real (String.ofList word))
  else (integer? word).map .int

/-- A number, a truth value, a date or a time. A date and a time may have a space between them. -/
def scalar : Reader Datum := do
  let left ← get
  let word := left.takeWhile isScalarChar
  let rest := left.dropWhile isScalarChar
  match isDate word, rest with
  | true, ' ' :: digit :: after =>
      if digit.isDigit then
        let time := (digit :: after).takeWhile isScalarChar
        if isTimeWithOffset time then
          set ((digit :: after).dropWhile isScalarChar)
          return .moment (String.ofList (word ++ ' ' :: time))
        else failure
      else
        set rest
        return .moment (String.ofList word)
  | _, _ =>
      match ofWord? word with
      | some datum =>
          set rest
          return datum
      | none => failure

end Lending.Toml
