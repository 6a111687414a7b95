/-!
# Blank text

The characters with the Unicode property `White_Space`. An identifier made of nothing else is
blank and names nothing; a mode is read after such characters are dropped from both ends.
-/

namespace Lending.Text

/-- The code points with the property `White_Space`, as closed ranges. -/
def blankRanges : List (Nat × Nat) :=
  [(0x09, 0x0D), (0x20, 0x20), (0x85, 0x85), (0xA0, 0xA0), (0x1680, 0x1680), (0x2000, 0x200A),
   (0x2028, 0x2029), (0x202F, 0x202F), (0x205F, 0x205F), (0x3000, 0x3000)]

/-- Whether a code point lies in one of the closed ranges. -/
def inRanges (ranges : List (Nat × Nat)) (code : Nat) : Bool :=
  ranges.any fun range => decide (range.1 ≤ code) && decide (code ≤ range.2)

/-- Whether a character has the property `White_Space`. -/
def isBlankChar (c : Char) : Bool :=
  inRanges blankRanges c.toNat

/-- Whether a text holds blank characters only. The empty text is blank. -/
def isBlank (text : String) : Bool :=
  text.toList.all isBlankChar

/-- The text without the blank characters at either end. -/
def trim (text : String) : String :=
  String.ofList
    ((text.toList.dropWhile isBlankChar).reverse.dropWhile isBlankChar).reverse

/-- The text with the letters `A` to `Z` in lower case; no other character changes. -/
def lowerAscii (text : String) : String :=
  String.ofList (text.toList.map Char.toLower)

end Lending.Text
