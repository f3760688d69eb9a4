import Formula.Text.Ranges

/-!
# Blanks

The characters that separate tokens and that may surround a numeral or a name: the white space of Unicode and the
four information separators U+001C to U+001F.
-/

namespace Formula.Text

/-- The ranges of the blanks. -/
def blankRanges : List (Nat × Nat) :=
  [(0x9, 0xD), (0x1C, 0x20), (0x85, 0x85), (0xA0, 0xA0), (0x1680, 0x1680), (0x2000, 0x200A), (0x2028, 0x2029),
   (0x202F, 0x202F), (0x205F, 0x205F), (0x3000, 0x3000)]

/-- White space of any script, and the information separators. -/
def isBlank (c : Char) : Bool := Ranges.contains blankRanges c.toNat

/-- A text without the characters of a class at its two ends. -/
def trimBy (drops : Char → Bool) (text : List Char) : List Char :=
  ((text.dropWhile drops).reverse.dropWhile drops).reverse

/-- A text without the blanks at its two ends. -/
def trim (text : List Char) : List Char := trimBy isBlank text

end Formula.Text
