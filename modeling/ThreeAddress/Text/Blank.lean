import ThreeAddress.Text.RangeTable

/-!
# Blanks

The characters that separate tokens: the white space of all scripts together with the four
information separators U+001C to U+001F. Trimming takes blanks off the ends of a text.
-/

namespace ThreeAddress.Text

/-- The ranges of blanks. -/
def blanks : RangeTable :=
  [(0x0009, 0x000D), (0x001C, 0x0020), (0x0085, 0x0085), (0x00A0, 0x00A0), (0x1680, 0x1680),
   (0x2000, 0x200A), (0x2028, 0x2029), (0x202F, 0x202F), (0x205F, 0x205F), (0x3000, 0x3000)]

/-- Whether a character is a blank. -/
def isBlank (c : Char) : Bool := blanks.contains c.toNat

/-- The text without the blanks that it starts with. -/
def trimStart (text : List Char) : List Char := text.dropWhile isBlank

/-- The text without the blanks that it ends with. -/
def trimEnd (text : List Char) : List Char := (text.reverse.dropWhile isBlank).reverse

/-- The text without the blanks at its two ends. -/
def trim (text : List Char) : List Char := trimEnd (trimStart text)

end ThreeAddress.Text
