import Missive.Text.CodeRanges

/-!
# Blank characters

The characters with the Unicode property White_Space, and the removal of blanks from both ends
of a text.
-/

namespace Missive.Text

/-- The code points with the property White_Space, in ascending order. -/
def blankRanges : CodeRanges :=
  [(0x9, 0xD), (0x20, 0x20), (0x85, 0x85), (0xA0, 0xA0), (0x1680, 0x1680), (0x2000, 0x200A),
   (0x2028, 0x2029), (0x202F, 0x202F), (0x205F, 0x205F), (0x3000, 0x3000)]

/-- The character has the property White_Space. -/
def isBlank (c : Char) : Bool := blankRanges.contains c

/-- The characters that remain when blanks are removed from both ends. -/
def trimBlanks (text : List Char) : List Char :=
  ((text.dropWhile isBlank).reverse.dropWhile isBlank).reverse

end Missive.Text
