import AsmLexer.Text.CharRange

/-!
# Blank characters

White space: the characters that Unicode classes as spaces or separators, the line and page
controls, and the four information separators U+001C to U+001F.
-/

set_option autoImplicit false

namespace AsmLexer

/-- The blank characters, as ranges of code points. -/
def blankRanges : CharRanges :=
  [(0x9, 0xD), (0x1C, 0x20), (0x85, 0x85), (0xA0, 0xA0), (0x1680, 0x1680), (0x2000, 0x200A),
   (0x2028, 0x2029), (0x202F, 0x202F), (0x205F, 0x205F), (0x3000, 0x3000)]

/-- Whether a character is blank. -/
def isBlank (c : Char) : Bool :=
  blankRanges.contains c

/-- A text without the blank characters at its two ends. -/
def trimBlank (s : List Char) : List Char :=
  ((s.dropWhile isBlank).reverse.dropWhile isBlank).reverse

end AsmLexer
