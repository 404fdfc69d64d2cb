import Calculator.Unicode.Ranges

/-!
# Blank characters

`isWhitespace` holds of the characters with the property White_Space and of the four information
separators U+001C to U+001F. The zero width space and the byte order mark are not among them.
-/

namespace Calculator.Unicode

/-- The blank characters. -/
def whitespaceRanges : Ranges := [
  (0x0009, 0x000D), (0x001C, 0x0020), (0x0085, 0x0085), (0x00A0, 0x00A0), (0x1680, 0x1680),
  (0x2000, 0x200A), (0x2028, 0x2029), (0x202F, 0x202F), (0x205F, 0x205F), (0x3000, 0x3000)]

def isWhitespace (c : Char) : Bool :=
  whitespaceRanges.contains c

end Calculator.Unicode
