import IgnoreRules.Text.CodeRange

/-!
# Blank characters

The blank characters are those of Unicode's bidirectional classes WS, B and S and of its
category Zs. The zero-width space, the Mongolian vowel separator and the byte order mark
are not among them.

`trim` removes blank characters at both ends of a text and leaves the inside alone.
-/

namespace IgnoreRules.Text

/-- Code points of the blank characters, in ascending order. -/
def blankRanges : CodeRanges := [
  (0x9, 0xD), (0x1C, 0x20), (0x85, 0x85), (0xA0, 0xA0), (0x1680, 0x1680), (0x2000, 0x200A),
  (0x2028, 0x2029), (0x202F, 0x202F), (0x205F, 0x205F), (0x3000, 0x3000)]

def isBlank (c : Char) : Bool := blankRanges.contains c

def trimEnd (text : List Char) : List Char :=
  (text.reverse.dropWhile isBlank).reverse

def trim (text : List Char) : List Char :=
  trimEnd (text.dropWhile isBlank)

end IgnoreRules.Text
