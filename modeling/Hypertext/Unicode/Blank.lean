import Hypertext.Unicode.Ranges

/-! # Blank characters

The property `White_Space`, and texts without the blanks at their ends. -/

namespace Hypertext.Unicode

/-- The code points of the property `White_Space`, in order. -/
def blankRanges : CodeRanges :=
  [
    (0x09, 0x0D), (0x20, 0x20), (0x85, 0x85), (0xA0, 0xA0), (0x1680, 0x1680), (0x2000, 0x200A),
    (0x2028, 0x2029), (0x202F, 0x202F), (0x205F, 0x205F), (0x3000, 0x3000) ]

def isBlank (c : Char) : Bool :=
  blankRanges.holds c

/-- The text from its first character that is not blank. -/
def trimStart (cs : List Char) : List Char :=
  cs.dropWhile isBlank

/-- The text up to its last character that is not blank. -/
def trimEnd (cs : List Char) : List Char :=
  (cs.reverse.dropWhile isBlank).reverse

def trim (cs : List Char) : List Char :=
  trimEnd (trimStart cs)

end Hypertext.Unicode
