import Stencil.Text.Basic

namespace Stencil.Text

/-- The first and last code point of each run of characters with the `White_Space` property. -/
def blankRuns : List (Nat × Nat) :=
  [(0x09, 0x0D), (0x20, 0x20), (0x85, 0x85), (0xA0, 0xA0), (0x1680, 0x1680), (0x2000, 0x200A),
    (0x2028, 0x2029), (0x202F, 0x202F), (0x205F, 0x205F), (0x3000, 0x3000)]

/-- A character with the `White_Space` property of Unicode. -/
def isBlank (c : Char) : Bool :=
  inRuns blankRuns c

/-- The text without the blanks at both ends. -/
def trim (t : Text) : Text :=
  ((t.dropWhile isBlank).reverse.dropWhile isBlank).reverse

end Stencil.Text
