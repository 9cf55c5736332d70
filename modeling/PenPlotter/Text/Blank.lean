/-!
# Blanks

A character is *blank* when it is white space in any script: the ASCII controls from tab to
carriage return, the space, and the separators.
-/

namespace PenPlotter.Text

/-- Whether a character is white space. -/
def isBlank (c : Char) : Bool :=
  let n := c.toNat
  (9 ≤ n && n ≤ 13) || n == 0x20 || n == 0x85 || n == 0xa0 || n == 0x1680
    || (0x2000 ≤ n && n ≤ 0x200a) || n == 0x2028 || n == 0x2029 || n == 0x202f || n == 0x205f
    || n == 0x3000

end PenPlotter.Text
