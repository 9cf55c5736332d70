/-!
# Text for a terminal

A terminal takes some control characters for orders.  A text is shown on it with these written
out: those of ASCII by two hexadecimal digits, and the controls from U+0080 on by their code
points between braces.  Tabs and line ends are no orders.
-/

namespace PenPlotter.Text

/-- The controls of ASCII that a terminal obeys. -/
def orders : List Char := ['\x07', '\x08', '\x0c', '\x1b', '\x7f']

/-- How a character is shown on a terminal. -/
def terminalChar (c : Char) : List Char :=
  if c ∈ orders then ['\\', 'x', Nat.digitChar (c.toNat / 16), Nat.digitChar (c.toNat % 16)]
  else if 0x80 ≤ c.toNat ∧ c.toNat ≤ 0x9f then
    ['\\', 'u', '\x7b'] ++ Nat.toDigits 16 c.toNat ++ ['\x7d']
  else [c]

/-- A text as it is shown on a terminal. -/
def forTerminal (s : String) : String := String.ofList (s.toList.flatMap terminalChar)

end PenPlotter.Text
