import PenPlotter.Json.Decode

/-!
# Writing JSON

A `Value` is what a JSON text says.  `compact` writes it without any blank; `pretty` writes every
item of a list and every member of an object on a line of its own, indented by two spaces for each
list and object around it, and an empty list or object without a break.  In strings the quote, the
backslash and the control characters are escaped, and nothing else.
-/

namespace PenPlotter.Json

/-- What a JSON text says; a number is held as it is written. -/
inductive Value where
  | null
  | bool (value : Bool)
  | number (written : List Char)
  | text (value : String)
  | list (items : List Value)
  | object (members : List (String × Value))

namespace Value

/-- A natural number. -/
def natural (n : Nat) : Value := .number (Numeric.digits n)

/-- A 32-bit word. -/
def word (w : UInt32) : Value := natural w.toNat

/-- A number of single precision. -/
def single (b : Numeric.Single) : Value := .number (b.written singleStyle).toList

/-- A number of double precision. -/
def double (b : Numeric.Double) : Value := .number (b.written doubleStyle).toList

/-- How a character is written in a string. -/
def escapedChar (c : Char) : List Char :=
  if c = '"' then ['\\', '"']
  else if c = '\\' then ['\\', '\\']
  else if c = '\n' then ['\\', 'n']
  else if c = '\r' then ['\\', 'r']
  else if c = '\t' then ['\\', 't']
  else if c = Char.ofNat 8 then ['\\', 'b']
  else if c = Char.ofNat 12 then ['\\', 'f']
  else if c.toNat < 0x20 then
    ['\\', 'u', '0', '0', Nat.digitChar (c.toNat / 16), Nat.digitChar (c.toNat % 16)]
  else [c]

/-- A string between its quotes. -/
def quotedText (s : String) : List Char := '"' :: s.toList.flatMap escapedChar ++ ['"']

mutual

/-- The text of a value, without any blank. -/
def compact : Value → List Char
  | .null => "null".toList
  | .bool true => "true".toList
  | .bool false => "false".toList
  | .number written => written
  | .text s => quotedText s
  | .list items => '[' :: compactItems items ++ [']']
  | .object members => '\x7b' :: compactMembers members ++ ['\x7d']

/-- The items of a list with commas between them. -/
def compactItems : List Value → List Char
  | [] => []
  | [v] => v.compact
  | v :: vs => v.compact ++ ',' :: compactItems vs

/-- The members of an object with commas between them. -/
def compactMembers : List (String × Value) → List Char
  | [] => []
  | [(k, v)] => quotedText k ++ ':' :: v.compact
  | (k, v) :: vs => quotedText k ++ ':' :: v.compact ++ ',' :: compactMembers vs

end

/-- A new line with an indentation. -/
def newLine (depth : Nat) : List Char := '\n' :: List.replicate (2 * depth) ' '

mutual

/-- The text of a value with a line for each item and member. -/
def pretty (depth : Nat) : Value → List Char
  | .list [] => ['[', ']']
  | .list items =>
    '[' :: newLine (depth + 1) ++ prettyItems (depth + 1) items ++ newLine depth ++ [']']
  | .object [] => ['\x7b', '\x7d']
  | .object members =>
    '\x7b' :: newLine (depth + 1) ++ prettyMembers (depth + 1) members ++ newLine depth
      ++ ['\x7d']
  | v => v.compact

/-- The items of a list, each on a line. -/
def prettyItems (depth : Nat) : List Value → List Char
  | [] => []
  | [v] => v.pretty depth
  | v :: vs => v.pretty depth ++ ',' :: newLine depth ++ prettyItems depth vs

/-- The members of an object, each on a line. -/
def prettyMembers (depth : Nat) : List (String × Value) → List Char
  | [] => []
  | [(k, v)] => quotedText k ++ ':' :: ' ' :: v.pretty depth
  | (k, v) :: vs =>
    quotedText k ++ ':' :: ' ' :: v.pretty depth ++ ',' :: newLine depth ++ prettyMembers depth vs

end

/-- The text of a value without any blank. -/
def compactText (v : Value) : String := String.ofList v.compact

/-- The text of a value with a line for each item and member. -/
def prettyText (v : Value) : String := String.ofList (v.pretty 0)

end Value

end PenPlotter.Json
