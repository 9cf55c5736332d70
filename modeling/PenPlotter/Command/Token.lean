import PenPlotter.Command
import PenPlotter.Numeric.Digits
import PenPlotter.Text.Quoted

/-!
# Command tokens

A command is written as a token: `u` and `d` for the pen, `r` and `l` with a magnitude for a turn
to the right or to the left, `m` with a magnitude for a move.  `Command.token` writes and
`Command.ofToken` reads.  A magnitude is a run of decimal digits whose value fits a 32-bit word;
the magnitude of a turn counts modulo a full circle.
-/

namespace PenPlotter

/-- Why a text is no command token. -/
inductive TokenError where
  /-- There is no text. -/
  | empty
  /-- The text starts with no command letter, or a pen letter is followed by more. -/
  | unknown (token : String)
  /-- The letter of a turn or a move is not followed by a magnitude. -/
  | invalidMagnitude (token : String)
  deriving DecidableEq, Repr

namespace TokenError

/-- The wording of a token error. -/
def message : TokenError → String
  | empty => "empty command token"
  | unknown token => "unknown command token " ++ Text.quoted token
  | invalidMagnitude token => "invalid magnitude in command token " ++ Text.quoted token

end TokenError

/-- The magnitude written by a run of digits, if it fits a 32-bit word. -/
def magnitude? (cs : List Char) : Option UInt32 :=
  if cs ≠ [] ∧ cs.all Char.isDigit ∧ Numeric.ofDigits cs < UInt32.size then
    some (UInt32.ofNat (Numeric.ofDigits cs))
  else
    none

theorem magnitude?_digits (n : UInt32) : magnitude? (Numeric.digits n.toNat) = some n := by
  have h : (Numeric.digits n.toNat).all Char.isDigit = true :=
    List.all_eq_true.mpr fun _ => Numeric.isDigit_of_mem_digits
  rw [magnitude?, Numeric.ofDigits_digits,
    if_pos ⟨Numeric.digits_ne_nil _, h, n.toNat_lt⟩, UInt32.ofNat_toNat]

namespace Command

/-- The characters of a command's token. -/
def tokenChars : Command → List Char
  | penUp => ['u']
  | penDown => ['d']
  | rotate degrees =>
    (if degrees < 0 then 'l' else 'r') :: Numeric.digits degrees.toInt.natAbs
  | move units => 'm' :: Numeric.digits units.toNat

/-- The token of a command. -/
def token (c : Command) : String := String.ofList c.tokenChars

/-- The command that a text is a token of. -/
def ofToken (token : String) : Except TokenError Command :=
  let turn (sign : Int) (rest : List Char) : Except TokenError Command :=
    match magnitude? rest with
    | some m => .ok (rotate (normalTurn (sign * (m.toNat % 360 : Nat))))
    | none => .error (.invalidMagnitude token)
  match token.toList with
  | [] => .error .empty
  | ['u'] => .ok penUp
  | ['d'] => .ok penDown
  | 'r' :: rest => turn 1 rest
  | 'l' :: rest => turn (-1) rest
  | 'm' :: rest =>
    match magnitude? rest with
    | some m => .ok (move m)
    | none => .error (.invalidMagnitude token)
  | _ => .error (.unknown token)

end Command

end PenPlotter
