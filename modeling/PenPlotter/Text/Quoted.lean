import PenPlotter.Text.Hidden

/-!
# Quoted text in messages

Messages show a text between double quotes, so that blanks and invisible characters can be seen.
The quote and the backslash are written after a backslash, NUL, tab, line feed and carriage
return by their letters, and every other hidden character by its code point in hexadecimal.  So
plain ASCII stands between the quotes as it is (`quoted_of_plain`).
-/

namespace PenPlotter.Text

/-- How a character is shown between quotes. -/
def quotedChar (c : Char) : List Char :=
  if c = '"' then ['\\', '"']
  else if c = '\\' then ['\\', '\\']
  else if c = Char.ofNat 0 then ['\\', '0']
  else if c = '\t' then ['\\', 't']
  else if c = '\n' then ['\\', 'n']
  else if c = '\r' then ['\\', 'r']
  else if isHidden c then ['\\', 'u', '\x7b'] ++ Nat.toDigits 16 c.toNat ++ ['\x7d']
  else [c]

/-- A text between double quotes. -/
def quoted (s : String) : String :=
  String.ofList ('"' :: s.toList.flatMap quotedChar ++ ['"'])

/-- A character that needs no escape is shown as it is. -/
theorem quotedChar_of_plain {c : Char} (hq : c ≠ '"') (hb : c ≠ '\\')
    (hs : isHidden c = false) : quotedChar c = [c] := by
  have h : ∀ d : Char, isHidden d = true → c ≠ d := fun d hd e => by rw [e, hd] at hs; cases hs
  rw [quotedChar, if_neg hq, if_neg hb, if_neg (h _ (by decide)), if_neg (h _ (by decide)),
    if_neg (h _ (by decide)), if_neg (h _ (by decide)), hs]
  rfl

/-- Printable ASCII without quotes and backslashes is shown as it is. -/
theorem quoted_of_plain {s : String} (h : ∀ c ∈ s.toList,
    0x20 ≤ c.toNat ∧ c.toNat < 0x7f ∧ c ≠ '"' ∧ c ≠ '\\') :
    quoted s = String.ofList ('"' :: s.toList ++ ['"']) := by
  have hplain : ∀ c ∈ s.toList, quotedChar c = [c] := by
    intro c hc
    obtain ⟨hlower, hupper, hquote, hbackslash⟩ := h c hc
    exact quotedChar_of_plain hquote hbackslash (isHidden_ascii hlower hupper)
  rw [quoted, List.flatMap_def, List.map_congr_left hplain, ← List.flatMap_def,
    List.flatMap_singleton']

end PenPlotter.Text
