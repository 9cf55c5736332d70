/-!
# The parts of a text

A separator cuts a text into parts: what stands before it, between two of it, and behind it.  A
text without it is a single part.
-/

namespace PenPlotter.Text

/-- The parts of a text between separators. -/
def parts (separator : Char) : List Char → List (List Char)
  | [] => [[]]
  | c :: cs =>
    match parts separator cs with
    | [] => [[c]]
    | p :: ps => if c = separator then [] :: p :: ps else (c :: p) :: ps

/-- The parts of a text that are not empty. -/
def filledParts (separator : Char) (text : List Char) : List (List Char) :=
  (parts separator text).filter fun p => !p.isEmpty

theorem parts_ne_nil (separator : Char) (text : List Char) : parts separator text ≠ [] := by
  cases text with
  | nil => simp [parts]
  | cons c cs =>
    unfold parts
    split
    · simp
    · split <;> simp

/-- No part holds the separator. -/
theorem not_mem_of_mem_parts {separator : Char} {p : List Char} (text : List Char)
    (h : p ∈ parts separator text) : separator ∉ p := by
  fun_induction parts separator text generalizing p with
  | case1 => simp_all
  | case2 c cs hcs => exact absurd hcs (parts_ne_nil separator cs)
  | case3 cs q qs hq ih =>
    rcases List.mem_cons.1 h with rfl | h
    · exact List.not_mem_nil
    · exact ih (hq ▸ h)
  | case4 c cs q qs hq hc ih =>
    rcases List.mem_cons.1 h with rfl | h
    · rw [List.mem_cons, not_or]
      exact ⟨fun e => hc e.symm, ih (hq ▸ List.mem_cons_self)⟩
    · exact ih (hq ▸ List.mem_cons_of_mem q h)

end PenPlotter.Text
