import PenPlotter.Island
import PenPlotter.Heading
import PenPlotter.Queue

/-!
# Extracting islands

The islands of a mask are its regions of inked pixels that touch along an edge.  The pixels are
scanned row by row; each one that is still inked seeds a breadth-first *flood*, which collects the
region of the seed and blanks it, so that the mask that remains holds exactly what no island has
drawn yet.

A flood takes pixels from a first-in, first-out frontier.  A pixel that is still inked is blanked
and recorded, and its inked neighbours below, to the right, above and to the left, in this order,
join the frontier.  A pixel may wait in the frontier more than once; it is recorded only the first
time it is taken.

Every turn of a flood either blanks an inked pixel or shortens the frontier, which is why it ends.
-/

namespace PenPlotter

/-- The order in which the neighbours of a pixel are looked at. -/
def neighbourOrder : List Heading := [.down, .right, .up, .left]

/-- The inked neighbours of a pixel, in the order they are looked at. -/
def Mask.inkedNeighbours (m : Mask) (p : Pixel) : List Pixel :=
  (neighbourOrder.filterMap p.step?).filter m.get

/-- A breadth-first search in progress. -/
structure Flood where
  /-- What no island has drawn yet. -/
  remaining : Mask
  /-- The pixels to be looked at. -/
  frontier : Queue Pixel
  /-- The pixels recorded so far, latest first. -/
  found : List Pixel

namespace Flood

/-- The search that starts at a seed. -/
def start (remaining : Mask) (seed : Pixel) : Flood := ⟨remaining, Queue.singleton seed, []⟩

/-- The search after a pixel has been taken from the frontier. -/
def take (remaining : Mask) (rest : Queue Pixel) (found : List Pixel) (p : Pixel) : Flood :=
  if remaining.get p then
    let remaining := remaining.erase p
    ⟨remaining, rest.pushAll (remaining.inkedNeighbours p), p :: found⟩
  else
    ⟨remaining, rest, found⟩

/-- One turn of the search: take the next pixel of the frontier.  There is none at the end. -/
def next? (s : Flood) : Option Flood :=
  s.frontier.pop?.map fun (p, rest) => take s.remaining rest s.found p

/-- A turn blanks an inked pixel or shortens the frontier. -/
theorem take_decreases {frontier rest : Queue Pixel} {p : Pixel}
    (h : frontier.pop? = some (p, rest)) (remaining : Mask) (found : List Pixel) :
    (take remaining rest found p).remaining.inkCount < remaining.inkCount ∨
      (take remaining rest found p).remaining.inkCount = remaining.inkCount ∧
        (take remaining rest found p).frontier.toList.length < frontier.toList.length := by
  unfold take
  split
  case isTrue hg =>
    have := Mask.inkCount_erase hg
    exact .inl (by simp only; omega)
  case isFalse => exact .inr ⟨rfl, by simp [Queue.toList_of_pop? h]⟩

/-- The search run to its end. -/
def finish (s : Flood) : Flood :=
  match s with
  | ⟨remaining, frontier, found⟩ =>
    match _h : frontier.pop? with
    | none => ⟨remaining, frontier, found⟩
    | some (p, rest) => (take remaining rest found p).finish
termination_by (s.remaining.inkCount, s.frontier.toList.length)
decreasing_by
  rcases take_decreases (by assumption) remaining found with hlt | ⟨heq, hlt⟩
  · exact Prod.Lex.left _ _ hlt
  · rw [heq]
    exact Prod.Lex.right _ hlt

/-- The pixels recorded, in the order they were taken. -/
def island (s : Flood) : Island := ⟨s.found.reverse⟩

theorem next?_eq_none_iff {s : Flood} : s.next? = none ↔ s.frontier.toList = [] := by
  rw [next?, Option.map_eq_none_iff, Queue.pop?_eq_none_iff]

theorem finish_of_none {s : Flood} (h : s.next? = none) : s.finish = s := by
  obtain ⟨remaining, frontier, found⟩ := s
  rw [next?, Option.map_eq_none_iff] at h
  rw [finish]
  split
  · rfl
  · rename_i p rest hp
    rw [h] at hp
    cases hp

theorem finish_of_some {s t : Flood} (h : s.next? = some t) : s.finish = t.finish := by
  obtain ⟨remaining, frontier, found⟩ := s
  obtain ⟨⟨p, rest⟩, hp, rfl⟩ := Option.map_eq_some_iff.mp h
  rw [finish]
  split
  · rename_i hn
    rw [hp] at hn
    cases hn
  · rename_i q rest' hq
    rw [hp] at hq
    cases hq
    rfl

end Flood

/-- A scan in progress: what no island has drawn yet, and the islands found, latest first. -/
structure Extraction where
  remaining : Mask
  islands : List Island

namespace Extraction

/-- The scan before the first pixel. -/
def start (m : Mask) : Extraction := ⟨m, []⟩

/-- The scan after one more pixel: a pixel that is still inked seeds an island. -/
def visit (s : Extraction) (p : Pixel) : Extraction :=
  match s with
  | ⟨remaining, islands⟩ =>
    if remaining.get p then
      let flood := (Flood.start remaining p).finish
      ⟨flood.remaining, flood.island :: islands⟩
    else
      ⟨remaining, islands⟩

end Extraction

/-- The islands of a mask, in the order a scan row by row meets them. -/
def Mask.islands (m : Mask) : List Island :=
  (m.pixels.foldl Extraction.visit (Extraction.start m)).islands.reverse

end PenPlotter
