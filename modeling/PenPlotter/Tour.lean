import PenPlotter.Island

/-!
# Tours

A tour draws the islands of a pool one after the other, always taking the one whose entry is
nearest to where the plotter is; distances are Chebyshev distances, and of equally near islands
the one that comes first in the pool is taken.  The pool keeps its order through every removal, so
ties are always decided by the order in which the islands were given.  After an island the plotter
is at its exit.

An island without pixels has no entry and never gets into a pool.
-/

namespace PenPlotter

/-- Islands that are still to be drawn, in the order they were given. -/
structure Pool where
  islands : List Island
  drawable : ∀ i ∈ islands, i.isEmpty = false

/-- An island taken from a pool, with what led to the choice. -/
structure Selection where
  /-- Where the plotter was. -/
  position : Pixel
  /-- The place of the island in the pool. -/
  index : Nat
  /-- The distance from the plotter to the entry of the island. -/
  distance : UInt32
  /-- How many islands were left. -/
  remaining : Nat
  island : Island
  deriving DecidableEq, Repr

namespace Pool

/-- The pool of the islands that have pixels. -/
def ofIslands (islands : List Island) : Pool where
  islands := islands.filter fun i => !i.isEmpty
  drawable := fun i hi => by simpa using (List.mem_filter.mp hi).2

/-- How many islands are still to be drawn. -/
def size (p : Pool) : Nat := p.islands.length

/-- Nothing is left to be drawn. -/
def isEmpty (p : Pool) : Bool := p.islands.isEmpty

/-- The better of the best choice so far and the next island of the list. -/
def closer (position : Pixel) (best : Option (Nat × UInt32)) (next : Island × Nat) :
    Option (Nat × UInt32) :=
  match next.1.first? with
  | none => best
  | some entry =>
    let distance := position.chebyshev entry
    match best with
    | none => some (next.2, distance)
    | some (_, least) => if distance < least then some (next.2, distance) else best

/-- The place of the island with the nearest entry, and the distance to it; the first one of
equally near islands. -/
def nearest? (position : Pixel) (islands : List Island) : Option (Nat × UInt32) :=
  islands.zipIdx.foldl (closer position) none

/-- The pool without the island at a place. -/
def erase (p : Pool) (index : Nat) : Pool where
  islands := p.islands.eraseIdx index
  drawable := fun i hi => p.drawable i (List.mem_of_mem_eraseIdx hi)

/-- Take the island whose entry is nearest to the plotter. -/
def takeNearest? (p : Pool) (position : Pixel) : Option (Selection × Pool) :=
  match nearest? position p.islands with
  | none => none
  | some (index, distance) =>
    match p.islands[index]? with
    | none => none
    | some island =>
      let rest := p.erase index
      some (⟨position, index, distance, rest.size, island⟩, rest)

/-- A pool shrinks by one with every island taken. -/
theorem size_of_takeNearest? {p rest : Pool} {position : Pixel} {s : Selection}
    (h : p.takeNearest? position = some (s, rest)) : rest.size + 1 = p.size := by
  unfold takeNearest? at h
  split at h
  · cases h
  · rename_i index distance _
    split at h
    · cases h
    · rename_i island hget
      cases h
      have hi : index < p.islands.length := (List.getElem?_eq_some_iff.mp hget).1
      simp only [size, erase, List.length_eraseIdx, if_pos hi]
      omega

/-- Where the plotter is after drawing an island. -/
def after (position : Pixel) (i : Island) : Pixel := i.last?.getD position

end Pool

/-- A tour in progress: the islands that are still to be drawn, and where the plotter is. -/
structure Tour where
  pool : Pool
  position : Pixel

namespace Tour

/-- The tour of the islands that have pixels, before the first is drawn. -/
def start (islands : List Island) (position : Pixel) : Tour := ⟨Pool.ofIslands islands, position⟩

/-- How many islands are still to be drawn. -/
def length (t : Tour) : Nat := t.pool.size

/-- Draw the nearest island. -/
def next? (t : Tour) : Option (Selection × Tour) :=
  (t.pool.takeNearest? t.position).map fun (s, rest) => (s, ⟨rest, Pool.after t.position s.island⟩)

/-- A tour is one shorter with every island drawn. -/
theorem length_of_next? {t u : Tour} {s : Selection} (h : t.next? = some (s, u)) :
    u.length + 1 = t.length := by
  obtain ⟨⟨s', rest⟩, hp, he⟩ := Option.map_eq_some_iff.mp h
  cases he
  exact Pool.size_of_takeNearest? hp

/-- The islands in the order they are drawn, each with what led to its choice. -/
def selections (t : Tour) : List Selection :=
  match _h : t.next? with
  | none => []
  | some (s, u) => s :: u.selections
termination_by t.length
decreasing_by
  have := length_of_next? (by assumption)
  omega

theorem selections_of_some {t u : Tour} {s : Selection} (h : t.next? = some (s, u)) :
    t.selections = s :: u.selections := by
  rw [selections]
  split
  · rename_i hn
    rw [h] at hn
    cases hn
  · rename_i s' u' hs
    rw [h] at hs
    cases hs
    rfl

end Tour

/-- The islands of a pool in the order a tour from a position draws them, each with what led to its
choice. -/
def Pool.tour (p : Pool) (position : Pixel) : List Selection := (Tour.mk p position).selections

/-- The islands that have pixels, in the order a tour from a position draws them. -/
def planTour (islands : List Island) (position : Pixel) : List Island :=
  (Tour.start islands position).selections.map Selection.island

end PenPlotter
