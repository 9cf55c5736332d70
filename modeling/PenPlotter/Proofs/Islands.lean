import Mathlib.Data.List.Nodup
import Mathlib.Data.List.Pairwise
import Mathlib.Tactic.Tauto
import PenPlotter.Proofs.Flood

/-!
# The islands of a mask are its components

`m.Component i` says that the island `i` lists a component of `m`: every pixel once, and first the
one that a scan row by row meets before all others.  The scan behind `Mask.islands` keeps
`Scanning m seen s`: the islands found so far are disjoint components, what remains inked is the
rest of the mask, and no pixel seen so far remains inked.  The rest of the mask is a union of
components, so a flood of the rest collects a component of the whole (`Scanning.joined_iff`).

**Main statement** (`islands_components`): the islands are exactly the components, in the order in
which a scan meets them.
-/

namespace PenPlotter

/-- The island lists a component of the mask, from its first pixel in the order of a scan. -/
structure Mask.Component (m : Mask) (i : Island) : Prop where
  first : ∃ f, i.first? = some f ∧ ∀ p ∈ i.pixels, p = f ∨ f.Before p
  nodup : i.pixels.Nodup
  joined : ∀ p ∈ i.pixels, ∀ q, q ∈ i.pixels ↔ m.Joined p q

/-- A scan meets the first pixel of `i` before the first pixel of `j`. -/
def Island.Precedes (i j : Island) : Prop :=
  ∃ p q, i.first? = some p ∧ j.first? = some q ∧ p.Before q

namespace Island

theorem mem_of_first? {i : Island} {p : Pixel} (h : i.first? = some p) : p ∈ i.pixels :=
  List.mem_of_head? h

theorem pixels_ne_nil_of_first? {i : Island} {p : Pixel} (h : i.first? = some p) :
    i.pixels ≠ [] :=
  List.ne_nil_of_mem (mem_of_first? h)

end Island

theorem Mask.Component.ne_nil {m : Mask} {i : Island} (h : m.Component i) : i.pixels ≠ [] := by
  obtain ⟨f, hf, -⟩ := h.first
  exact Island.pixels_ne_nil_of_first? hf

theorem Mask.Component.inked {m : Mask} {i : Island} (h : m.Component i) {p : Pixel}
    (hp : p ∈ i.pixels) : m.get p = true :=
  ((h.joined p hp p).mp hp).inked_left

namespace Extraction

/-- A scan of `m` that has seen the pixels `seen`. -/
structure Scanning (m : Mask) (seen : List Pixel) (s : Extraction) : Prop where
  component : ∀ i ∈ s.islands, m.Component i
  disjoint : s.islands.Pairwise fun i j => List.Disjoint i.pixels j.pixels
  /-- The islands are kept latest first. -/
  order : s.islands.Pairwise fun i j => j.Precedes i
  /-- What remains inked is what no island has drawn yet. -/
  remaining : ∀ p, s.remaining.get p = true ↔ m.get p = true ∧ ∀ i ∈ s.islands, p ∉ i.pixels
  blank : ∀ p ∈ seen, s.remaining.get p = false
  /-- An island is found when the scan meets its first pixel. -/
  seed : ∀ i ∈ s.islands, ∃ f ∈ seen, i.first? = some f

theorem scanning_start (m : Mask) : Scanning m [] (start m) where
  component := by simp [start]
  disjoint := List.Pairwise.nil
  order := List.Pairwise.nil
  remaining := by simp [start]
  blank := by simp
  seed := by simp [start]

/-- What remains of the mask is a union of components. -/
theorem Scanning.joined_iff {m : Mask} {seen : List Pixel} {s : Extraction}
    (hs : Scanning m seen s) {p q : Pixel} (hp : s.remaining.get p = true) :
    s.remaining.Joined p q ↔ m.Joined p q := by
  constructor
  · exact Mask.Joined.mono fun a ha => ((hs.remaining a).mp ha).1
  · refine Mask.Joined.of_closed (fun a b ha hab hb => .step ha hab ?_) (.start hp)
    -- If an island had drawn `b`, it would have drawn `a`, which is adjacent to it.
    obtain ⟨hma, hfree⟩ := (hs.remaining a).mp ha.inked_right
    refine (hs.remaining b).mpr ⟨hb, fun i hi hbi => hfree i hi ?_⟩
    exact ((hs.component i hi).joined b hbi a).mpr (.step (.start hb) hab.symm hma)

/-- The flood of what remains collects a component of the whole mask. -/
theorem Scanning.component_flood {m : Mask} {seen rest : List Pixel} {p : Pixel} {s : Extraction}
    (hs : Scanning m seen s) (hscan : m.pixels = seen ++ p :: rest)
    (hp : s.remaining.get p = true) :
    m.Component (Flood.start s.remaining p).finish.island where
  first := by
    refine ⟨p, Flood.first?_island_flood hp, fun q hq => ?_⟩
    have hq' := ((Flood.mem_island_flood hp).mp hq).inked_right
    -- `q` remains inked, so the scan has not seen it yet.
    have hunseen : q ∉ seen := fun h => by
      rw [hs.blank q h] at hq'
      cases hq'
    have hmem : q ∈ m.pixels :=
      Mask.mem_pixels.mpr (Mask.contains_of_get ((hs.remaining q).mp hq').1)
    have hpair := m.pixels_pairwise
    rw [hscan] at hmem hpair
    rcases List.mem_cons.mp ((List.mem_append.mp hmem).resolve_left hunseen) with h | h
    · exact .inl h
    · exact .inr ((List.pairwise_cons.mp (List.pairwise_append.mp hpair).2.1).1 q h)
  nodup := Flood.nodup_island_flood hp
  joined := by
    intro q hq r
    rw [Flood.mem_island_flood hp, hs.joined_iff hp] at hq ⊢
    exact ⟨hq.symm.trans, hq.trans⟩

/-- A visit to a blank pixel keeps the scan going. -/
theorem Scanning.skip {m : Mask} {seen : List Pixel} {p : Pixel} {s : Extraction}
    (hs : Scanning m seen s) (hp : s.remaining.get p = false) : Scanning m (seen ++ [p]) s := by
  refine ⟨hs.component, hs.disjoint, hs.order, hs.remaining, ?_, ?_⟩
  · intro q hq
    rcases List.mem_append.mp hq with h | h
    · exact hs.blank q h
    · obtain rfl := List.mem_singleton.mp h
      exact hp
  · intro i hi
    obtain ⟨f, hf, hfirst⟩ := hs.seed i hi
    exact ⟨f, List.mem_append_left _ hf, hfirst⟩

/-- The island a visit finds. -/
theorem Scanning.found {m : Mask} {seen rest : List Pixel} {p : Pixel} {s : Extraction}
    (hs : Scanning m seen s) (hscan : m.pixels = seen ++ p :: rest)
    (hp : s.remaining.get p = true) :
    Scanning m (seen ++ [p])
      ⟨(Flood.start s.remaining p).finish.remaining,
        (Flood.start s.remaining p).finish.island :: s.islands⟩ := by
  have hfirst := Flood.first?_island_flood hp
  have hremaining : ∀ q, (Flood.start s.remaining p).finish.remaining.get q = true ↔
      m.get q = true ∧
        ∀ i ∈ (Flood.start s.remaining p).finish.island :: s.islands, q ∉ i.pixels := by
    intro q
    rw [List.forall_mem_cons, Flood.get_remaining_flood hp, Flood.mem_island_flood hp,
      hs.remaining q]
    tauto
  refine ⟨?_, ?_, ?_, hremaining, ?_, ?_⟩
  · exact List.forall_mem_cons.mpr ⟨hs.component_flood hscan hp, hs.component⟩
  · refine List.pairwise_cons.mpr ⟨fun i hi q hq hqi => ?_, hs.disjoint⟩
    have hq' := ((Flood.mem_island_flood hp).mp hq).inked_right
    exact ((hs.remaining q).mp hq').2 i hi hqi
  · refine List.pairwise_cons.mpr ⟨fun i hi => ?_, hs.order⟩
    obtain ⟨f, hf, hif⟩ := hs.seed i hi
    have hpair := m.pixels_pairwise
    rw [hscan] at hpair
    exact ⟨f, p, hif, hfirst, (List.pairwise_append.mp hpair).2.2 f hf p List.mem_cons_self⟩
  · intro q hq
    rw [Bool.eq_false_iff]
    intro hq'
    obtain ⟨hmq, hfree⟩ := (hremaining q).mp hq'
    obtain ⟨hnew, hold⟩ := List.forall_mem_cons.mp hfree
    rcases List.mem_append.mp hq with h | h
    · have hblank := hs.blank q h
      rw [(hs.remaining q).mpr ⟨hmq, hold⟩] at hblank
      cases hblank
    · obtain rfl := List.mem_singleton.mp h
      exact hnew (Island.mem_of_first? hfirst)
  · refine List.forall_mem_cons.mpr ⟨⟨p, by simp, hfirst⟩, fun i hi => ?_⟩
    obtain ⟨f, hf, hif⟩ := hs.seed i hi
    exact ⟨f, List.mem_append_left _ hf, hif⟩

/-- A visit keeps the scan going. -/
theorem Scanning.visit {m : Mask} {seen rest : List Pixel} {p : Pixel} {s : Extraction}
    (hs : Scanning m seen s) (hscan : m.pixels = seen ++ p :: rest) :
    Scanning m (seen ++ [p]) (s.visit p) := by
  rw [Extraction.visit]
  split
  case isTrue hp => exact hs.found hscan hp
  case isFalse hp => exact hs.skip (Bool.eq_false_iff.mpr hp)

theorem Scanning.foldl {m : Mask} :
    ∀ {rest seen : List Pixel} {s : Extraction}, Scanning m seen s → m.pixels = seen ++ rest →
      Scanning m m.pixels (rest.foldl Extraction.visit s)
  | [], seen, s, hs, hscan => by
      rw [List.append_nil] at hscan
      rw [hscan]
      exact hs
  | p :: rest, seen, s, hs, hscan => by
      rw [List.foldl_cons]
      exact (hs.visit hscan).foldl (by rw [hscan, List.append_assoc]; rfl)

end Extraction

namespace Mask

open Extraction

theorem scanning_islands (m : Mask) :
    Scanning m m.pixels (m.pixels.foldl Extraction.visit (Extraction.start m)) :=
  (scanning_start m).foldl rfl

/-- Every island is a component. -/
theorem component_of_mem_islands {m : Mask} {i : Island} (hi : i ∈ m.islands) : m.Component i :=
  m.scanning_islands.component i (List.mem_reverse.mp hi)

/-- Every inked pixel is drawn by an island. -/
theorem exists_island {m : Mask} {p : Pixel} (hp : m.get p = true) :
    ∃ i ∈ m.islands, p ∈ i.pixels := by
  have hs := m.scanning_islands
  have hblank := hs.blank p (mem_pixels.mpr (contains_of_get hp))
  by_contra hno
  push Not at hno
  rw [(hs.remaining p).mpr ⟨hp, fun i hi => hno i (List.mem_reverse.mpr hi)⟩] at hblank
  cases hblank

theorem islands_pairwise_disjoint (m : Mask) :
    m.islands.Pairwise fun i j => List.Disjoint i.pixels j.pixels := by
  rw [islands, List.pairwise_reverse]
  exact m.scanning_islands.disjoint.imp fun h => List.disjoint_symm h

/-- The islands are listed in the order in which a scan meets their first pixels. -/
theorem islands_pairwise_precedes (m : Mask) : m.islands.Pairwise Island.Precedes :=
  List.pairwise_reverse.mpr m.scanning_islands.order

/-- A pixel is drawn by one island. -/
theorem eq_of_mem_islands {m : Mask} {i j : Island} {p : Pixel} (hi : i ∈ m.islands)
    (hj : j ∈ m.islands) (hpi : p ∈ i.pixels) (hpj : p ∈ j.pixels) : i = j := by
  have : Std.Symm fun i j : Island => List.Disjoint i.pixels j.pixels :=
    ⟨fun _ _ h => List.disjoint_symm h⟩
  by_contra hne
  exact m.islands_pairwise_disjoint.forall hi hj hne hpi hpj

theorem nodup_islands (m : Mask) : m.islands.Nodup := by
  refine m.islands_pairwise_precedes.imp ?_
  rintro i _ ⟨p, q, hp, hq, hpq⟩ rfl
  cases hp.symm.trans hq
  exact p.before_irrefl hpq

theorem mem_flatMap_islands {m : Mask} {p : Pixel} :
    p ∈ m.islands.flatMap Island.pixels ↔ m.get p = true := by
  rw [List.mem_flatMap]
  constructor
  · rintro ⟨i, hi, hp⟩
    exact (component_of_mem_islands hi).inked hp
  · exact exists_island

theorem nodup_flatMap_islands (m : Mask) : (m.islands.flatMap Island.pixels).Nodup :=
  List.nodup_flatMap.mpr
    ⟨fun _ hi => (component_of_mem_islands hi).nodup, m.islands_pairwise_disjoint⟩

/-- Two pixels are in the same island if and only if they are joined. -/
theorem same_island_iff {m : Mask} {p q : Pixel} :
    (∃ i ∈ m.islands, p ∈ i.pixels ∧ q ∈ i.pixels) ↔ m.Joined p q := by
  constructor
  · rintro ⟨i, hi, hpi, hqi⟩
    exact ((component_of_mem_islands hi).joined p hpi q).mp hqi
  · intro h
    obtain ⟨i, hi, hpi⟩ := exists_island h.inked_left
    exact ⟨i, hi, hpi, ((component_of_mem_islands hi).joined p hpi q).mpr h⟩

/-- **The islands of a mask are the components of its inked pixels.**  No island is empty; every
inked pixel occurs once in the islands taken together, and no other pixel occurs; two pixels are in
the same island if and only if a path of adjacent inked pixels joins them.  An island starts with
the pixel of its component that a scan row by row meets first, and the islands are listed in the
order in which the scan meets these. -/
theorem islands_components (m : Mask) :
    (∀ i ∈ m.islands, i.pixels ≠ []) ∧
      (∀ p, (m.islands.flatMap Island.pixels).count p = if m.get p then 1 else 0) ∧
      (∀ p q, (∃ i ∈ m.islands, p ∈ i.pixels ∧ q ∈ i.pixels) ↔ m.Joined p q) ∧
      (∀ i ∈ m.islands, ∃ f, i.first? = some f ∧ ∀ q, m.Joined f q → q = f ∨ f.Before q) ∧
      m.islands.Pairwise Island.Precedes := by
  refine ⟨fun i hi => (component_of_mem_islands hi).ne_nil, ?_, fun p q => same_island_iff, ?_,
    m.islands_pairwise_precedes⟩
  · intro p
    split
    case isTrue hp =>
      exact List.count_eq_one_of_mem m.nodup_flatMap_islands (mem_flatMap_islands.mpr hp)
    case isFalse hp =>
      exact List.count_eq_zero_of_not_mem fun h => hp (mem_flatMap_islands.mp h)
  · intro i hi
    have hc := component_of_mem_islands hi
    obtain ⟨f, hf, hleast⟩ := hc.first
    exact ⟨f, hf, fun q hq => hleast q ((hc.joined f (Island.mem_of_first? hf) q).mpr hq)⟩

end Mask

end PenPlotter
