import Mathlib.Data.List.Forall2
import Mathlib.Data.Set.Defs
import PenPlotter.Proofs.Canvas
import PenPlotter.Proofs.Drawing
import PenPlotter.Proofs.Islands
import PenPlotter.Svg

/-!
# Drawings of masks

The rectangle that two pixels of a canvas span is part of the canvas, so the program of a mask never
leads the turtle off it.  Each component of the inked pixels is drawn by a stroke of its own, which
covers the component and stays in its bounding box (`Draws`).

**Main statement** (`replay_compile`): the program of a mask replays on its canvas as it does without
bounds, inks every inked pixel, has one stroke for every component, and always has a picture.
-/

namespace PenPlotter

namespace Mask

/-! ### The canvas of a mask -/

theorem holds_point {m : Mask} {p : Pixel} : m.dimensions.Holds p.point ↔ m.Contains p := by
  simp only [Dimensions.Holds, dimensions, Pixel.point, Contains, UInt32.lt_iff_toNat_lt]
  omega

theorem contains_of_between {m : Mask} {p q r : Pixel} (hp : m.Contains p) (hq : m.Contains q)
    (hr : Pixel.Between p q r) : m.Contains r :=
  hr.inside hp hq

theorem spans_dimensions {m : Mask} {ps : List Pixel} (h : ∀ p ∈ ps, m.Contains p) :
    Spans (some m.dimensions) ps := by
  rintro a ha b hb r hr _ ⟨⟩
  exact holds_point.mpr (contains_of_between (h a ha) (h b hb) hr)

/-! ### Components and their strokes -/

/-- The components of the inked pixels. -/
def components (m : Mask) : Set (Set Pixel) :=
  {C | ∃ p, m.get p = true ∧ C = {q | m.Joined p q}}

theorem setOf_mem_components {m : Mask} {i : Island} (hi : m.Component i) :
    {q | q ∈ i.pixels} ∈ m.components := by
  obtain ⟨f, hf, -⟩ := hi.first
  have hmem := Island.mem_of_first? hf
  exact ⟨f, hi.inked hmem, Set.ext fun q => hi.joined f hmem q⟩

theorem exists_island_of_mem_components {m : Mask} {C : Set Pixel} (hC : C ∈ m.components) :
    ∃ i ∈ m.islands, {q | q ∈ i.pixels} = C := by
  obtain ⟨p, hp, rfl⟩ := hC
  obtain ⟨i, hi, hpi⟩ := exists_island hp
  exact ⟨i, hi, Set.ext fun q => (component_of_mem_islands hi).joined p hpi q⟩

/-- Different islands draw different components. -/
theorem nodup_components (m : Mask) : (m.islands.map fun i => {q | q ∈ i.pixels}).Nodup := by
  refine List.pairwise_map.mpr (m.islands_pairwise_disjoint.imp_of_mem fun {i j} hi _ hij he => ?_)
  obtain ⟨f, hf, -⟩ := (component_of_mem_islands hi).first
  have hmem := Island.mem_of_first? hf
  have : f ∈ {q | q ∈ j.pixels} := he ▸ hmem
  exact hij hmem this

end Mask

/-- The point lies in the bounding box of the pixels. -/
structure InBox (C : Set Pixel) (q : Point) : Prop where
  left : ∃ p ∈ C, p.point.1 ≤ q.1
  right : ∃ p ∈ C, q.1 ≤ p.point.1
  above : ∃ p ∈ C, p.point.2 ≤ q.2
  below : ∃ p ∈ C, q.2 ≤ p.point.2

/-- The stroke starts at one of the pixels, covers them, and stays in their bounding box. -/
structure Draws (C : Set Pixel) (stroke : List Point) : Prop where
  start : ∃ p ∈ C, stroke.head? = some p.point
  covers : ∀ p ∈ C, p.point ∈ stroke
  inside : ∀ q ∈ stroke, InBox C q

theorem inBox_of_between {C : Set Pixel} {p q r : Pixel} (hp : p ∈ C) (hq : q ∈ C)
    (hr : Pixel.Between p q r) : InBox C r.point := by
  have corner : ∀ {P : Pixel → Prop}, P p ∨ P q → ∃ s ∈ C, P s := fun h =>
    h.elim (fun h => ⟨p, hp, h⟩) fun h => ⟨q, hq, h⟩
  simp only [Pixel.Between] at hr
  refine ⟨corner ?_, corner ?_, corner ?_, corner ?_⟩ <;> simp only [Pixel.point] <;> omega

theorem draws_stroke {i : Island} (hi : i.pixels ≠ []) : Draws {q | q ∈ i.pixels} i.stroke := by
  obtain ⟨entry, rest, hcons⟩ := List.exists_cons_of_ne_nil hi
  have hstroke : i.stroke = entry.point :: (Pixel.trail entry rest).map Pixel.point := by
    rw [Island.stroke, hcons]
    rfl
  have hentry : entry ∈ i.pixels := hcons ▸ List.mem_cons_self
  refine ⟨⟨entry, hentry, by rw [hstroke]; rfl⟩, ?_, ?_⟩
  · intro p hp
    exact List.mem_map_of_mem (Pixel.mem_route hp)
  · intro q hq
    have hbox : ∀ a ∈ entry :: rest, ∀ b ∈ entry :: rest, ∀ r, Pixel.Between a b r →
        InBox {q | q ∈ i.pixels} r.point := fun a ha b hb r hr =>
      inBox_of_between (C := {q | q ∈ i.pixels}) (hcons ▸ ha) (hcons ▸ hb) hr
    rw [hstroke, List.mem_cons] at hq
    rcases hq with rfl | hq
    · exact hbox entry List.mem_cons_self entry List.mem_cons_self entry (by simp [Pixel.Between])
    · obtain ⟨r, hr, rfl⟩ := List.mem_map.mp hq
      exact Pixel.forall_mem_trail hbox r hr

namespace Mask

/-- All islands of a mask have pixels. -/
theorem filter_islands (m : Mask) : (m.islands.filter fun i => !i.isEmpty) = m.islands := by
  refine List.filter_eq_self.mpr fun i hi => ?_
  simpa [Island.isEmpty] using (component_of_mem_islands hi).ne_nil

/-- The tour of the islands of a mask draws all of them. -/
theorem planTour_islands_perm (m : Mask) (start : Pixel) :
    (planTour m.islands start).Perm m.islands := by
  have hperm := planTour_perm m.islands start
  rwa [filter_islands] at hperm

theorem contains_of_mem_tour {m : Mask} {p : Pixel}
    (hp : p ∈ Pixel.origin :: (planTour m.islands Pixel.origin).flatMap Island.pixels) :
    m.Contains p := by
  rcases List.mem_cons.mp hp with rfl | hp
  · exact m.contains_origin
  · obtain ⟨i, hi, hpi⟩ := List.mem_flatMap.mp hp
    have hi' := (m.planTour_islands_perm Pixel.origin).mem_iff.mp hi
    exact contains_of_get ((component_of_mem_islands hi').inked hpi)

/-- The program of a mask does on its canvas what it does without bounds. -/
theorem exists_replay_compile (m : Mask) :
    ∃ t, replayWithin m.compile.commands m.compile.dimensions = .ok t ∧
      replay m.compile.commands = .ok t ∧
      t.strokes = (planTour m.islands Pixel.origin).map Island.stroke := by
  have hdrawable : ∀ i ∈ planTour m.islands Pixel.origin, i.isEmpty = false :=
    fun i hi => isEmpty_of_mem_planTour hi
  obtain ⟨t, ht, hstrokes, htravel, hturtle⟩ :=
    replayIn_ofIslands hdrawable (spans_dimensions fun p hp => contains_of_mem_tour hp)
  obtain ⟨u, hu, hstrokes', htravel', hturtle'⟩ := replayIn_ofIslands hdrawable (spans_none _)
  have htu : u = t := by
    obtain ⟨turtle, strokes, travel⟩ := u
    obtain ⟨turtle', strokes', travel'⟩ := t
    simp only at hstrokes hstrokes' htravel htravel' hturtle hturtle'
    rw [hturtle', hstrokes', htravel', hturtle, hstrokes, htravel]
  exact ⟨t, ht, htu ▸ hu, hstrokes⟩

/-- Every component has a stroke of its own. -/
theorem exists_components_draws (m : Mask) :
    ∃ Cs : List (Set Pixel), Cs.Nodup ∧ (∀ C, C ∈ Cs ↔ C ∈ m.components) ∧
      List.Forall₂ Draws Cs ((planTour m.islands Pixel.origin).map Island.stroke) := by
  have hperm := m.planTour_islands_perm Pixel.origin
  refine ⟨(planTour m.islands Pixel.origin).map fun i => {q | q ∈ i.pixels}, ?_, fun C => ?_, ?_⟩
  · exact (hperm.map _).nodup_iff.mpr m.nodup_components
  · rw [(hperm.map _).mem_iff, List.mem_map]
    constructor
    · rintro ⟨i, hi, rfl⟩
      exact setOf_mem_components (component_of_mem_islands hi)
    · exact exists_island_of_mem_components
  · rw [List.forall₂_map_left_iff, List.forall₂_map_right_iff, List.forall₂_same]
    exact fun i hi => draws_stroke (component_of_mem_islands (hperm.mem_iff.mp hi)).ne_nil

/-- **The program of a mask draws the mask.**  On the canvas of the mask its replay succeeds and
leaves the same trace as without bounds.  Every inked pixel is inked; the strokes are one for each
component of the inked pixels, which it covers without leaving its bounding box; and no travel
leaves the canvas.  So the program has a picture, whatever is shown besides the strokes. -/
theorem replay_compile (m : Mask) :
    (∃ t, replayWithin m.compile.commands m.compile.dimensions = .ok t ∧
      replay m.compile.commands = .ok t ∧
      (∀ p, m.get p = true → p.point ∈ t.inked) ∧
      (∃ Cs : List (Set Pixel), Cs.Nodup ∧ (∀ C, C ∈ Cs ↔ C ∈ m.components) ∧
        List.Forall₂ Draws Cs t.strokes) ∧
      ∀ leg ∈ t.travel, ∀ q ∈ leg, m.dimensions.Holds q) ∧
      ∀ options, ∃ text, m.compile.svg options = .ok text := by
  obtain ⟨t, ht, hu, hstrokes⟩ := m.exists_replay_compile
  refine ⟨⟨t, ht, hu, ?_, ?_, ?_⟩, ?_⟩
  · intro p hp
    obtain ⟨i, hi, hpi⟩ := exists_island hp
    refine Trace.mem_inked.mpr ⟨i.stroke, ?_, List.mem_map_of_mem (Pixel.mem_route hpi)⟩
    rw [hstrokes]
    exact List.mem_map_of_mem ((m.planTour_islands_perm Pixel.origin).mem_iff.mpr hi)
  · rw [hstrokes]
    exact m.exists_components_draws
  · intro leg hleg
    exact holds_of_replayWithin (holds_point.mpr m.contains_origin) ht (.inr hleg)
  · intro options
    exact ⟨_, by rw [Program.svg, ht]; rfl⟩

end Mask

end PenPlotter
