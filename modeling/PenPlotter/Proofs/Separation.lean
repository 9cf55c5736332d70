import Mathlib.Data.Set.Operations
import PenPlotter.Proofs.MaskDrawing

/-!
# Islands are extracted independently

Two floods run in *lockstep* within a set of pixels when the second mask is the first one cut down to
the set, and the set holds with a pixel of the first mask all its inked neighbours
(`Flood.Lockstep`).  They then take the same turns: the frontiers hold the same pixels in the same
order, and the same pixels are recorded.

A component that is blanked leaves such a set behind, its complement.  The scan of the mask without
the component finds therefore the islands that the scan of the whole mask finds, and no others, but
for the one that the component makes (`Extraction.Apart`).

**Main statement** (`islands_without`): a mask without one of its components has its other islands,
unchanged and in the same order.
-/

namespace PenPlotter

namespace Flood

/-- Two floods that take the same turns within a set of pixels. -/
structure Lockstep (S : Set Pixel) (s s' : Flood) : Prop where
  remaining : ∀ p, s'.remaining.get p = true ↔ s.remaining.get p = true ∧ p ∈ S
  closed : ∀ p q, s.remaining.get p = true → s.remaining.get q = true → p.Adjacent q →
    p ∈ S → q ∈ S
  waiting : ∀ p ∈ s.frontier.toList, p ∈ S
  frontier : s'.frontier.toList = s.frontier.toList
  found : s'.found = s.found

variable {S : Set Pixel} {s s' t : Flood}

/-- In lockstep a pixel has the same neighbours. -/
theorem inkedNeighbours_eq {m m' : Mask} {p : Pixel}
    (hm : ∀ q, p.Adjacent q → (m'.get q = true ↔ m.get q = true)) :
    m'.inkedNeighbours p = m.inkedNeighbours p := by
  refine List.filter_congr fun q hq => Bool.eq_iff_iff.mpr (hm q ?_)
  obtain ⟨h, -, hstep⟩ := List.mem_filterMap.mp hq
  exact Pixel.adjacent_iff_step?.mpr ⟨h, hstep⟩

/-- Two floods that both record a pixel of the set stay in lockstep, since its inked neighbours are
in the set. -/
theorem Lockstep.record {t' : Flood} {p : Pixel} {rest : List Pixel} (h : Lockstep S s s')
    (hf : s.frontier.toList = p :: rest) (hg : s.remaining.get p = true)
    (hr : t.remaining = s.remaining.erase p) (hr' : t'.remaining = s'.remaining.erase p)
    (hfound : t.found = p :: s.found) (hfound' : t'.found = p :: s'.found)
    (hfront : t.frontier.toList = rest ++ (s.remaining.erase p).inkedNeighbours p)
    (hfront' : t'.frontier.toList = rest ++ (s'.remaining.erase p).inkedNeighbours p) :
    Lockstep S t t' := by
  obtain ⟨hp, hrest⟩ := List.forall_mem_cons.mp (hf ▸ h.waiting)
  have hadj : ∀ q, p.Adjacent q → (s.remaining.erase p).get q = true → q ∈ S := by
    intro q hpq hq
    rw [Mask.get_erase, Bool.and_eq_true] at hq
    exact h.closed p q hg hq.1 hpq hp
  have hremaining : ∀ q, (s'.remaining.erase p).get q = true ↔
      (s.remaining.erase p).get q = true ∧ q ∈ S := by
    intro q
    rw [Mask.get_erase, Mask.get_erase, Bool.and_eq_true, Bool.and_eq_true, h.remaining q]
    exact and_right_comm
  refine ⟨?_, ?_, ?_, ?_, ?_⟩
  · rw [hr, hr']
    exact hremaining
  · intro a b ha hb
    rw [hr, Mask.get_erase, Bool.and_eq_true] at ha hb
    exact h.closed a b ha.1 hb.1
  · rw [hfront]
    refine List.forall_mem_append.mpr ⟨hrest, fun q hq => ?_⟩
    obtain ⟨hpq, hq⟩ := Mask.mem_inkedNeighbours.mp hq
    exact hadj q hpq hq
  · rw [hfront, hfront']
    refine congrArg (rest ++ ·) (inkedNeighbours_eq fun q hpq => ?_)
    rw [hremaining q]
    exact ⟨fun hq => hq.1, fun hq => ⟨hq, hadj q hpq hq⟩⟩
  · rw [hfound, hfound', h.found]

/-- Two floods that both drop a pixel stay in lockstep. -/
theorem Lockstep.drop {t' : Flood} {p : Pixel} {rest : List Pixel} (h : Lockstep S s s')
    (hf : s.frontier.toList = p :: rest) (hr : t.remaining = s.remaining)
    (hr' : t'.remaining = s'.remaining) (hfound : t.found = s.found) (hfound' : t'.found = s'.found)
    (hfront : t.frontier.toList = rest) (hfront' : t'.frontier.toList = rest) :
    Lockstep S t t' where
  remaining := by
    rw [hr, hr']
    exact h.remaining
  closed := by
    rw [hr]
    exact h.closed
  waiting := by
    rw [hfront]
    exact (List.forall_mem_cons.mp (hf ▸ h.waiting)).2
  frontier := by rw [hfront, hfront']
  found := by rw [hfound, hfound', h.found]

/-- **A turn keeps two floods in lockstep.** -/
theorem Lockstep.turn (h : Lockstep S s s') (ht : s.next? = some t) :
    ∃ t', s'.next? = some t' ∧ Lockstep S t t' := by
  obtain ⟨p, rest, hf, hturn⟩ := next?_cases ht
  have hp : p ∈ S := h.waiting p (by rw [hf]; exact List.mem_cons_self)
  obtain ⟨t', ht'⟩ : ∃ t', s'.next? = some t' := by
    cases hn : s'.next? with
    | some t' => exact ⟨t', rfl⟩
    | none =>
        rw [next?_eq_none_iff, h.frontier, hf] at hn
        cases hn
  refine ⟨t', ht', ?_⟩
  obtain ⟨p', rest', hf', hturn'⟩ := next?_cases ht'
  rw [h.frontier, hf] at hf'
  obtain ⟨rfl, rfl⟩ := List.cons.inj hf'
  -- What one flood does with the pixel the other does too, since the pixel is in the set.
  have hget : s'.remaining.get p = s.remaining.get p :=
    Bool.eq_iff_iff.mpr ((h.remaining p).trans (and_iff_left hp))
  rcases hturn with ⟨hg, hr, hfound, hfront⟩ | ⟨hg, hr, hfound, hfront⟩ <;>
    rcases hturn' with ⟨hg', hr', hfound', hfront'⟩ | ⟨hg', hr', hfound', hfront'⟩ <;>
    rw [hget, hg] at hg'
  · exact h.record hf hg hr hr' hfound hfound' hfront hfront'
  · cases hg'
  · cases hg'
  · exact h.drop hf hr hr' hfound hfound' hfront hfront'

theorem Lockstep.finish (h : Lockstep S s s') : Lockstep S s.finish s'.finish := by
  fun_induction Flood.finish s generalizing s' with
  | case1 remaining frontier found hp =>
      have hnone : s'.next? = none := by
        rw [next?_eq_none_iff, h.frontier, ← Queue.pop?_eq_none_iff]
        exact hp
      rw [finish_of_none hnone]
      exact h
  | case2 remaining frontier found p rest hp ih =>
      obtain ⟨t', ht', hlock⟩ := h.turn (t := take remaining rest found p) (by simp [next?, hp])
      rw [finish_of_some ht']
      exact ih hlock

theorem lockstep_start {m m' : Mask} {seed : Pixel}
    (hm : ∀ p, m'.get p = true ↔ m.get p = true ∧ p ∈ S)
    (hclosed : ∀ p q, m.get p = true → m.get q = true → p.Adjacent q → p ∈ S → q ∈ S)
    (hseed : seed ∈ S) : Lockstep S (start m seed) (start m' seed) where
  remaining := hm
  closed := hclosed
  waiting := by
    intro p hp
    obtain rfl : p = seed := by simpa [start] using hp
    exact hseed
  frontier := rfl
  found := rfl

end Flood

/-- The mask `m'` is `m` with the pixels of `C` blanked. -/
structure Mask.Without (m : Mask) (C : Set Pixel) (m' : Mask) : Prop where
  width : m'.width = m.width
  height : m'.height = m.height
  get : ∀ p, m'.get p = true ↔ m.get p = true ∧ p ∉ C

/-- The mask with pixels blanked. -/
def Mask.eraseAll (m : Mask) (ps : List Pixel) : Mask := ps.foldl erase m

theorem Mask.without_eraseAll (m : Mask) (ps : List Pixel) :
    m.Without {p | p ∈ ps} (m.eraseAll ps) := by
  induction ps generalizing m with
  | nil => exact ⟨rfl, rfl, fun p => by simp [eraseAll]⟩
  | cons q ps ih =>
      obtain ⟨hw, hh, hg⟩ := ih (m.erase q)
      refine ⟨hw.trans (m.sides_erase q).1, hh.trans (m.sides_erase q).2, fun p => ?_⟩
      refine (hg p).trans ?_
      rw [get_erase, Bool.and_eq_true, decide_eq_true_iff]
      simp only [Set.mem_ofPred_eq, List.mem_cons, not_or, and_assoc]

namespace Extraction

theorem visit_of_get {s : Extraction} {p : Pixel} (h : s.remaining.get p = true) :
    s.visit p = ⟨(Flood.start s.remaining p).finish.remaining,
      (Flood.start s.remaining p).finish.island :: s.islands⟩ :=
  if_pos h

theorem visit_of_blank {s : Extraction} {p : Pixel} (h : ¬ s.remaining.get p = true) :
    s.visit p = s :=
  if_neg h

/-- A visit inks no pixel. -/
theorem get_of_visit {s : Extraction} {p q : Pixel} (h : (s.visit p).remaining.get q = true) :
    s.remaining.get q = true := by
  by_cases hp : s.remaining.get p = true
  · rw [visit_of_get hp] at h
    exact ((Flood.get_remaining_flood hp).mp h).1
  · rwa [visit_of_blank hp] at h

/-- Two scans, of which the second does not see the component of `c`. -/
structure Apart (m : Mask) (c : Pixel) (s s' : Extraction) : Prop where
  remaining : ∀ p, s'.remaining.get p = true ↔ s.remaining.get p = true ∧ ¬ m.Joined c p
  islands : s'.islands = s.islands.filter fun i => c ∉ i.pixels

variable {m : Mask} {c p : Pixel} {seen : List Pixel} {s s' : Extraction}

/-- The second scan passes over the component. -/
theorem Apart.pass (h : Apart m c s s') (hs : Scanning m seen s) (hp : s.remaining.get p = true)
    (hcp : m.Joined c p) : Apart m c (s.visit p) (s'.visit p) := by
  have hblank : ¬ s'.remaining.get p = true := fun hp' => ((h.remaining p).mp hp').2 hcp
  rw [visit_of_get hp, visit_of_blank hblank]
  refine ⟨fun q => ?_, ?_⟩
  · have hpq : m.Joined p q ↔ m.Joined c q := ⟨hcp.trans, hcp.symm.trans⟩
    rw [h.remaining q, Flood.get_remaining_flood hp, hs.joined_iff hp, hpq, and_assoc, and_self]
  · have hmem : c ∈ (Flood.start s.remaining p).finish.island.pixels := by
      rw [Flood.mem_island_flood hp, hs.joined_iff hp]
      exact hcp.symm
    rw [h.islands, List.filter_cons_of_neg (by simpa using hmem)]

/-- Elsewhere both scans find the same island. -/
theorem Apart.meet (h : Apart m c s s') (hs : Scanning m seen s) (hp : s.remaining.get p = true)
    (hcp : ¬ m.Joined c p) : Apart m c (s.visit p) (s'.visit p) := by
  have hp' : s'.remaining.get p = true := (h.remaining p).mpr ⟨hp, hcp⟩
  have hlock : Flood.Lockstep {q | ¬ m.Joined c q} (Flood.start s.remaining p).finish
      (Flood.start s'.remaining p).finish := by
    refine (Flood.lockstep_start h.remaining ?_ hcp).finish
    intro a b ha hb hab hca hcb
    exact hca (.step hcb hab.symm ((hs.remaining a).mp ha).1)
  rw [visit_of_get hp, visit_of_get hp']
  refine ⟨hlock.remaining, ?_⟩
  have hmem : c ∉ (Flood.start s.remaining p).finish.island.pixels := by
    rw [Flood.mem_island_flood hp, hs.joined_iff hp]
    exact fun hpc => hcp hpc.symm
  have hisland : (Flood.start s'.remaining p).finish.island =
      (Flood.start s.remaining p).finish.island := by
    rw [Flood.island, Flood.island, hlock.found]
  rw [h.islands, hisland, List.filter_cons_of_pos (by simpa using hmem)]

/-- **A visit keeps two scans apart by the component only.** -/
theorem Apart.visit (h : Apart m c s s') (hs : Scanning m seen s) :
    Apart m c (s.visit p) (s'.visit p) := by
  by_cases hp : s.remaining.get p = true
  · by_cases hcp : m.Joined c p
    · exact h.pass hs hp hcp
    · exact h.meet hs hp hcp
  · have hp' : ¬ s'.remaining.get p = true := fun hp' => hp ((h.remaining p).mp hp').1
    rw [visit_of_blank hp, visit_of_blank hp']
    exact h

theorem Apart.foldl {rest : List Pixel} (h : Apart m c s s') (hs : Scanning m seen s)
    (hscan : m.pixels = seen ++ rest) :
    Apart m c (rest.foldl Extraction.visit s) (rest.foldl Extraction.visit s') := by
  induction rest generalizing seen s s' with
  | nil => exact h
  | cons p rest ih =>
      exact ih (h.visit hs) (hs.visit hscan) (by rw [hscan, List.append_assoc]; rfl)

end Extraction

namespace Mask

/-- Without a component the scan finds the islands that do not draw it. -/
theorem islands_eq_filter {m m' : Mask} {c : Pixel} (h : m.Without {q | m.Joined c q} m') :
    m'.islands = m.islands.filter fun i => c ∉ i.pixels := by
  have hpixels : m'.pixels = m.pixels := by rw [pixels, pixels, h.width, h.height]
  have hstart : Extraction.Apart m c (.start m) (.start m') := ⟨h.get, rfl⟩
  have hend := hstart.foldl (Extraction.scanning_start m) (List.nil_append m.pixels).symm
  rw [islands, islands, hpixels, hend.islands, List.filter_reverse]

/-- **The islands of a mask are extracted independently.**  A component of the inked pixels is drawn
by one island; a mask with the same sides, in which the pixels of the component are blank and all
others as they were, has the other islands, unchanged and in the same order.  There is such a
mask. -/
theorem islands_without {m : Mask} {C : Set Pixel} (hC : C ∈ m.components) :
    ∃ before i after, m.islands = before ++ i :: after ∧ {p | p ∈ i.pixels} = C ∧
      m.Without C (m.eraseAll i.pixels) ∧
      ∀ m', m.Without C m' → m'.islands = before ++ after := by
  obtain ⟨i, hi, rfl⟩ := exists_island_of_mem_components hC
  obtain ⟨before, after, hsplit⟩ := List.append_of_mem hi
  have hcomp := component_of_mem_islands hi
  obtain ⟨c, hc, -⟩ := hcomp.first
  have hmem : c ∈ i.pixels := Island.mem_of_first? hc
  have hC' : {p | p ∈ i.pixels} = {q | m.Joined c q} := Set.ext fun q => hcomp.joined c hmem q
  refine ⟨before, i, after, hsplit, rfl, m.without_eraseAll i.pixels, fun m' hm' => ?_⟩
  -- No other island draws the pixel `c`, since islands are disjoint.
  have hdisjoint := m.islands_pairwise_disjoint
  rw [hsplit, List.pairwise_append, List.pairwise_cons] at hdisjoint
  obtain ⟨-, ⟨hafter, -⟩, hbefore⟩ := hdisjoint
  rw [hC'] at hm'
  rw [islands_eq_filter hm', hsplit, List.filter_append,
    List.filter_cons_of_neg (by simpa using hmem), List.filter_eq_self.mpr,
    List.filter_eq_self.mpr]
  · intro j hj
    simpa using fun hcj => hafter j hj hmem hcj
  · intro j hj
    simpa using fun hcj => hbefore j hj i List.mem_cons_self hcj hmem

/-- A ring and a pixel inside that does not touch it. -/
def ringed : Mask where
  width := 5
  height := 5
  cells := #[
    true, true, true, true, true,
    true, false, false, false, true,
    true, false, true, false, true,
    true, false, false, false, true,
    true, true, true, true, true]
  width_ne := by decide
  height_ne := by decide
  size_cells := rfl

theorem islands_without_ring :
    {q | ringed.Joined ⟨0, 0⟩ q} ∈ ringed.components ∧
      ∃ before i after, ringed.islands = before ++ i :: after ∧
        {p | p ∈ i.pixels} = {q | ringed.Joined ⟨0, 0⟩ q} ∧
        ringed.Without {q | ringed.Joined ⟨0, 0⟩ q} (ringed.eraseAll i.pixels) ∧
        ∀ m', ringed.Without {q | ringed.Joined ⟨0, 0⟩ q} m' → m'.islands = before ++ after := by
  have hring : {q | ringed.Joined ⟨0, 0⟩ q} ∈ ringed.components := ⟨⟨0, 0⟩, by decide, rfl⟩
  exact ⟨hring, islands_without hring⟩

end Mask

end PenPlotter
