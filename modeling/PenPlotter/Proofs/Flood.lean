import Mathlib.Data.List.Nodup
import Mathlib.Tactic.Tauto
import PenPlotter.Proofs.Connectivity

/-!
# What a flood collects

A flood blanks the pixels it records, so what remains of the mask and what has been found add up
to the mask it started on.  `Searching m seed s` says of a flood in progress from `seed` on the
mask `m` that this is so, that found and waiting pixels are joined to the seed, and that the
frontier holds every inked pixel next to a found one that has not been found itself.  A turn keeps
this (`Searching.turn`).  At the end the frontier is empty, the found pixels are therefore closed
under adjacency, and so

* `mem_island_flood`: a flood records exactly the pixels joined to its seed;
* `first?_island_flood`: it records the seed first;
* `get_remaining_flood`: it blanks what it records and nothing else.
-/

namespace PenPlotter

namespace Flood

/-- What a turn does to the first waiting pixel: if it is still inked, it is blanked and recorded
and its inked neighbours are put behind the waiting pixels, and otherwise it is dropped. -/
theorem next?_cases {s t : Flood} (h : s.next? = some t) :
    ∃ p rest, s.frontier.toList = p :: rest ∧
      (s.remaining.get p = true ∧ t.remaining = s.remaining.erase p ∧ t.found = p :: s.found ∧
          t.frontier.toList = rest ++ (s.remaining.erase p).inkedNeighbours p ∨
        s.remaining.get p = false ∧ t.remaining = s.remaining ∧ t.found = s.found ∧
          t.frontier.toList = rest) := by
  obtain ⟨⟨p, rest⟩, hp, rfl⟩ := Option.map_eq_some_iff.mp h
  refine ⟨p, rest.toList, Queue.toList_of_pop? hp, ?_⟩
  by_cases hg : s.remaining.get p = true
  · exact .inl (by simp [take, hg])
  · exact .inr (by simp [take, hg])

/-- What every turn keeps holds at the end, and the frontier is empty there. -/
theorem finish_of_invariant {P : Flood → Prop} (hstep : ∀ {s t}, s.next? = some t → P s → P t)
    {s : Flood} (h : P s) : P s.finish ∧ s.finish.frontier.toList = [] := by
  fun_induction finish s with
  | case1 remaining frontier found hp => exact ⟨h, Queue.pop?_eq_none_iff.mp hp⟩
  | case2 remaining frontier found p rest hp ih => exact ih (hstep (by simp [next?, hp]) h)

/-- A flood in progress from `seed` on the mask `m`. -/
structure Searching (m : Mask) (seed : Pixel) (s : Flood) : Prop where
  /-- What remains inked is what has not been found. -/
  remaining : ∀ p, s.remaining.get p = true ↔ m.get p = true ∧ p ∉ s.found
  waiting : ∀ p ∈ s.frontier.toList, m.Joined seed p
  found : ∀ p ∈ s.found, m.Joined seed p
  nodup : s.found.Nodup
  /-- An inked pixel next to a found one has been found or waits. -/
  next : ∀ p ∈ s.found, ∀ q, p.Adjacent q → m.get q = true → q ∈ s.found ∨ q ∈ s.frontier.toList
  /-- The seed is the pixel found first. -/
  seed : s.found = [] ∧ s.frontier.toList = [seed] ∨ s.found.getLast? = some seed

theorem searching_start {m : Mask} {seed : Pixel} (h : m.get seed = true) :
    Searching m seed (start m seed) where
  remaining := by simp [start]
  waiting := by
    intro p hp
    obtain rfl : p = seed := by simpa [start] using hp
    exact .start h
  found := by simp [start]
  nodup := List.nodup_nil
  next := by simp [start]
  seed := .inl ⟨rfl, rfl⟩

/-- The pixel found first stays the first. -/
theorem Searching.seed_cons {m : Mask} {seed p : Pixel} {s : Flood} {rest : List Pixel}
    (hs : Searching m seed s) (hf : s.frontier.toList = p :: rest) :
    (p :: s.found).getLast? = some seed := by
  rcases hs.seed with ⟨hnil, hone⟩ | hlast
  · rw [hf] at hone
    obtain ⟨rfl, -⟩ := List.cons.inj hone
    rw [hnil]
    rfl
  · rw [List.getLast?_cons, hlast]
    rfl

/-- A turn that records a pixel keeps the search going. -/
theorem Searching.record {m : Mask} {seed p : Pixel} {s t : Flood} {rest : List Pixel}
    (hs : Searching m seed s) (hf : s.frontier.toList = p :: rest)
    (hg : s.remaining.get p = true) (hr : t.remaining = s.remaining.erase p)
    (hfound : t.found = p :: s.found)
    (hfront : t.frontier.toList = rest ++ (s.remaining.erase p).inkedNeighbours p) :
    Searching m seed t := by
  obtain ⟨-, hnew⟩ := (hs.remaining p).mp hg
  have hp : m.Joined seed p := hs.waiting p (by simp [hf])
  have hremaining : ∀ q, t.remaining.get q = true ↔ m.get q = true ∧ q ∉ t.found := by
    intro q
    rw [hr, hfound, Mask.get_erase, Bool.and_eq_true, hs.remaining q, decide_eq_true_iff,
      List.mem_cons, not_or]
    tauto
  refine ⟨hremaining, ?_, ?_, ?_, ?_, .inr (hfound ▸ hs.seed_cons hf)⟩
  · intro q hq
    rw [hfront, List.mem_append] at hq
    rcases hq with hq | hq
    · exact hs.waiting q (by simp [hf, hq])
    · obtain ⟨ha, hq⟩ := Mask.mem_inkedNeighbours.mp hq
      rw [← hr, hremaining q] at hq
      exact .step hp ha hq.1
  · intro q hq
    rw [hfound, List.mem_cons] at hq
    rcases hq with rfl | hq
    · exact hp
    · exact hs.found q hq
  · rw [hfound]
    exact List.nodup_cons.mpr ⟨hnew, hs.nodup⟩
  · -- A pixel next to the new one joins the frontier; next to an old one, it waited already.
    intro q hq r ha hr'
    by_cases hrt : r ∈ t.found
    · exact .inl hrt
    refine .inr ?_
    rw [hfront, List.mem_append]
    rw [hfound, List.mem_cons] at hq
    rcases hq with rfl | hq
    · refine .inr (Mask.mem_inkedNeighbours.mpr ⟨ha, ?_⟩)
      rw [← hr]
      exact (hremaining r).mpr ⟨hr', hrt⟩
    · rw [hfound, List.mem_cons, not_or] at hrt
      have hold := (hs.next q hq r ha hr').resolve_left hrt.2
      rw [hf, List.mem_cons] at hold
      exact .inl (hold.resolve_left hrt.1)

/-- A turn that drops a pixel keeps the search going: the pixel had been found before. -/
theorem Searching.drop {m : Mask} {seed p : Pixel} {s t : Flood} {rest : List Pixel}
    (hs : Searching m seed s) (hf : s.frontier.toList = p :: rest)
    (hg : s.remaining.get p = false) (hr : t.remaining = s.remaining)
    (hfound : t.found = s.found) (hfront : t.frontier.toList = rest) : Searching m seed t := by
  have hp : p ∈ s.found := by
    have hmp := (hs.waiting p (by simp [hf])).inked_right
    by_contra hnew
    rw [(hs.remaining p).mpr ⟨hmp, hnew⟩] at hg
    cases hg
  have hlast : s.found.getLast? = some seed :=
    hs.seed.resolve_left fun h => List.not_mem_nil (h.1 ▸ hp)
  refine ⟨?_, ?_, ?_, ?_, ?_, .inr (hfound ▸ hlast)⟩
  · rw [hr, hfound]
    exact hs.remaining
  · intro q hq
    exact hs.waiting q (by rw [hf, ← hfront]; exact List.mem_cons_of_mem p hq)
  · rw [hfound]
    exact hs.found
  · rw [hfound]
    exact hs.nodup
  · intro q hq r ha hr'
    rw [hfound] at hq ⊢
    rcases hs.next q hq r ha hr' with hold | hold
    · exact .inl hold
    · rw [hf, List.mem_cons] at hold
      rcases hold with rfl | hold
      · exact .inl hp
      · exact .inr (hfront ▸ hold)

theorem Searching.turn {m : Mask} {seed : Pixel} {s t : Flood} (hst : s.next? = some t)
    (hs : Searching m seed s) : Searching m seed t := by
  obtain ⟨p, rest, hf, ⟨hg, hr, hfound, hfront⟩ | ⟨hg, hr, hfound, hfront⟩⟩ := next?_cases hst
  · exact hs.record hf hg hr hfound hfront
  · exact hs.drop hf hg hr hfound hfront

/-! ### The end of a flood -/

section Finished

variable {m : Mask} {seed : Pixel}

theorem searching_finish (h : m.get seed = true) :
    Searching m seed (start m seed).finish ∧ (start m seed).finish.frontier.toList = [] :=
  finish_of_invariant Searching.turn (searching_start h)

theorem mem_found_flood (h : m.get seed = true) {p : Pixel} :
    p ∈ (start m seed).finish.found ↔ m.Joined seed p := by
  obtain ⟨hs, hend⟩ := searching_finish h
  -- The seed does not wait any more, so it was found.
  have hseed : seed ∈ (start m seed).finish.found := by
    rcases hs.seed with ⟨-, hwait⟩ | hlast
    · rw [hend] at hwait
      cases hwait
    · exact List.mem_of_getLast? hlast
  refine ⟨hs.found p, fun hp => hp.of_closed (fun q r hq ha hr => ?_) hseed⟩
  have := hs.next q hq r ha hr
  rw [hend] at this
  exact this.resolve_right List.not_mem_nil

/-- **A flood records exactly the pixels joined to its seed.** -/
theorem mem_island_flood (h : m.get seed = true) {p : Pixel} :
    p ∈ (start m seed).finish.island.pixels ↔ m.Joined seed p := by
  rw [island, List.mem_reverse, mem_found_flood h]

theorem nodup_island_flood (h : m.get seed = true) :
    (start m seed).finish.island.pixels.Nodup :=
  List.nodup_reverse.mpr (searching_finish h).1.nodup

theorem first?_island_flood (h : m.get seed = true) :
    (start m seed).finish.island.first? = some seed := by
  obtain ⟨hs, hend⟩ := searching_finish h
  rw [island, Island.first?, List.head?_reverse]
  rcases hs.seed with ⟨-, hwait⟩ | hlast
  · rw [hend] at hwait
    cases hwait
  · exact hlast

theorem get_remaining_flood (h : m.get seed = true) {p : Pixel} :
    (start m seed).finish.remaining.get p = true ↔ m.get p = true ∧ ¬ m.Joined seed p := by
  rw [(searching_finish h).1.remaining p, mem_found_flood h]

end Finished

end Flood

end PenPlotter
