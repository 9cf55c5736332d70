import Mathlib.Data.Finset.Sym
import PenPlotter.Proofs.Search

/-!
# How many turns a flood takes

A turn that takes the pixel `p` from the frontier *offers* the pixels that it puts there, each as a
pair `(p, q)`.  `s.Run n offers t` holds when `n` turns lead from the flood `s` to the flood `t` and
offer the pairs of the list.

The frontier may grow while pixels are dropped, so neither its length nor the number of inked pixels
counts the turns.  The offers do: a turn takes one pixel, and a pixel in the frontier is the seed or
was offered (`Flood.Run.turns_add_waiting`).  A pixel that is recorded offers its neighbours that
are inked still, which are those that come later in the island (`Mask.offers_eq_forward`); a pixel
that is dropped offers none.  Every edge of an island is therefore offered once, by the end that is
recorded first (`Pixel.length_forward`).

`m.floods` are the floods that the scan of `m` starts.  Since a flood leaves its frontier empty, the
next one goes on with that frontier as it does with the mask (`Flood.GoesOn`).

**Main statement** (`Mask.floods_turns`): a flood of the scan takes one turn more than its island
has edges; its seed is enqueued once, and every other pixel once by each neighbour before it.
-/

namespace PenPlotter

namespace Pixel

/-! ### Pairs of adjacent pixels -/

instance symm_adjacent : Std.Symm Adjacent := ⟨fun _ _ h => h.symm⟩

/-- Each pixel with those of its neighbours that come later. -/
def forward : List Pixel → List (Pixel × Pixel)
  | [] => []
  | p :: after => (p.neighbours.filter (· ∈ after)).map (p, ·) ++ forward after

theorem snd_mem_of_mem_forward {ps : List Pixel} {e : Pixel × Pixel} (he : e ∈ forward ps) :
    e.2 ∈ ps.tail := by
  induction ps with
  | nil => cases he
  | cons p after ih =>
      rcases List.mem_append.mp he with hp | hafter
      · obtain ⟨q, hq, rfl⟩ := List.mem_map.mp hp
        simpa using (List.mem_filter.mp hq).2
      · exact List.mem_of_mem_tail (ih hafter)

/-- A pixel is paired with a later one if they are adjacent. -/
theorem filter_forward_head {p q : Pixel} {after : List Pixel} (hq : q ∈ after) :
    ((p.neighbours.filter (· ∈ after)).map (p, ·)).filter (·.2 = q) =
      if p.Adjacent q then [(p, q)] else [] := by
  have hone : (p.neighbours.filter (· ∈ after)).filter (· = q) =
      if p.Adjacent q then [q] else [] := by
    rw [List.filter_eq, (p.nodup_neighbours.filter _).count]
    simp only [List.mem_filter, mem_neighbours, hq, decide_true, and_true]
    split <;> rfl
  rw [List.filter_map]
  refine (congrArg (List.map (p, ·)) hone).trans ?_
  split <;> rfl

/-- **A pixel is paired with the neighbours that precede it.** -/
theorem filter_forward {before after : List Pixel} {p : Pixel}
    (hnodup : (before ++ p :: after).Nodup) :
    ((forward (before ++ p :: after)).filter (·.2 = p)).map Prod.fst =
      before.filter (·.Adjacent p) := by
  induction before with
  | nil =>
      have hp : p ∉ after := (List.nodup_cons.mp hnodup).1
      rw [List.nil_append, List.filter_eq_nil_iff.mpr]
      · rfl
      · intro e he
        simpa using fun h : e.2 = p => hp (h ▸ snd_mem_of_mem_forward he)
  | cons q before ih =>
      rw [List.cons_append, forward, List.filter_append, List.map_append,
        filter_forward_head (by simp), ih (List.nodup_cons.mp hnodup).2, List.filter_cons]
      by_cases hqp : q.Adjacent p
      · simp [hqp]
      · simp [hqp]

theorem count_forward {before after : List Pixel} {p : Pixel}
    (hnodup : (before ++ p :: after).Nodup) :
    ((forward (before ++ p :: after)).map Prod.snd).count p = before.countP (·.Adjacent p) := by
  have hlength := congrArg List.length (filter_forward hnodup)
  rw [List.length_map, ← List.countP_eq_length_filter, ← List.countP_eq_length_filter] at hlength
  rw [← hlength, List.count, List.countP_map]
  rfl

section FromSeed

variable {seed : Pixel} {rest : List Pixel}

theorem mem_of_mem_cons_forward {p : Pixel}
    (h : p ∈ seed :: (forward (seed :: rest)).map Prod.snd) : p ∈ seed :: rest := by
  rcases List.mem_cons.mp h with rfl | h
  · exact List.mem_cons_self
  · obtain ⟨e, he, rfl⟩ := List.mem_map.mp h
    exact List.mem_cons_of_mem seed (snd_mem_of_mem_forward he)

variable (hnodup : (seed :: rest).Nodup)

include hnodup

/-- The first pixel is paired with none before it. -/
theorem count_cons_forward_self :
    (seed :: (forward (seed :: rest)).map Prod.snd).count seed = 1 := by
  have hnone : ((forward ([] ++ seed :: rest)).map Prod.snd).count seed = 0 :=
    count_forward hnodup
  rw [List.count_cons_self, ← List.nil_append (seed :: rest), hnone]

theorem count_cons_forward {before after : List Pixel} {p : Pixel}
    (he : seed :: rest = before ++ p :: after) (hne : before ≠ []) :
    (seed :: (forward (seed :: rest)).map Prod.snd).count p = before.countP (·.Adjacent p) := by
  have hp : p ≠ seed := by
    obtain ⟨q, before, rfl⟩ := List.exists_cons_of_ne_nil hne
    obtain ⟨rfl, rfl⟩ := List.cons.inj he
    rintro rfl
    exact (List.nodup_cons.mp hnodup).1 (by simp)
  rw [List.count_cons_of_ne hp.symm, he]
  exact count_forward (he ▸ hnodup)

end FromSeed

/-- A pixel has as many neighbours in a list without repetitions as pixels of the list are adjacent
to it. -/
theorem length_filter_neighbours {p : Pixel} {ps : List Pixel} (h : ps.Nodup) :
    (p.neighbours.filter (· ∈ ps)).length = ps.countP (p.Adjacent ·) := by
  rw [List.countP_eq_length_filter]
  refine List.Perm.length_eq
    ((List.perm_ext_iff_of_nodup (p.nodup_neighbours.filter _) (h.filter _)).mpr fun q => ?_)
  simp only [List.mem_filter, mem_neighbours, decide_eq_true_iff, and_comm]

/-- Two adjacent pixels are paired once, whichever comes first. -/
theorem length_forward {ps : List Pixel} (h : ps.Nodup) :
    (forward ps).length = ps.sym2.countP (· ∈ Sym2.fromRel symm_adjacent) := by
  induction ps with
  | nil => rfl
  | cons p after ih =>
      obtain ⟨-, hafter⟩ := List.nodup_cons.mp h
      have hself : ¬ p.Adjacent p := fun hp => hp.ne rfl
      rw [forward, List.length_append, List.length_map, length_filter_neighbours hafter, ih hafter,
        List.sym2, List.countP_append, List.countP_map, List.countP_cons_of_neg]
      · rfl
      · simpa using hself

end Pixel

namespace Island

/-- The unordered pairs of adjacent pixels of an island. -/
def edges (i : Island) : Finset (Sym2 Pixel) :=
  i.pixels.toFinset.sym2.filter (· ∈ Sym2.fromRel Pixel.symm_adjacent)

theorem card_edges {i : Island} (h : i.pixels.Nodup) :
    i.edges.card = (Pixel.forward i.pixels).length := by
  rw [Pixel.length_forward h, edges, ← List.toFinset_eq h, Finset.card, Finset.filter_val,
    Finset.sym2_val, Multiset.sym2_coe, ← Multiset.countP_eq_card_filter, Multiset.coe_countP]

end Island

namespace Mask

/-! ### What recorded pixels offer -/

/-- What a flood of the mask offers when it records the pixels of a list, one after the other. -/
def offers (m : Mask) : List Pixel → List (Pixel × Pixel)
  | [] => []
  | p :: ps => ((m.erase p).inkedNeighbours p).map (p, ·) ++ (m.erase p).offers ps

/-- If the inked neighbours of the pixels of a list are in the list, a pixel offers those that come
later. -/
theorem offers_eq_forward {m : Mask} {ps : List Pixel} (hnodup : ps.Nodup)
    (hm : ∀ p ∈ ps, ∀ q, p.Adjacent q → (m.get q = true ↔ q ∈ ps)) :
    m.offers ps = Pixel.forward ps := by
  induction ps generalizing m with
  | nil => rfl
  | cons p ps ih =>
      obtain ⟨hp, hps⟩ := List.nodup_cons.mp hnodup
      obtain ⟨hhead, htail⟩ := List.forall_mem_cons.mp hm
      have hnew : (m.erase p).inkedNeighbours p = p.neighbours.filter (· ∈ ps) := by
        rw [Pixel.inkedNeighbours_eq_filter]
        refine List.filter_congr fun q hq => Bool.eq_iff_iff.mpr ?_
        have hpq := Pixel.mem_neighbours.mp hq
        have hne := hpq.ne
        rw [get_erase, Bool.and_eq_true, hhead q hpq, List.mem_cons, decide_eq_true_iff,
          decide_eq_true_iff]
        grind
      -- Without `p`, the mask and the rest of the list are as the two were before.
      have hrest : ∀ a ∈ ps, ∀ q, a.Adjacent q → ((m.erase p).get q = true ↔ q ∈ ps) := by
        intro a ha q haq
        rw [get_erase, Bool.and_eq_true, htail a ha q haq, List.mem_cons, decide_eq_true_iff]
        grind
      rw [offers, Pixel.forward, hnew, ih hps hrest]

end Mask

namespace Flood

/-! ### Turns and offers -/

/-- So many turns lead from one flood to another.  The list holds, in the order of the turns, a pair
`(p, q)` whenever the turn that took `p` put `q` into the frontier. -/
inductive Run : Flood → Nat → List (Pixel × Pixel) → Flood → Prop where
  | done (s : Flood) : Run s 0 [] s
  | turn {s t u : Flood} {p : Pixel} {rest new : List Pixel} {n : Nat}
      {offers : List (Pixel × Pixel)} :
      s.next? = some t → s.frontier.toList = p :: rest → t.frontier.toList = rest ++ new →
        Run t n offers u → Run s (n + 1) (new.map (p, ·) ++ offers) u

variable {s t : Flood} {n : Nat} {offers : List (Pixel × Pixel)}

/-- The turns of a flood lead to its end. -/
theorem exists_run (s : Flood) : ∃ n offers, s.Run n offers s.finish := by
  fun_induction finish s with
  | case1 remaining frontier found hp => exact ⟨0, [], .done _⟩
  | case2 remaining frontier found p rest hp ih =>
      obtain ⟨n, offers, hrun⟩ := ih
      have hturn : (⟨remaining, frontier, found⟩ : Flood).next? =
          some (take remaining rest found p) := by simp [next?, hp]
      obtain ⟨q, waiting, hf, ⟨-, -, -, hfront⟩ | ⟨-, -, -, hfront⟩⟩ := next?_cases hturn
      · exact ⟨_, _, .turn hturn hf hfront hrun⟩
      · exact ⟨_, _, .turn hturn hf (hfront.trans (List.append_nil _).symm) hrun⟩

/-- **A turn takes one pixel**, which waited at the start or was offered. -/
theorem Run.turns_add_waiting (h : s.Run n offers t) :
    n + t.frontier.toList.length = s.frontier.toList.length + offers.length := by
  induction h with
  | done s => simp
  | turn hst hf hfront hrun ih =>
      rw [hfront] at ih
      simp only [hf, List.length_append, List.length_cons, List.length_map] at ih ⊢
      omega

/-- Only pixels that are recorded offer others. -/
theorem Run.offers_eq (h : s.Run n offers t) :
    ∃ ps, t.found = ps.reverse ++ s.found ∧ offers = s.remaining.offers ps := by
  induction h with
  | done s => exact ⟨[], rfl, rfl⟩
  | @turn s t u p rest new n offers hst hf hfront hrun ih =>
      obtain ⟨ps, hfound, rfl⟩ := ih
      obtain ⟨q, waiting, hf', hturn⟩ := next?_cases hst
      obtain ⟨rfl, rfl⟩ := List.cons.inj (hf.symm.trans hf')
      rcases hturn with ⟨-, hr, hfound', hfront'⟩ | ⟨-, hr, hfound', hfront'⟩
      · have hnew : new = (s.remaining.erase p).inkedNeighbours p :=
          List.append_cancel_left (hfront.symm.trans hfront')
        refine ⟨p :: ps, ?_, by rw [Mask.offers, hr, hnew]⟩
        rw [hfound, hfound', List.reverse_cons, List.append_assoc]
        rfl
      · have hnew : new = [] := List.append_right_eq_self.mp (hfront.symm.trans hfront')
        refine ⟨ps, by rw [hfound, hfound'], ?_⟩
        rw [hr, hnew]
        rfl

/-! ### The run of a flood from its seed -/

section FromSeed

variable {m : Mask} {seed : Pixel} (h : m.get seed = true)

include h

theorem offers_of_run_start (hrun : (start m seed).Run n offers (start m seed).finish) :
    offers = Pixel.forward (start m seed).finish.island.pixels := by
  obtain ⟨ps, hfound, rfl⟩ := hrun.offers_eq
  have hps : ps = (start m seed).finish.island.pixels := by
    rw [island, hfound, List.reverse_append, List.reverse_reverse]
    rfl
  rw [hps]
  refine Mask.offers_eq_forward (nodup_island_flood h) fun p hp q hpq => ?_
  -- The island is a component of the mask, so it holds the inked neighbours of its pixels.
  have hjoined := (mem_island_flood h).mp hp
  rw [mem_island_flood h]
  exact ⟨fun hq => .step hjoined hpq hq, fun hq => hq.inked_right⟩

theorem turns_of_run_start (hrun : (start m seed).Run n offers (start m seed).finish) :
    n = 1 + (start m seed).finish.island.edges.card := by
  have hcount := hrun.turns_add_waiting
  rw [(searching_finish h).2, offers_of_run_start h hrun,
    ← Island.card_edges (nodup_island_flood h)] at hcount
  exact hcount

/-- **A flood offers every edge of its island once**, from the pixel that is recorded first, and
takes a turn for each of them and one for its seed. -/
theorem run_start_iff :
    (start m seed).Run n offers (start m seed).finish ↔
      n = 1 + (start m seed).finish.island.edges.card ∧
        offers = Pixel.forward (start m seed).finish.island.pixels := by
  constructor
  · exact fun hrun => ⟨turns_of_run_start h hrun, offers_of_run_start h hrun⟩
  · rintro ⟨rfl, rfl⟩
    obtain ⟨n, offers, hrun⟩ := exists_run (start m seed)
    rw [← turns_of_run_start h hrun, ← offers_of_run_start h hrun]
    exact hrun

end FromSeed

/-- The flood `t` goes on with the mask and the frontier that `s` leaves, its seed put behind. -/
def GoesOn (s t : Flood) : Prop :=
  t.remaining = s.finish.remaining ∧
    ∃ seed, t.frontier.toList = s.finish.frontier.toList ++ [seed]

theorem goesOn_start {s : Flood} (h : s.finish.frontier.toList = []) (seed : Pixel) :
    s.GoesOn (start s.finish.remaining seed) :=
  ⟨rfl, seed, by rw [h]; rfl⟩

end Flood

namespace Extraction

/-! ### The floods of a scan -/

/-- The floods that a scan starts at the pixels of a list, in order. -/
def floodsAt (s : Extraction) : List Pixel → List Flood
  | [] => []
  | p :: ps =>
    (if s.remaining.get p then [Flood.start s.remaining p] else []) ++ (s.visit p).floodsAt ps

variable {s : Extraction} {p : Pixel} {ps : List Pixel} {t : Flood}

theorem floodsAt_of_get (h : s.remaining.get p = true) :
    s.floodsAt (p :: ps) = Flood.start s.remaining p :: (s.visit p).floodsAt ps := by
  rw [floodsAt, if_pos h]
  rfl

theorem floodsAt_of_blank (h : ¬ s.remaining.get p = true) :
    s.floodsAt (p :: ps) = s.floodsAt ps := by
  rw [floodsAt, if_neg h, visit_of_blank h]
  rfl

/-- The floods collect the islands. -/
theorem islands_foldl (s : Extraction) (ps : List Pixel) :
    (ps.foldl visit s).islands =
      ((s.floodsAt ps).map fun t => t.finish.island).reverse ++ s.islands := by
  induction ps generalizing s with
  | nil => rfl
  | cons p ps ih =>
      rw [List.foldl_cons, ih]
      by_cases hp : s.remaining.get p = true
      · rw [floodsAt_of_get hp, visit_of_get hp, List.map_cons, List.reverse_cons,
          List.append_assoc]
        rfl
      · rw [floodsAt_of_blank hp, visit_of_blank hp]

/-- A flood starts at an inked pixel of what remains. -/
theorem exists_start_of_mem_floodsAt (h : t ∈ s.floodsAt ps) :
    ∃ m seed, m.get seed = true ∧ (∀ q, m.get q = true → s.remaining.get q = true) ∧
      t = Flood.start m seed := by
  induction ps generalizing s with
  | nil => cases h
  | cons p ps ih =>
      by_cases hp : s.remaining.get p = true
      · rw [floodsAt_of_get hp, List.mem_cons] at h
        rcases h with rfl | h
        · exact ⟨s.remaining, p, hp, fun q hq => hq, rfl⟩
        · obtain ⟨m, seed, hseed, hm, rfl⟩ := ih h
          exact ⟨m, seed, hseed, fun q hq => get_of_visit (hm q hq), rfl⟩
      · rw [floodsAt_of_blank hp] at h
        exact ih h

/-- The first flood starts on what remains. -/
theorem exists_start_of_head?_floodsAt (h : t ∈ (s.floodsAt ps).head?) :
    ∃ seed, t = Flood.start s.remaining seed := by
  induction ps with
  | nil => cases h
  | cons p ps ih =>
      by_cases hp : s.remaining.get p = true
      · rw [floodsAt_of_get hp] at h
        cases h
        exact ⟨p, rfl⟩
      · rw [floodsAt_of_blank hp] at h
        exact ih h

/-- A flood ends with an empty frontier, so the next one may go on with it. -/
theorem isChain_floodsAt (s : Extraction) (ps : List Pixel) :
    (s.floodsAt ps).IsChain Flood.GoesOn := by
  induction ps generalizing s with
  | nil => exact .nil
  | cons p ps ih =>
      by_cases hp : s.remaining.get p = true
      · rw [floodsAt_of_get hp, List.isChain_cons]
        refine ⟨fun t ht => ?_, ih (s.visit p)⟩
        obtain ⟨seed, rfl⟩ := exists_start_of_head?_floodsAt ht
        rw [visit_of_get hp]
        exact Flood.goesOn_start (Flood.searching_finish hp).2 seed
      · rw [floodsAt_of_blank hp]
        exact ih s

end Extraction

namespace Mask

/-- The floods that the scan of a mask starts, in order. -/
def floods (m : Mask) : List Flood := (Extraction.start m).floodsAt m.pixels

theorem islands_eq_map_floods (m : Mask) : m.islands = m.floods.map fun s => s.finish.island := by
  rw [islands, Extraction.islands_foldl, Extraction.start, List.append_nil, List.reverse_reverse]
  rfl

/-- **What the floods of a scan enqueue.**  The islands of a mask are what the floods of its scan
collect, and each flood goes on with the mask and the frontier that the one before leaves.  A flood
starts with its seed as the only pixel in its frontier and ends with an empty frontier, after one
turn more than its island has edges.  Only inked pixels of the canvas are enqueued: the seed once,
and every other pixel of the island once by each of its neighbours that precede it. -/
theorem floods_turns (m : Mask) :
    m.islands = m.floods.map (fun s => s.finish.island) ∧
      m.floods.IsChain Flood.GoesOn ∧
      ∀ s ∈ m.floods, ∃ seed offers,
        s.frontier.toList = [seed] ∧ s.finish.island.first? = some seed ∧
        (∀ n os, s.Run n os s.finish ↔ n = 1 + s.finish.island.edges.card ∧ os = offers) ∧
        s.finish.frontier.toList = [] ∧
        (∀ p ∈ seed :: offers.map Prod.snd, m.Contains p ∧ m.get p = true) ∧
        (seed :: offers.map Prod.snd).count seed = 1 ∧
        ∀ before p after, s.finish.island.pixels = before ++ p :: after → before ≠ [] →
          (seed :: offers.map Prod.snd).count p = before.countP (·.Adjacent p) ∧
          (offers.filter (·.2 = p)).map Prod.fst = before.filter (·.Adjacent p) := by
  refine ⟨m.islands_eq_map_floods, Extraction.isChain_floodsAt _ _, fun s hs => ?_⟩
  obtain ⟨r, seed, hseed, hr, rfl⟩ := Extraction.exists_start_of_mem_floodsAt hs
  have hfirst := Flood.first?_island_flood hseed
  have hnodup := Flood.nodup_island_flood hseed
  have hinked : ∀ p ∈ (Flood.start r seed).finish.island.pixels, m.get p = true :=
    fun p hp => hr p ((Flood.mem_island_flood hseed).mp hp).inked_right
  have hrun (n : Nat) (os : List (Pixel × Pixel)) :
      (Flood.start r seed).Run n os (Flood.start r seed).finish ↔ _ :=
    Flood.run_start_iff hseed
  obtain ⟨rest, hpixels⟩ := List.head?_eq_some_iff.mp hfirst
  rw [hpixels] at hnodup hinked hrun ⊢
  refine ⟨seed, Pixel.forward (seed :: rest), rfl, hfirst, hrun, (Flood.searching_finish hseed).2,
    fun p hp => ?_, Pixel.count_cons_forward_self hnodup, fun before p after he hne => ?_⟩
  · have hink := hinked p (Pixel.mem_of_mem_cons_forward hp)
    exact ⟨contains_of_get hink, hink⟩
  · refine ⟨Pixel.count_cons_forward hnodup he hne, ?_⟩
    rw [he] at hnodup ⊢
    exact Pixel.filter_forward hnodup

/-- The flood of the block takes eight turns, one more than the block has edges.  The pixel in the
middle of its lower row is enqueued twice, by its neighbours on the left and above. -/
theorem floods_turns_block :
    ∃ s ∈ blocked.floods, s.finish.island = block ∧ ∃ offers, s.Run 8 offers s.finish ∧
      (offers.filter (·.2 = ⟨1, 3⟩)).map Prod.fst = [⟨0, 3⟩, ⟨1, 2⟩] := by
  obtain ⟨hislands, -, hfloods⟩ := floods_turns blocked
  obtain ⟨s, hs, hblock⟩ := List.mem_map.mp (hislands ▸ block_mem_islands)
  obtain ⟨seed, offers, -, -, hrun, -, -, -, hoffered⟩ := hfloods s hs
  rw [hblock] at hrun hoffered
  have hedges : block.edges.card = 7 := by decide
  have hmiddle := hoffered [⟨0, 2⟩, ⟨0, 3⟩, ⟨1, 2⟩] ⟨1, 3⟩ [⟨2, 2⟩, ⟨2, 3⟩] rfl (by decide)
  rw [hedges] at hrun
  exact ⟨s, hs, hblock, offers, (hrun 8 offers).mpr ⟨rfl, rfl⟩, hmiddle.2⟩

end Mask

end PenPlotter
