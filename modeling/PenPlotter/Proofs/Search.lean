import PenPlotter.Proofs.Separation

/-!
# Islands by breadth-first search

A flood blanks a pixel when it takes it from its frontier, so a pixel may wait there more than once.
A *search* marks a pixel when it puts it into its queue, so that none ever waits twice
(`Marks.nodup`), and visits every pixel that it takes.

A search *tracks* a flood (`Tracks`) when it has visited what the flood has recorded, and its queue
is the frontier of the flood without the pixels that are blank already, each taken where it waits
first.  A turn of the flood that records a pixel is one turn of the search; a turn that drops a
pixel is none (`Tracks.turn`).  Both therefore end with the same pixels in the same order.

The scan of a mask floods what remains of it.  A flood of the whole mask from the same pixel would
take the same turns, since the islands found before do not touch the new one
(`Mask.exists_flood_of_mem_islands`).

**Main statement** (`islands_breadth_first`): every island is what a search of the whole mask from
the first pixel of the island visits, in the order of the visits.
-/

namespace PenPlotter

theorem Heading.unitStep_injective : Function.Injective Heading.unitStep := by
  intro h k
  cases h <;> cases k <;> decide

namespace Pixel

/-- The pixels below, to the right, above and to the left, without those beyond the edge of the
coordinate range. -/
def neighbours (p : Pixel) : List Pixel :=
  ([.down, .right, .up, .left] : List Heading).filterMap p.step?

theorem mem_neighbours {p q : Pixel} : q ∈ p.neighbours ↔ p.Adjacent q := by
  have hall : ∀ h : Heading, h ∈ ([.down, .right, .up, .left] : List Heading) := by
    intro h
    cases h <;> decide
  simp only [neighbours, List.mem_filterMap, hall, true_and, adjacent_iff_step?]

/-- Steps along different headings arrive at different pixels. -/
theorem step?_inj {p q : Pixel} {h k : Heading} (hh : p.step? h = some q)
    (hk : p.step? k = some q) : h = k := by
  have hq := (point_of_step? hh).symm.trans (point_of_step? hk)
  simp only [Prod.mk.injEq, Int.add_right_inj] at hq
  exact Heading.unitStep_injective (Prod.ext hq.1 hq.2)

theorem nodup_neighbours (p : Pixel) : p.neighbours.Nodup := by
  have horder : ([.down, .right, .up, .left] : List Heading).Nodup := by decide
  exact horder.filterMap fun h k q hh hk => step?_inj hh hk

/-- A flood looks at the neighbours in the same order. -/
theorem inkedNeighbours_eq_filter (m : Mask) (p : Pixel) :
    m.inkedNeighbours p = p.neighbours.filter m.get :=
  rfl

end Pixel

/-- A breadth-first search that marks a pixel when it enqueues it. -/
structure Search where
  /-- The inked pixels that are not marked. -/
  unmarked : Mask
  /-- The pixels to be visited; each was marked when it was enqueued. -/
  queue : List Pixel
  /-- The pixels visited so far, in the order of the visits. -/
  visited : List Pixel

namespace Search

/-- Mark a pixel and enqueue it, unless it is blank or has been marked. -/
def enqueue (s : Search) (p : Pixel) : Search :=
  if s.unmarked.get p then
    { s with unmarked := s.unmarked.erase p, queue := s.queue ++ [p] }
  else s

/-- The search before its first visit: the seed is marked and enqueued. -/
def start (m : Mask) (seed : Pixel) : Search := ⟨m.erase seed, [seed], []⟩

/-- One turn of the search: visit the first pixel of the queue and enqueue its neighbours.  There is
none at the end. -/
def next? (s : Search) : Option Search :=
  match s.queue with
  | [] => none
  | p :: rest => some (p.neighbours.foldl enqueue ⟨s.unmarked, rest, s.visited ++ [p]⟩)

/-- An enqueued pixel is one fewer to be marked. -/
theorem size_foldl_enqueue (s : Search) (ps : List Pixel) :
    (ps.foldl enqueue s).unmarked.inkCount + (ps.foldl enqueue s).queue.length =
      s.unmarked.inkCount + s.queue.length := by
  induction ps generalizing s with
  | nil => rfl
  | cons p ps ih =>
      rw [List.foldl_cons, ih, enqueue]
      split
      case isTrue hp =>
        have hcount := Mask.inkCount_erase hp
        simp only [List.length_append, List.length_singleton]
        omega
      case isFalse => rfl

/-- A turn leaves one pixel fewer to be marked or visited. -/
theorem size_next? {s t : Search} (h : s.next? = some t) :
    t.unmarked.inkCount + t.queue.length + 1 = s.unmarked.inkCount + s.queue.length := by
  rw [next?] at h
  split at h
  case h_1 => cases h
  case h_2 p rest hq =>
    cases h
    simp only [size_foldl_enqueue, hq, List.length_cons]
    omega

/-- The search run to its end. -/
def finish (s : Search) : Search :=
  match _h : s.next? with
  | none => s
  | some t => t.finish
termination_by s.unmarked.inkCount + s.queue.length
decreasing_by
  have := size_next? (by assumption)
  omega

theorem next?_eq_none_iff {s : Search} : s.next? = none ↔ s.queue = [] := by
  rw [next?]
  split
  case h_1 hq => simp [hq]
  case h_2 hq => simp [hq]

theorem finish_of_none {s : Search} (h : s.next? = none) : s.finish = s := by
  rw [finish]
  split
  case h_1 => rfl
  case h_2 ht => rw [h] at ht; cases ht

theorem finish_of_some {s t : Search} (h : s.next? = some t) : s.finish = t.finish := by
  rw [finish]
  split
  case h_1 hn => rw [h] at hn; cases hn
  case h_2 u hu =>
    obtain rfl := Option.some.inj (h.symm.trans hu)
    rfl

/-- Enqueueing different pixels marks them, and puts those that were not marked into the queue. -/
theorem foldl_enqueue {s : Search} {ps : List Pixel} (hps : ps.Nodup) :
    (ps.foldl enqueue s).visited = s.visited ∧
      (ps.foldl enqueue s).queue = s.queue ++ ps.filter s.unmarked.get ∧
      ∀ q, (ps.foldl enqueue s).unmarked.get q = true ↔
        s.unmarked.get q = true ∧ q ∉ ps := by
  induction ps generalizing s with
  | nil => simp
  | cons p ps ih =>
      obtain ⟨hp, hps⟩ := List.nodup_cons.mp hps
      obtain ⟨hvisited, hqueue, hunmarked⟩ := ih (s := s.enqueue p) hps
      rw [List.foldl_cons, hvisited, hqueue]
      by_cases hg : s.unmarked.get p = true
      · have hs : s.enqueue p =
            { s with unmarked := s.unmarked.erase p, queue := s.queue ++ [p] } := if_pos hg
        have hrest : ps.filter (s.unmarked.erase p).get = ps.filter s.unmarked.get := by
          refine List.filter_congr fun q hq => ?_
          have hqp : q ≠ p := fun he => hp (he ▸ hq)
          simp [Mask.get_erase, hqp]
        refine ⟨by rw [hs], ?_, fun q => ?_⟩
        · rw [hs, List.filter_cons_of_pos hg, hrest, List.append_assoc, List.singleton_append]
        · rw [hunmarked q, hs, Mask.get_erase, Bool.and_eq_true, decide_eq_true_iff,
            List.mem_cons, not_or, and_assoc]
      · have hs : s.enqueue p = s := if_neg hg
        refine ⟨by rw [hs], by rw [hs, List.filter_cons_of_neg hg], fun q => ?_⟩
        rw [hunmarked q, hs, List.mem_cons, not_or]
        constructor
        · rintro ⟨hq, hqs⟩
          exact ⟨hq, fun he => hg (he ▸ hq), hqs⟩
        · rintro ⟨hq, -, hqs⟩
          exact ⟨hq, hqs⟩

/-- **What a turn does**: it visits the first pixel of the queue, marks the neighbours of the pixel,
and enqueues those that were not marked. -/
theorem next?_cases {s t : Search} (h : s.next? = some t) :
    ∃ p rest, s.queue = p :: rest ∧ t.visited = s.visited ++ [p] ∧
      t.queue = rest ++ p.neighbours.filter s.unmarked.get ∧
      ∀ q, t.unmarked.get q = true ↔ s.unmarked.get q = true ∧ ¬ p.Adjacent q := by
  rw [next?] at h
  split at h
  case h_1 => cases h
  case h_2 p rest hq =>
    cases h
    obtain ⟨hvisited, hqueue, hunmarked⟩ :=
      foldl_enqueue (s := ⟨s.unmarked, rest, s.visited ++ [p]⟩) p.nodup_neighbours
    refine ⟨p, rest, hq, hvisited, hqueue, fun q => ?_⟩
    rw [hunmarked q, Pixel.mem_neighbours]

/-! ### What a search has marked -/

/-- The marked pixels, in the order in which they were marked. -/
def marked (s : Search) : List Pixel := s.visited ++ s.queue

/-- A turn marks the unmarked neighbours of the first pixel of the queue. -/
theorem marked_next? {s t : Search} {p : Pixel} {rest : List Pixel} (hq : s.queue = p :: rest)
    (hvisited : t.visited = s.visited ++ [p])
    (hqueue : t.queue = rest ++ p.neighbours.filter s.unmarked.get) :
    t.marked = s.marked ++ p.neighbours.filter s.unmarked.get := by
  rw [marked, marked, hvisited, hqueue, hq]
  simp only [List.append_assoc, List.cons_append, List.nil_append]

/-- The search from a seed comes to this state. -/
inductive Reached (m : Mask) (seed : Pixel) : Search → Prop where
  | start : Reached m seed (start m seed)
  | turn {s t : Search} : Reached m seed s → s.next? = some t → Reached m seed t

/-- A pixel is marked once, and the unmarked pixels are the inked ones that are left. -/
structure Marks (m : Mask) (s : Search) : Prop where
  nodup : s.marked.Nodup
  unmarked : ∀ p, s.unmarked.get p = true ↔ m.get p = true ∧ p ∉ s.marked

theorem marks_start (m : Mask) (seed : Pixel) : Marks m (start m seed) where
  nodup := List.nodup_singleton seed
  unmarked := by
    intro p
    simp [start, marked, Mask.get_erase]

/-- The pixels that a turn marks. -/
theorem Marks.mem_filter_neighbours {m : Mask} {s : Search} (h : Marks m s) {p q : Pixel} :
    q ∈ p.neighbours.filter s.unmarked.get ↔ p.Adjacent q ∧ m.get q = true ∧ q ∉ s.marked := by
  rw [List.mem_filter, Pixel.mem_neighbours, h.unmarked q]

theorem Marks.turn {m : Mask} {s t : Search} (h : Marks m s) (hst : s.next? = some t) :
    Marks m t := by
  obtain ⟨p, rest, hq, hvisited, hqueue, hunmarked⟩ := next?_cases hst
  have hmarked := marked_next? hq hvisited hqueue
  constructor
  · rw [hmarked, List.nodup_append]
    refine ⟨h.nodup, p.nodup_neighbours.filter _, ?_⟩
    rintro q hold r hnew rfl
    exact (h.mem_filter_neighbours.mp hnew).2.2 hold
  · intro q
    rw [hmarked, hunmarked q, List.mem_append, h.mem_filter_neighbours, h.unmarked q]
    tauto

theorem Reached.marks {m : Mask} {seed : Pixel} {s : Search} (h : Reached m seed s) :
    Marks m s := by
  induction h with
  | start => exact marks_start m seed
  | turn _ hst ih => exact ih.turn hst

theorem Reached.finish {m : Mask} {seed : Pixel} {s : Search} (h : Reached m seed s) :
    Reached m seed s.finish := by
  fun_induction Search.finish s with
  | case1 s hn => exact h
  | case2 s t ht ih => exact ih (h.turn ht)

theorem queue_finish (s : Search) : s.finish.queue = [] := by
  fun_induction Search.finish s with
  | case1 s hn => exact next?_eq_none_iff.mp hn
  | case2 s t ht ih => exact ih

/-- The pixels a search visits, in the order of the visits. -/
def visits (m : Mask) (seed : Pixel) : List Pixel := (start m seed).finish.visited

end Search

/-! ### A search tracks a flood -/

/-- In a list of different items nothing is repeated. -/
theorem eraseDups_eq_self {α : Type} [BEq α] [LawfulBEq α] {as : List α} (h : as.Nodup) :
    as.eraseDups = as := by
  induction as with
  | nil => rfl
  | cons a as ih =>
      obtain ⟨ha, has⟩ := List.nodup_cons.mp h
      have hkeep : as.filter (fun b => !b == a) = as := by
        refine List.filter_eq_self.mpr fun b hb => ?_
        simpa using fun he : b = a => ha (he ▸ hb)
      rw [List.eraseDups_cons, hkeep, ih has]

/-- The search has visited what the flood has recorded.  Its queue is the frontier of the flood,
without the pixels that are blank already and without repetitions. -/
structure Tracks (s : Flood) (t : Search) : Prop where
  visited : t.visited = s.found.reverse
  queue : t.queue = (s.frontier.toList.filter s.remaining.get).eraseDups
  unmarked : ∀ p, t.unmarked.get p = true ↔
    s.remaining.get p = true ∧ p ∉ s.frontier.toList

namespace Tracks

variable {s s' : Flood} {t : Search} {p : Pixel} {rest : List Pixel}

theorem start {m : Mask} {seed : Pixel} (h : m.get seed = true) :
    Tracks (Flood.start m seed) (Search.start m seed) where
  visited := rfl
  queue := by simp [Flood.start, Search.start, h, List.eraseDups_cons]
  unmarked := by
    intro p
    simp [Flood.start, Search.start, Mask.get_erase]

/-- A pixel that the flood records is the next one that the search visits. -/
theorem record (h : Tracks s t) (hf : s.frontier.toList = p :: rest)
    (hg : s.remaining.get p = true) (hr : s'.remaining = s.remaining.erase p)
    (hfound : s'.found = p :: s.found)
    (hfront : s'.frontier.toList = rest ++ (s.remaining.erase p).inkedNeighbours p) :
    ∃ t', t.next? = some t' ∧ Tracks s' t' := by
  have hqueue : t.queue = p :: (rest.filter (s.remaining.erase p).get).eraseDups := by
    have hwait : (rest.filter s.remaining.get).filter (fun q => !q == p) =
        rest.filter (s.remaining.erase p).get := by
      rw [List.filter_filter]
      refine List.filter_congr fun q _ => ?_
      rw [Mask.get_erase, Bool.and_comm, decide_not]
      rfl
    rw [h.queue, hf, List.filter_cons_of_pos hg, List.eraseDups_cons, hwait]
  obtain ⟨t', ht'⟩ : ∃ t', t.next? = some t' := by
    rw [← Option.ne_none_iff_exists', Ne, Search.next?_eq_none_iff, hqueue]
    exact List.cons_ne_nil _ _
  refine ⟨t', ht', ?_⟩
  obtain ⟨p', rest', hq, hvisited, hqueue', hunmarked⟩ := Search.next?_cases ht'
  rw [hqueue] at hq
  obtain ⟨rfl, rfl⟩ := List.cons.inj hq
  refine ⟨?_, ?_, ?_⟩
  · rw [hvisited, h.visited, hfound, List.reverse_cons]
  · -- A new neighbour joins the queue unless it waits behind `p` already.
    have hnew : ((s.remaining.erase p).inkedNeighbours p).removeAll
        (rest.filter (s.remaining.erase p).get) = p.neighbours.filter t.unmarked.get := by
      rw [List.removeAll, Pixel.inkedNeighbours_eq_filter, List.filter_filter]
      refine List.filter_congr fun q _ => Bool.eq_iff_iff.mpr ?_
      rw [h.unmarked q, hf, Mask.get_erase]
      simp only [List.elem_eq_mem, List.mem_filter, List.mem_cons, Mask.get_erase]
      grind
    have hneighbours : ((s.remaining.erase p).inkedNeighbours p).filter
        (s.remaining.erase p).get = (s.remaining.erase p).inkedNeighbours p := by
      rw [Pixel.inkedNeighbours_eq_filter, List.filter_filter]
      simp only [Bool.and_self]
    rw [hqueue', hfront, hr, List.filter_append, hneighbours, List.eraseDups_append, hnew,
      eraseDups_eq_self (p.nodup_neighbours.filter _)]
  · intro q
    rw [hunmarked q, h.unmarked q, hr, hfront, hf, List.mem_append, Mask.mem_inkedNeighbours,
      Mask.get_erase]
    grind

/-- A pixel that the flood drops is not in the queue of the search. -/
theorem drop (h : Tracks s t) (hf : s.frontier.toList = p :: rest)
    (hg : s.remaining.get p = false) (hr : s'.remaining = s.remaining)
    (hfound : s'.found = s.found) (hfront : s'.frontier.toList = rest) : Tracks s' t where
  visited := by rw [hfound, h.visited]
  queue := by
    rw [h.queue, hf, List.filter_cons_of_neg (by simp [hg]), hr, hfront]
  unmarked := by
    intro q
    rw [h.unmarked q, hf, hr, hfront, List.mem_cons, not_or]
    constructor
    · rintro ⟨hq, -, hrest⟩
      exact ⟨hq, hrest⟩
    · rintro ⟨hq, hrest⟩
      refine ⟨hq, ?_, hrest⟩
      rintro rfl
      rw [hg] at hq
      cases hq

/-- **A turn of the flood is one turn of the search or none.** -/
theorem turn (h : Tracks s t) (hs : s.next? = some s') :
    Tracks s' t ∨ ∃ t', t.next? = some t' ∧ Tracks s' t' := by
  obtain ⟨p, rest, hf, ⟨hg, hr, hfound, hfront⟩ | ⟨hg, hr, hfound, hfront⟩⟩ :=
    Flood.next?_cases hs
  · exact .inr (h.record hf hg hr hfound hfront)
  · exact .inl (h.drop hf hg hr hfound hfront)

theorem finish (h : Tracks s t) : Tracks s.finish t.finish := by
  fun_induction Flood.finish s generalizing t with
  | case1 remaining frontier found hp =>
      have hqueue : t.queue = [] := by
        rw [h.queue, Queue.pop?_eq_none_iff.mp hp]
        rfl
      rw [Search.finish_of_none (Search.next?_eq_none_iff.mpr hqueue)]
      exact h
  | case2 remaining frontier found p rest hp ih =>
      have hturn : (⟨remaining, frontier, found⟩ : Flood).next? =
          some (Flood.take remaining rest found p) := by simp [Flood.next?, hp]
      rcases h.turn hturn with htrack | ⟨t', ht', htrack⟩
      · exact ih htrack
      · rw [Search.finish_of_some ht']
        exact ih htrack

end Tracks

/-- **A flood records what a search from its seed visits**, in the order of the visits. -/
theorem Flood.pixels_island_eq_visits {m : Mask} {seed : Pixel} (h : m.get seed = true) :
    (Flood.start m seed).finish.island.pixels = Search.visits m seed :=
  (Tracks.start h).finish.visited.symm

/-! ### Islands are floods of the whole mask -/

namespace Extraction

/-- Every island found is what a flood of the whole mask collects. -/
def Floods (m : Mask) (s : Extraction) : Prop :=
  ∀ i ∈ s.islands, ∃ seed, m.get seed = true ∧ i = (Flood.start m seed).finish.island

variable {m : Mask} {seen : List Pixel} {p : Pixel} {s : Extraction}

/-- The flood of what remains and the flood of the whole mask take the same turns, since what
remains is a union of components. -/
theorem Scanning.lockstep_start (hs : Scanning m seen s) (hp : s.remaining.get p = true) :
    Flood.Lockstep {q | s.remaining.get q = true} (Flood.start m p)
      (Flood.start s.remaining p) := by
  refine Flood.lockstep_start (fun q => ?_) (fun a b ha hb hab haS => ?_) hp
  · exact ⟨fun hq => ⟨((hs.remaining q).mp hq).1, hq⟩, fun hq => hq.2⟩
  · exact ((hs.joined_iff haS).mpr (.step (.start ha) hab hb)).inked_right

theorem Scanning.floods_visit (hs : Scanning m seen s) (h : Floods m s) :
    Floods m (s.visit p) := by
  by_cases hp : s.remaining.get p = true
  · rw [visit_of_get hp]
    refine List.forall_mem_cons.mpr ⟨⟨p, ((hs.remaining p).mp hp).1, ?_⟩, h⟩
    rw [Flood.island, Flood.island, (hs.lockstep_start hp).finish.found]
  · rw [visit_of_blank hp]
    exact h

theorem Scanning.floods_foldl {rest : List Pixel} (hs : Scanning m seen s) (h : Floods m s)
    (hscan : m.pixels = seen ++ rest) : Floods m (rest.foldl Extraction.visit s) := by
  induction rest generalizing seen s with
  | nil => exact h
  | cons p rest ih =>
      exact ih (hs.visit hscan) (hs.floods_visit h) (by rw [hscan, List.append_assoc]; rfl)

end Extraction

namespace Mask

/-- **An island is what a flood of the whole mask collects from the first pixel of the island.** -/
theorem exists_flood_of_mem_islands {m : Mask} {i : Island} (hi : i ∈ m.islands) :
    ∃ seed, m.get seed = true ∧ i.first? = some seed ∧
      i = (Flood.start m seed).finish.island := by
  have hfloods := (Extraction.scanning_start m).floods_foldl (fun i hi => by cases hi) rfl
  obtain ⟨seed, hseed, rfl⟩ := hfloods i (List.mem_reverse.mp hi)
  exact ⟨seed, hseed, Flood.first?_island_flood hseed, rfl⟩

/-- A pixel that a scan row by row meets before all others of its component seeds an island. -/
theorem mem_islands_of_first {m : Mask} {p : Pixel} (hp : m.get p = true)
    (hfirst : ∀ q ∈ Search.visits m p, q = p ∨ p.Before q) :
    ⟨Search.visits m p⟩ ∈ m.islands := by
  obtain ⟨i, hi, hpi⟩ := exists_island hp
  obtain ⟨f, hf, hleast⟩ := (component_of_mem_islands hi).first
  obtain ⟨seed, hseed, hseedfirst, rfl⟩ := exists_flood_of_mem_islands hi
  obtain rfl := Option.some.inj (hseedfirst.symm.trans hf)
  have hjoined := (Flood.mem_island_flood hseed).mp hpi
  have hmem : seed ∈ Search.visits m p := by
    rw [← Flood.pixels_island_eq_visits hp, Flood.mem_island_flood hp]
    exact hjoined.symm
  have hsame : seed = p := by
    rcases hfirst seed hmem with h | h
    · exact h
    · rcases hleast p hpi with h' | h'
      · exact h'.symm
      · exact absurd (h.trans h') (Pixel.before_irrefl p)
  rw [← hsame, ← Flood.pixels_island_eq_visits hseed]
  exact hi

/-- **An island is what a breadth-first search visits**, pixel for pixel in the order of the visits.
The search sees the whole mask, starts at the first pixel of the island, enqueues the neighbours of
a pixel below, to the right, above and to the left, and marks a pixel when it enqueues it, so that
no pixel is ever enqueued twice. -/
theorem islands_breadth_first {m : Mask} {i : Island} (hi : i ∈ m.islands) :
    ∃ seed, i.first? = some seed ∧ i.pixels = Search.visits m seed ∧
      ∀ s, Search.Reached m seed s → (s.visited ++ s.queue).Nodup := by
  obtain ⟨seed, hseed, hfirst, rfl⟩ := exists_flood_of_mem_islands hi
  exact ⟨seed, hfirst, Flood.pixels_island_eq_visits hseed, fun s hs => hs.marks.nodup⟩

/-- A pixel, and a block of three by two pixels that does not touch it. -/
def blocked : Mask where
  width := 3
  height := 4
  cells := #[
    true, false, false,
    false, false, false,
    true, true, true,
    true, true, true]
  width_ne := by decide
  height_ne := by decide
  size_cells := rfl

/-- The block, column by column. -/
def block : Island := ⟨[⟨0, 2⟩, ⟨0, 3⟩, ⟨1, 2⟩, ⟨1, 3⟩, ⟨2, 2⟩, ⟨2, 3⟩]⟩

theorem block_mem_islands : block ∈ blocked.islands := by
  have hvisits : Search.visits blocked ⟨0, 2⟩ = block.pixels := by decide +kernel
  have hi := mem_islands_of_first (m := blocked) (p := ⟨0, 2⟩) (by decide)
    (by rw [hvisits]; decide)
  rwa [hvisits] at hi

/-- The flood of the block takes two of its pixels twice. -/
theorem islands_breadth_first_block :
    block ∈ blocked.islands ∧
      ∃ seed, block.first? = some seed ∧ block.pixels = Search.visits blocked seed ∧
        ∀ s, Search.Reached blocked seed s → (s.visited ++ s.queue).Nodup :=
  ⟨block_mem_islands, islands_breadth_first block_mem_islands⟩

end Mask

end PenPlotter
