import Mathlib.Order.Lattice.Nat
import PenPlotter.Proofs.Search

/-!
# Islands are drawn layer by layer

`m.JoinedIn p n q` holds when a path of `n` steps over inked pixels leads from `p` to `q`, and
`m.distance p q` is the length of the shortest such path.

A search marks the pixels in the order of their distances from the seed (`Search.Layered`).  When it
visits a pixel at distance `d`, every pixel up to this distance is marked and none beyond distance
`d + 1`, so that the neighbours it marks now are at distance `d + 1`.  The argument is one about
searches, whose queue holds a pixel once; a flood may hold pixels that it has recorded before.

**Main statement** (`islands_layered`): along an island, the distance from its first pixel never
decreases and never grows by more than one, and every pixel but the first touches an earlier one
that is closer by one.
-/

namespace PenPlotter

namespace Mask

/-! ### Shortest paths -/

/-- A path of so many steps over inked pixels leads from `p` to another pixel. -/
inductive JoinedIn (m : Mask) (p : Pixel) : Nat → Pixel → Prop where
  | start : m.get p = true → JoinedIn m p 0 p
  | step {n : Nat} {q r : Pixel} :
      JoinedIn m p n q → q.Adjacent r → m.get r = true → JoinedIn m p (n + 1) r

/-- The length of the shortest path over inked pixels from `p` to `q`. -/
noncomputable def distance (m : Mask) (p q : Pixel) : Nat := sInf {n | m.JoinedIn p n q}

variable {m : Mask} {p q r : Pixel} {n : Nat}

theorem JoinedIn.joined (h : m.JoinedIn p n q) : m.Joined p q := by
  induction h with
  | start h => exact .start h
  | step _ ha hr ih => exact .step ih ha hr

theorem Joined.exists_joinedIn (h : m.Joined p q) : ∃ n, m.JoinedIn p n q := by
  induction h with
  | start h => exact ⟨0, .start h⟩
  | step _ ha hr ih =>
      obtain ⟨n, hn⟩ := ih
      exact ⟨n + 1, .step hn ha hr⟩

theorem Joined.joinedIn_distance (h : m.Joined p q) : m.JoinedIn p (m.distance p q) q :=
  Nat.sInf_mem h.exists_joinedIn

theorem JoinedIn.distance_le (h : m.JoinedIn p n q) : m.distance p q ≤ n :=
  Nat.sInf_le h

theorem distance_self (h : m.get p = true) : m.distance p p = 0 :=
  Nat.le_zero.mp (JoinedIn.start h).distance_le

theorem Joined.eq_of_distance_eq_zero (h : m.Joined p q) (hd : m.distance p q = 0) : q = p := by
  have hpath := h.joinedIn_distance
  rw [hd] at hpath
  cases hpath with
  | start => rfl

/-- The distance grows by one a step at most. -/
theorem Joined.distance_le_succ (h : m.Joined p q) (ha : q.Adjacent r) (hr : m.get r = true) :
    m.distance p r ≤ m.distance p q + 1 :=
  (JoinedIn.step h.joinedIn_distance ha hr).distance_le

/-- The shortest path to a pixel passes a neighbour that is closer by one. -/
theorem Joined.exists_closer (h : m.Joined p q) (hd : m.distance p q = n + 1) :
    ∃ r, m.Joined p r ∧ r.Adjacent q ∧ m.distance p r = n := by
  have hpath := h.joinedIn_distance
  rw [hd] at hpath
  cases hpath with
  | @step _ r _ hr ha hq =>
      have hle := hr.distance_le
      have hge := hr.joined.distance_le_succ ha hq
      exact ⟨r, hr.joined, ha, by omega⟩

end Mask

namespace Search

/-! ### Searches go by distance -/

/-- A search from `seed` marks the pixels in the order of their distances from it. -/
structure Layered (m : Mask) (seed : Pixel) (s : Search) : Prop where
  joined : ∀ p ∈ s.marked, m.Joined seed p
  sorted : s.marked.Pairwise fun p q => m.distance seed p ≤ m.distance seed q
  /-- A pixel was marked when a neighbour closer to the seed was visited. -/
  parent : ∀ before p after, s.marked = before ++ p :: after → before ≠ [] →
    ∃ q ∈ before, q.Adjacent p ∧ m.distance seed p = m.distance seed q + 1
  next : ∀ p ∈ s.visited, ∀ q, p.Adjacent q → m.get q = true → q ∈ s.marked
  /-- No marked pixel lies beyond the layer after the one that is being visited. -/
  ahead : ∀ p rest, s.queue = p :: rest →
    ∀ q ∈ s.marked, m.distance seed q ≤ m.distance seed p + 1
  /-- The layer that is being visited, and all before it, are marked. -/
  full : ∀ p rest, s.queue = p :: rest →
    ∀ q, m.Joined seed q → m.distance seed q ≤ m.distance seed p → q ∈ s.marked

variable {m : Mask} {seed : Pixel} {s t : Search}

theorem layered_start (h : m.get seed = true) : Layered m seed (start m seed) := by
  have hmarked : (start m seed).marked = [seed] := rfl
  have hqueue : ∀ p rest, (start m seed).queue = p :: rest → seed = p :=
    fun p rest he => (List.cons.inj he).1
  refine ⟨?_, ?_, ?_, ?_, ?_, ?_⟩
  · intro p hp
    obtain rfl := List.mem_singleton.mp hp
    exact .start h
  · exact List.pairwise_singleton ..
  · intro before p after he hne
    obtain ⟨rfl, -⟩ | ⟨rfl, -⟩ := List.singleton_eq_append_iff.mp (hmarked.symm.trans he)
    · exact absurd rfl hne
    · simp_all
  · intro p hp
    cases hp
  · intro p rest he q hq
    obtain rfl := hqueue p rest he
    obtain rfl := List.mem_singleton.mp hq
    exact Nat.le_succ _
  · intro p rest he q hq hle
    obtain rfl := hqueue p rest he
    rw [Mask.distance_self h, Nat.le_zero] at hle
    rw [hq.eq_of_distance_eq_zero hle]
    exact List.mem_singleton_self seed

/-! ### What a turn does to the layers -/

section Turn

variable {p : Pixel} {rest : List Pixel} (hm : Marks m s) (hs : Layered m seed s)
  (hq : s.queue = p :: rest)

include hm hs hq

/-- What a turn marks is one layer beyond the pixel that it visits. -/
theorem Layered.distance_of_new {q : Pixel} (hnew : q ∈ p.neighbours.filter s.unmarked.get) :
    p.Adjacent q ∧ m.Joined seed q ∧ m.distance seed q = m.distance seed p + 1 := by
  obtain ⟨ha, hink, hunmarked⟩ := hm.mem_filter_neighbours.mp hnew
  have hp : m.Joined seed p := hs.joined p (by simp [marked, hq])
  have hjoined : m.Joined seed q := .step hp ha hink
  have hle := hp.distance_le_succ ha hink
  have hlt : ¬ m.distance seed q ≤ m.distance seed p := fun hle =>
    hunmarked (hs.full p rest hq q hjoined hle)
  exact ⟨ha, hjoined, by omega⟩

/-- The pixel visited next is no closer than the one before. -/
theorem Layered.le_next (hqueue : t.queue = rest ++ p.neighbours.filter s.unmarked.get)
    {p' : Pixel} {rest' : List Pixel} (hq' : t.queue = p' :: rest') :
    m.distance seed p ≤ m.distance seed p' := by
  have hp' : p' ∈ rest ++ p.neighbours.filter s.unmarked.get := by
    rw [← hqueue, hq']
    exact List.mem_cons_self
  rcases List.mem_append.mp hp' with hold | hnew
  · have hsort := hs.sorted
    rw [marked, hq] at hsort
    exact (List.pairwise_cons.mp (List.pairwise_append.mp hsort).2.1).1 p' hold
  · have := (hs.distance_of_new hm hq hnew).2.2
    omega

variable (hmarked : t.marked = s.marked ++ p.neighbours.filter s.unmarked.get)

include hmarked

theorem Layered.le_succ_turn {q : Pixel} (h : q ∈ t.marked) :
    m.distance seed q ≤ m.distance seed p + 1 := by
  rw [hmarked, List.mem_append] at h
  rcases h with hold | hnew
  · exact hs.ahead p rest hq q hold
  · exact (hs.distance_of_new hm hq hnew).2.2.le

theorem Layered.sorted_turn :
    t.marked.Pairwise fun a b => m.distance seed a ≤ m.distance seed b := by
  have hnew : ∀ q ∈ p.neighbours.filter s.unmarked.get,
      m.distance seed q = m.distance seed p + 1 :=
    fun q h => (hs.distance_of_new hm hq h).2.2
  rw [hmarked, List.pairwise_append]
  refine ⟨hs.sorted, List.pairwise_of_forall_mem_list fun a ha b hb => ?_, fun a ha b hb => ?_⟩
  · rw [hnew a ha, hnew b hb]
  · rw [hnew b hb]
    exact hs.ahead p rest hq a ha

/-- The parent of what a turn marks is the pixel that it visits. -/
theorem Layered.parent_turn {before after : List Pixel} {q : Pixel}
    (he : t.marked = before ++ q :: after) (hne : before ≠ []) :
    ∃ r ∈ before, r.Adjacent q ∧ m.distance seed q = m.distance seed r + 1 := by
  have hp : p ∈ s.marked := by simp [marked, hq]
  rw [hmarked] at he
  rcases List.append_eq_append_iff.mp he with ⟨added, rfl, hadded⟩ | ⟨old, hold, hafter⟩
  · have hnew := hs.distance_of_new hm hq (q := q) (by simp [hadded])
    exact ⟨p, List.mem_append_left _ hp, hnew.1, hnew.2.2⟩
  · cases old with
    | nil =>
        rw [List.append_nil] at hold
        rw [List.nil_append] at hafter
        have hnew := hs.distance_of_new hm hq (q := q) (by rw [← hafter]; exact List.mem_cons_self)
        exact ⟨p, hold ▸ hp, hnew.1, hnew.2.2⟩
    | cons a old =>
        obtain ⟨rfl, -⟩ := List.cons.inj hafter
        exact hs.parent before q old hold hne

theorem Layered.next_turn (hvisited : t.visited = s.visited ++ [p]) {a b : Pixel}
    (ha : a ∈ t.visited) (hab : a.Adjacent b) (hb : m.get b = true) : b ∈ t.marked := by
  rw [hmarked, List.mem_append]
  rw [hvisited, List.mem_append, List.mem_singleton] at ha
  rcases ha with ha | rfl
  · exact .inl (hs.next a ha b hab hb)
  · by_cases hold : b ∈ s.marked
    · exact .inl hold
    · exact .inr (hm.mem_filter_neighbours.mpr ⟨hab, hb, hold⟩)

/-- A layer is marked when its first pixel comes to be visited: a pixel of it touches one of the
layer before, and that one has been visited. -/
theorem Layered.full_turn (hvisited : t.visited = s.visited ++ [p])
    {p' : Pixel} {rest' : List Pixel} (hq' : t.queue = p' :: rest') {q : Pixel}
    (hj : m.Joined seed q) (hle : m.distance seed q ≤ m.distance seed p') : q ∈ t.marked := by
  by_cases hclose : m.distance seed q ≤ m.distance seed p
  · rw [hmarked]
    exact List.mem_append_left _ (hs.full p rest hq q hj hclose)
  · have hlayer := hs.le_succ_turn hm hq hmarked (q := p') (by simp [marked, hq'])
    obtain ⟨r, hr, hrq, hd⟩ := hj.exists_closer (n := m.distance seed p) (by omega)
    have hmem : r ∈ t.visited ++ t.queue := by
      have hold := hs.full p rest hq r hr hd.le
      rw [← marked, hmarked]
      exact List.mem_append_left _ hold
    have hsort := hs.sorted_turn hm hq hmarked
    rw [marked, hq'] at hsort
    have hwaits := List.pairwise_cons.mp (List.pairwise_append.mp hsort).2.1
    have hnot : r ∉ t.queue := by
      rw [hq', List.mem_cons]
      rintro (rfl | hwait)
      · omega
      · have := hwaits.1 r hwait
        omega
    exact hs.next_turn hm hq hmarked hvisited
      ((List.mem_append.mp hmem).resolve_right hnot) hrq hj.inked_right

end Turn

/-- **A turn keeps the layers.** -/
theorem Layered.turn (hm : Marks m s) (hs : Layered m seed s) (hst : s.next? = some t) :
    Layered m seed t := by
  obtain ⟨p, rest, hq, hvisited, hqueue, -⟩ := next?_cases hst
  have hmarked := marked_next? hq hvisited hqueue
  refine ⟨fun q hqt => ?_, hs.sorted_turn hm hq hmarked,
    fun before q after he hne => hs.parent_turn hm hq hmarked he hne,
    fun a ha b hab hb => hs.next_turn hm hq hmarked hvisited ha hab hb,
    fun p' rest' hq' q hqt => ?_,
    fun p' rest' hq' q hj hle => hs.full_turn hm hq hmarked hvisited hq' hj hle⟩
  · rw [hmarked, List.mem_append] at hqt
    exact hqt.elim (hs.joined q) fun hnew => (hs.distance_of_new hm hq hnew).2.1
  · have hlayer := hs.le_succ_turn hm hq hmarked hqt
    have hfront := hs.le_next hm hq hqueue hq'
    omega

theorem Reached.layered (h : m.get seed = true) (hs : Reached m seed s) : Layered m seed s := by
  induction hs with
  | start => exact layered_start h
  | turn hs hst ih => exact ih.turn hs.marks hst

/-- **A search visits the pixels by their distances.** -/
theorem layered_visits (h : m.get seed = true) :
    (visits m seed).Pairwise (fun p q => m.distance seed p ≤ m.distance seed q) ∧
      ∀ before p after, visits m seed = before ++ p :: after → before ≠ [] →
        ∃ q ∈ before, q.Adjacent p ∧ m.distance seed p = m.distance seed q + 1 := by
  have hstart : Reached m seed (Search.start m seed) := .start
  have hend := hstart.finish.layered h
  have hmarked : (start m seed).finish.marked = visits m seed := by
    rw [marked, queue_finish, List.append_nil, visits]
  exact ⟨hmarked ▸ hend.sorted, hmarked ▸ hend.parent⟩

end Search

namespace Mask

/-- **An island is drawn layer by layer.**  Along its pixels, the length of the shortest path from
its first pixel never decreases, and from one pixel to the next it never grows by more than one.
Every pixel but the first touches an earlier pixel whose shortest path is shorter by exactly one. -/
theorem islands_layered {m : Mask} {i : Island} (hi : i ∈ m.islands) :
    ∃ seed, i.first? = some seed ∧
      (∀ p ∈ i.pixels, IsLeast {n | m.JoinedIn seed n p} (m.distance seed p)) ∧
      i.pixels.Pairwise (fun p q => m.distance seed p ≤ m.distance seed q) ∧
      i.pixels.IsChain (fun p q => m.distance seed q ≤ m.distance seed p + 1) ∧
      ∀ before p after, i.pixels = before ++ p :: after → before ≠ [] →
        ∃ q ∈ before, q.Adjacent p ∧ m.distance seed p = m.distance seed q + 1 := by
  obtain ⟨seed, hseed, hfirst, rfl⟩ := exists_flood_of_mem_islands hi
  obtain ⟨hsorted, hparent⟩ := Search.layered_visits hseed
  refine ⟨seed, hfirst, fun p hp => ?_, ?_⟩
  · have hjoined := (Flood.mem_island_flood hseed).mp hp
    exact ⟨hjoined.joinedIn_distance, fun n hn => hn.distance_le⟩
  · rw [Flood.pixels_island_eq_visits hseed]
    refine ⟨hsorted, ?_, hparent⟩
    rw [List.isChain_iff_forall_rel_of_append_cons_cons]
    intro a b before after he
    -- A pixel is one farther than its parent, which is no farther than the pixel just before.
    obtain ⟨q, hq, -, hd⟩ := hparent (before ++ [a]) b after (by rw [he]; simp) (by simp)
    have hqa : m.distance seed q ≤ m.distance seed a := by
      rcases List.mem_append.mp hq with hq | hq
      · rw [he] at hsorted
        exact (List.pairwise_append.mp hsorted).2.2 q hq a List.mem_cons_self
      · rw [List.mem_singleton.mp hq]
    omega

/-- The pixels of the block are at the distances 0, 1, 1, 2, 2 and 3. -/
theorem islands_layered_block :
    block ∈ blocked.islands ∧
      ∃ seed, block.first? = some seed ∧
        (∀ p ∈ block.pixels,
          IsLeast {n | blocked.JoinedIn seed n p} (blocked.distance seed p)) ∧
        block.pixels.Pairwise (fun p q => blocked.distance seed p ≤ blocked.distance seed q) ∧
        block.pixels.IsChain
          (fun p q => blocked.distance seed q ≤ blocked.distance seed p + 1) ∧
        ∀ before p after, block.pixels = before ++ p :: after → before ≠ [] →
          ∃ q ∈ before, q.Adjacent p ∧
            blocked.distance seed p = blocked.distance seed q + 1 :=
  ⟨block_mem_islands, islands_layered block_mem_islands⟩

end Mask

end PenPlotter
