import Mathlib.Data.List.Perm.Basic
import PenPlotter.Tour

/-!
# Tours are greedy

A *candidate* is an island with its place in the list it was given in.  From where the plotter is,
candidates are ranked by the distance to their entries and then by their places (`Closer`).  An
order of candidates is *greedy* when each is closer than all that come after it, seen from the exit
of the one before; a list of candidates has at most one greedy order (`Greedy.unique`).

The scan behind `Pool.nearest?` keeps the first of the nearest islands read so far (`Best`), and a
pool keeps its islands in the order they were given through every removal (`Pool.Takes`).

* `exists_greedy`: the selections of a tour are a greedy order of the candidates of its pool.
* `Tour.length_selections`: the length of a tour is the number of islands it will yet draw, before
  the first selection and after every other (`Tour.Run`).

**Main statement** (`planTour_greedy`): `planTour` draws the candidates in their one greedy order.
-/

namespace PenPlotter

/-- The distance from a position to the entry of an island. -/
def Island.distance (position : Pixel) (i : Island) : UInt32 :=
  (i.first?.map position.chebyshev).getD 0

theorem Island.exists_first?_of_isEmpty {i : Island} (h : i.isEmpty = false) :
    ∃ entry, i.first? = some entry := by
  obtain ⟨pixels⟩ := i
  cases pixels with
  | nil => cases h
  | cons entry _ => exact ⟨entry, rfl⟩

namespace Pool

/-! ### The nearest island -/

/-- The choice from the islands read so far is the first of the nearest. -/
def Best (position : Pixel) (read : List (Island × Nat)) : Option (Nat × UInt32) → Prop
  | none => read = []
  | some (index, distance) => ∃ before i after, read = before ++ (i, index) :: after ∧
      distance = i.distance position ∧ (∀ c ∈ before, distance < c.1.distance position) ∧
      ∀ c ∈ after, distance ≤ c.1.distance position

theorem Best.closer {position : Pixel} {read : List (Island × Nat)} {best : Option (Nat × UInt32)}
    (hb : Best position read best) {next : Island × Nat} (hn : next.1.isEmpty = false) :
    Best position (read ++ [next]) (closer position best next) := by
  obtain ⟨entry, hentry⟩ := Island.exists_first?_of_isEmpty hn
  have hd : position.chebyshev entry = next.1.distance position := by
    rw [Island.distance, hentry]
    rfl
  rcases best with _ | ⟨index, distance⟩
  · obtain rfl : read = [] := hb
    simp only [Pool.closer, hentry]
    exact ⟨[], next.1, [], rfl, hd, by simp, by simp⟩
  · obtain ⟨before, i, after, hread, hdist, hbefore, hafter⟩ := hb
    simp only [Pool.closer, hentry, hd]
    split
    case isTrue hlt =>
      -- The next island is strictly nearer than the best so far, hence than all read so far.
      refine ⟨read, next.1, [], rfl, rfl, ?_, by simp⟩
      intro c hc
      rw [hread, List.mem_append, List.mem_cons] at hc
      rcases hc with hc | rfl | hc
      · exact UInt32.lt_trans hlt (hbefore c hc)
      · exact hdist ▸ hlt
      · exact UInt32.lt_of_lt_of_le hlt (hafter c hc)
    case isFalse hge =>
      refine ⟨before, i, after ++ [next], by simp [hread], hdist, hbefore, ?_⟩
      intro c hc
      rcases List.mem_append.mp hc with hc | hc
      · exact hafter c hc
      · obtain rfl := List.mem_singleton.mp hc
        exact UInt32.not_lt.mp hge

theorem Best.foldl {position : Pixel} :
    ∀ {rest read : List (Island × Nat)} {best : Option (Nat × UInt32)}, Best position read best →
      (∀ c ∈ rest, c.1.isEmpty = false) →
      Best position (read ++ rest) (rest.foldl (Pool.closer position) best)
  | [], read, best, hb, _ => by rwa [List.append_nil]
  | next :: rest, read, best, hb, hrest => by
      obtain ⟨hn, hrest⟩ := List.forall_mem_cons.mp hrest
      have := (hb.closer hn).foldl hrest
      rwa [List.append_assoc] at this

theorem best_nearest? {position : Pixel} {islands : List Island}
    (h : ∀ i ∈ islands, i.isEmpty = false) :
    Best position islands.zipIdx (nearest? position islands) := by
  have hempty : Best position [] none := rfl
  refine hempty.foldl fun c hc => h c.1 ?_
  exact List.fst_mem_of_mem_zipIdx hc

/-- The island taken from a pool is nearer than those given before it and no farther than those
given after it, and the others stay in their order. -/
def Takes (position : Pixel) (p : Pool) (s : Selection) (rest : Pool) : Prop :=
  ∃ before after, p.islands = before ++ s.island :: after ∧ rest.islands = before ++ after ∧
    (∀ i ∈ before, s.island.distance position < i.distance position) ∧
    ∀ i ∈ after, s.island.distance position ≤ i.distance position

theorem zipIdx_split {α : Type} {l : List α} {before after : List (α × Nat)} {a : α} {k : Nat}
    (h : l.zipIdx = before ++ (a, k) :: after) :
    l = before.map Prod.fst ++ a :: after.map Prod.fst ∧ k = before.length := by
  constructor
  · have := congrArg (List.map Prod.fst) h
    rwa [List.zipIdx_map_fst, List.map_append] at this
  · have hk := congrArg (fun l => l[before.length]?) h
    simp only [List.getElem?_zipIdx, Nat.zero_add, List.getElem?_append_right (Nat.le_refl _),
      Nat.sub_self, List.getElem?_cons_zero, Option.map_eq_some_iff, Prod.mk.injEq] at hk
    obtain ⟨-, -, -, hk⟩ := hk
    exact hk.symm

theorem takeNearest?_cases (p : Pool) (position : Pixel) :
    p.islands = [] ∧ p.takeNearest? position = none ∨
      ∃ s rest, p.takeNearest? position = some (s, rest) ∧ Takes position p s rest := by
  have hb : Best position p.islands.zipIdx (nearest? position p.islands) :=
    best_nearest? p.drawable
  cases hn : nearest? position p.islands with
  | none =>
      rw [hn] at hb
      refine .inl ⟨List.zipIdx_eq_nil_iff.mp hb, ?_⟩
      simp [takeNearest?, hn]
  | some best =>
      obtain ⟨index, distance⟩ := best
      rw [hn] at hb
      obtain ⟨before, i, after, hzip, rfl, hbefore, hafter⟩ := hb
      obtain ⟨hislands, rfl⟩ := zipIdx_split hzip
      have hget : p.islands[before.length]? = some i := by simp [hislands]
      refine .inr ⟨⟨position, before.length, i.distance position, (p.erase before.length).size, i⟩,
        p.erase before.length, by simp [takeNearest?, hn, hget], before.map Prod.fst,
        after.map Prod.fst, hislands, ?_, ?_, ?_⟩
      · simp [erase, hislands, List.eraseIdx_append_of_length_le]
      · exact List.forall_mem_map.mpr hbefore
      · exact List.forall_mem_map.mpr hafter

end Pool

namespace Tour

/-- A tour ends when no island is left. -/
theorem islands_of_next?_eq_none {t : Tour} (h : t.next? = none) : t.pool.islands = [] := by
  rcases t.pool.takeNearest?_cases t.position with ⟨hnil, -⟩ | ⟨s, rest, hs, -⟩
  · exact hnil
  · rw [next?, hs] at h
    cases h

/-- A selection takes the nearest island, and the plotter is at its exit then. -/
theorem takes_of_next? {t u : Tour} {s : Selection} (h : t.next? = some (s, u)) :
    Pool.Takes t.position t.pool s u.pool ∧ u.position = Pool.after t.position s.island := by
  rcases t.pool.takeNearest?_cases t.position with ⟨-, hn⟩ | ⟨s', rest, hs, htakes⟩
  · rw [next?, hn] at h
    cases h
  · rw [next?, hs] at h
    cases h
    exact ⟨htakes, rfl⟩

/-! ### Stages of a tour -/

/-- The tour makes the selections `chosen` and is at `u` then. -/
inductive Run : Tour → List Selection → Tour → Prop where
  | refl (t : Tour) : Run t [] t
  | next {t u v : Tour} {s : Selection} {chosen : List Selection}
      (h : t.next? = some (s, u)) (r : Run u chosen v) : Run t (s :: chosen) v

/-- At every stage, what was chosen and what is yet to be chosen make up the whole tour. -/
theorem Run.selections {t u : Tour} {chosen : List Selection} (h : Run t chosen u) :
    t.selections = chosen ++ u.selections := by
  induction h with
  | refl => rfl
  | next h _ ih => rw [selections_of_some h, ih, List.cons_append]

/-- The plotter is at the exit of the island chosen last. -/
theorem Run.position {t u : Tour} {chosen : List Selection} (h : Run t chosen u) :
    u.position = (chosen.map Selection.island).foldl Pool.after t.position := by
  induction h with
  | refl => rfl
  | next h _ ih => rw [ih, (takes_of_next? h).2, List.map_cons, List.foldl_cons]

/-- **The length of a tour is the number of islands it will yet draw.** -/
theorem length_selections (t : Tour) : t.selections.length = t.length := by
  fun_induction selections t with
  | case1 t hn =>
      rw [length, Pool.size, islands_of_next?_eq_none hn]
      rfl
  | case2 t s u hs ih =>
      rw [List.length_cons, ih]
      exact length_of_next? hs

end Tour

/-! ### Greedy orders -/

/-- Islands with their places in the list they were given in, less those without pixels. -/
def candidates (islands : List Island) : List (Island × Nat) :=
  islands.zipIdx.filter fun c => !c.1.isEmpty

/-- The candidate `c` comes before `d`: its entry is nearer, or as near and it was given before. -/
def Closer (position : Pixel) (c d : Island × Nat) : Prop :=
  c.1.distance position < d.1.distance position ∨
    c.1.distance position = d.1.distance position ∧ c.2 < d.2

/-- Every candidate is closer than those that come after it, the first seen from the position and
each other one from the exit of the candidate before it. -/
inductive Greedy : Pixel → List (Island × Nat) → Prop where
  | nil (position : Pixel) : Greedy position []
  | cons {position : Pixel} {c : Island × Nat} {cs : List (Island × Nat)}
      (h : ∀ d ∈ cs, Closer position c d) (t : Greedy (Pool.after position c.1) cs) :
      Greedy position (c :: cs)

theorem Closer.asymm {position : Pixel} {c d : Island × Nat} (h : Closer position c d) :
    ¬ Closer position d c := by
  simp only [Closer, UInt32.lt_iff_toNat_lt, ← UInt32.toNat_inj] at h ⊢
  omega

/-- **Candidates have at most one greedy order.** -/
theorem Greedy.unique {position : Pixel} {cs ds : List (Island × Nat)} (hc : Greedy position cs)
    (hd : Greedy position ds) (hp : cs.Perm ds) : cs = ds := by
  induction hc generalizing ds with
  | nil => exact (List.nil_perm.mp hp).symm
  | @cons position c cs hcs _ ih =>
      cases hd with
      | nil => exact absurd hp.length_eq (Nat.succ_ne_zero _)
      | @cons _ d ds hds hd' =>
          -- Both heads are closer than every other candidate, so they are the same.
          have hcd : c = d := by
            by_contra hne
            have hd := (List.mem_cons.mp (hp.mem_iff.mpr List.mem_cons_self)).resolve_left
              fun e => hne e.symm
            have hc := (List.mem_cons.mp (hp.mem_iff.mp List.mem_cons_self)).resolve_left hne
            exact (hcs d hd).asymm (hds c hc)
          subst hcd
          rw [ih hd' hp.cons_inv]

/-- The selections of a tour are a greedy order of the islands of its pool, whatever places these
are given, as long as the places grow. -/
theorem exists_greedy (t : Tour) :
    ∀ {cs : List (Island × Nat)}, cs.map Prod.fst = t.pool.islands →
      cs.Pairwise (fun c d => c.2 < d.2) →
      ∃ order, order.Perm cs ∧ Greedy t.position order ∧
        order.map Prod.fst = t.selections.map Selection.island := by
  fun_induction Tour.selections t with
  | case1 t hn =>
      intro cs hcs _
      rw [Tour.islands_of_next?_eq_none hn, List.map_eq_nil_iff] at hcs
      exact ⟨[], hcs ▸ List.Perm.nil, .nil _, rfl⟩
  | case2 t s u hs ih =>
      intro cs hcs hplaces
      obtain ⟨htakes, hu⟩ := Tour.takes_of_next? hs
      obtain ⟨before, after, hsplit, hrest, hbefore, hafter⟩ := htakes
      rw [hsplit] at hcs
      obtain ⟨bs, cs', rfl, rfl, hcs'⟩ := List.map_eq_append_iff.mp hcs
      obtain ⟨c, as, rfl, hc, rfl⟩ := List.map_eq_cons_iff.mp hcs'
      have hmid : (bs ++ as).Sublist (bs ++ c :: as) :=
        (List.sublist_cons_self c as).append_left bs
      obtain ⟨order, hperm, hgreedy, horder⟩ :=
        ih (by rw [hrest, List.map_append]) (hplaces.sublist hmid)
      refine ⟨c :: order, (hperm.cons c).trans List.perm_middle.symm, .cons (fun d hd => ?_) ?_, ?_⟩
      · rw [← hc] at hbefore hafter
        rcases List.mem_append.mp (hperm.mem_iff.mp hd) with hd | hd
        · exact .inl (hbefore d.1 (List.mem_map_of_mem hd))
        · have hplace := (List.pairwise_cons.mp (List.pairwise_append.mp hplaces).2.1).1 d hd
          rcases UInt32.lt_or_eq_of_le (hafter d.1 (List.mem_map_of_mem hd)) with hlt | heq
          · exact .inl hlt
          · exact .inr ⟨heq, hplace⟩
      · rw [hc, ← hu]
        exact hgreedy
      · rw [List.map_cons, List.map_cons, hc, horder]

/-! ### The tour of a list of islands -/

theorem map_fst_candidates (islands : List Island) :
    (candidates islands).map Prod.fst = islands.filter fun i => !i.isEmpty := by
  conv_rhs => rw [← List.zipIdx_map_fst 0 islands]
  rw [List.filter_map]
  rfl

theorem candidates_pairwise (islands : List Island) :
    (candidates islands).Pairwise fun c d => c.2 < d.2 := by
  refine List.Pairwise.filter _ (List.pairwise_map.mp ?_)
  rw [List.zipIdx_map_snd]
  exact List.pairwise_lt_range'

theorem exists_greedy_planTour (islands : List Island) (start : Pixel) :
    ∃ order, order.Perm (candidates islands) ∧ Greedy start order ∧
      planTour islands start = order.map Prod.fst := by
  obtain ⟨order, hperm, hgreedy, horder⟩ :=
    exists_greedy (Tour.start islands start) (map_fst_candidates islands)
      (candidates_pairwise islands)
  exact ⟨order, hperm, hgreedy, horder.symm⟩

theorem planTour_perm (islands : List Island) (start : Pixel) :
    (planTour islands start).Perm (islands.filter fun i => !i.isEmpty) := by
  obtain ⟨order, hperm, -, horder⟩ := exists_greedy_planTour islands start
  rw [horder, ← map_fst_candidates]
  exact hperm.map Prod.fst

/-- A tour draws no island without pixels. -/
theorem isEmpty_of_mem_planTour {islands : List Island} {start : Pixel} {i : Island}
    (h : i ∈ planTour islands start) : i.isEmpty = false := by
  have := (List.mem_filter.mp ((planTour_perm islands start).mem_iff.mp h)).2
  simpa using this

/-- **A tour is the greedy order of its islands.**  `planTour` draws every island that has pixels,
once for each time it was given.  With the places in which they were given, its islands are the one
order in which each is the closest of those that are left, by the distance to its entry and then by
its place.  At every stage, the length of the tour is the number of islands it will yet draw. -/
theorem planTour_greedy (islands : List Island) (start : Pixel) :
    (planTour islands start).Perm (islands.filter fun i => !i.isEmpty) ∧
      (∃ order, order.Perm (candidates islands) ∧ Greedy start order ∧
        planTour islands start = order.map Prod.fst ∧
        ∀ other, other.Perm (candidates islands) → Greedy start other → other = order) ∧
      ∀ chosen t, Tour.Run (Tour.start islands start) chosen t →
        planTour islands start = (chosen ++ t.selections).map Selection.island ∧
          t.length = t.selections.length := by
  obtain ⟨order, hperm, hgreedy, horder⟩ := exists_greedy_planTour islands start
  refine ⟨planTour_perm islands start, ⟨order, hperm, hgreedy, horder, ?_⟩, ?_⟩
  · intro other hother hother'
    exact hother'.unique hgreedy (hother.trans hperm.symm)
  · intro chosen t ht
    exact ⟨by rw [planTour, ht.selections], t.length_selections.symm⟩

end PenPlotter
