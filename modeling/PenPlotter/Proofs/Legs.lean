import PenPlotter.Proofs.Travel

/-!
# The legs of a trace

A record is one unbroken way.  A command either goes on with the open leg or begins a leg where the
open one ends (`Obeys.legs`), so the legs, in the order they are begun, lead from the origin to the
turtle and hold every unit step once (`Follows`).  The legs that a trace leaves out go nowhere, so
the same is true of those it keeps (`Trace.Legs`).

**Main statement** (`replayIn_legs`): the shape of a trace, for every program whose replay succeeds,
and the range of the coordinates, whether it succeeds or not.
-/

namespace PenPlotter

/-- Legs lead from `a` to `b`: the first starts at `a`, each starts where the one before it ends, and
the last ends at `b`. -/
inductive Leads : Point → List (List Point) → Point → Prop where
  | nil (a : Point) : Leads a [] a
  | cons {a b c : Point} {leg : List Point} {legs : List (List Point)} :
      leg.head? = some a → leg.getLast? = some b → Leads b legs c → Leads a (leg :: legs) c

theorem Leads.concat {a b c : Point} {leg : List Point} {legs : List (List Point)}
    (h : Leads a legs b) (hb : leg.head? = some b) (hc : leg.getLast? = some c) :
    Leads a (legs ++ [leg]) c := by
  induction h with
  | nil => exact .cons hb hc (.nil c)
  | cons hhead hlast _ ih => exact .cons hhead hlast (ih hb)

/-- How often the pen is lowered: how many commands lower it while it is up. -/
def Turtle.lowerings (t : Turtle) : List Command → Nat
  | [] => 0
  | c :: cs => (if c = .penDown ∧ t.pen = .up then 1 else 0) + (t.obey c).lowerings cs

theorem Turtle.lowerings_concat (t : Turtle) (cs : List Command) (c : Command) :
    t.lowerings (cs ++ [c]) =
      t.lowerings cs + if c = .penDown ∧ (t.after cs).pen = .up then 1 else 0 := by
  induction cs generalizing t with
  | nil => exact Nat.add_comm _ _
  | cons d cs ih =>
      rw [List.cons_append, lowerings, ih, lowerings, Nat.add_assoc]
      rfl

namespace Leg

theorem points_eq (l : Leg) : l.points = l.trail.reverse ++ [l.tip] :=
  List.reverse_cons

theorem points_ne_nil (l : Leg) : l.points ≠ [] := by
  rw [points_eq]
  exact List.concat_ne_nil _ _

theorem getLast?_points (l : Leg) : l.points.getLast? = some l.tip := by
  rw [points_eq, List.getLast?_concat]

theorem head?_points_through (l : Leg) (ps : List Point) :
    (l.through ps).points.head? = l.points.head? := by
  rw [points_through, List.head?_append_of_ne_nil _ l.points_ne_nil]

theorem tail_points_through (l : Leg) (ps : List Point) :
    (l.through ps).points.tail = l.points.tail ++ ps := by
  rw [points_through, List.tail_append_of_ne_nil l.points_ne_nil]

theorem isChain_points_through {l : Leg} {ps : List Point} (h : l.points.IsChain UnitApart)
    (hps : (l.tip :: ps).IsChain UnitApart) : (l.through ps).points.IsChain UnitApart := by
  rw [points_eq] at h
  rw [points_through, points_eq, List.append_assoc, List.singleton_append, List.isChain_split]
  exact ⟨h, hps⟩

/-- A leg with no points behind it goes nowhere. -/
theorem points_of_trail_eq_nil {l : Leg} (h : l.trail = []) : l.points = [l.tip] := by
  rw [points_eq, h]
  rfl

end Leg

/-- The leg is begun when `i` commands have been obeyed, where the turtle is then and with the pen as
it is then; the pen has changed just before, unless this is the start. -/
structure Begun (cs : List Command) (i : Nat) (l : Leg) : Prop where
  le : i ≤ cs.length
  head : l.points.head? = some (Turtle.fresh.after (cs.take i)).position
  pen : l.pen = (Turtle.fresh.after (cs.take i)).pen
  changed : ∀ j, i = j + 1 → (Turtle.fresh.after (cs.take j)).pen ≠ l.pen

theorem Begun.concat {cs : List Command} {i : Nat} {l : Leg} (h : Begun cs i l) (c : Command) :
    Begun (cs ++ [c]) i l := by
  have htake {j : Nat} (hj : j ≤ i) : (cs ++ [c]).take j = cs.take j :=
    List.take_append_of_le_length (hj.trans h.le)
  refine ⟨?_, ?_, ?_, ?_⟩
  · rw [List.length_append]
    exact Nat.le_add_right_of_le h.le
  · rw [htake (Nat.le_refl i)]
    exact h.head
  · rw [htake (Nat.le_refl i)]
    exact h.pen
  · intro j hj
    rw [htake (hj ▸ Nat.le_succ j)]
    exact h.changed j hj

theorem Begun.through {cs : List Command} {i : Nat} {l : Leg} (h : Begun cs i l)
    (ps : List Point) : Begun cs i (l.through ps) where
  le := h.le
  head := (l.head?_points_through ps).trans h.head
  pen := (l.pen_through ps).trans h.pen
  changed := by
    rw [l.pen_through ps]
    exact h.changed

namespace Sketch

variable {bounds : Option Dimensions} {s u : Sketch} {c : Command} {cs : List Command}

theorem setPen_cases (s : Sketch) (pen : Pen) :
    s.leg.pen = pen ∧ s.setPen pen = s ∨
      pen ≠ s.leg.pen ∧
        s.setPen pen = ⟨s.heading, Leg.start pen s.leg.tip, s.leg :: s.finished⟩ := by
  by_cases h : s.leg.pen = pen
  · exact .inl ⟨h, if_pos h⟩
  · exact .inr ⟨fun he => h he.symm, if_neg h⟩

/-- **A command goes on with the open leg or begins one where it ends**, the latter just when it
changes the pen. -/
theorem Obeys.legs (h : Obeys bounds s c u) :
    (u.leg = s.leg.through (s.turtle.steps c) ∧ u.finished = s.finished ∧
        ¬ (c = .penDown ∧ s.leg.pen = .up)) ∨
      ∃ pen, pen ≠ s.leg.pen ∧ u.leg = Leg.start pen s.leg.tip ∧ u.finished = s.leg :: s.finished ∧
        s.turtle.steps c = [] ∧ (c = .penDown ↔ pen = .down) := by
  cases h with
  | penUp =>
      rcases s.setPen_cases .up with ⟨-, he⟩ | ⟨hpen, he⟩
      · exact .inl ⟨by rw [he]; rfl, by rw [he], by simp⟩
      · exact .inr ⟨.up, hpen, by rw [he], by rw [he], rfl, by simp⟩
  | penDown =>
      rcases s.setPen_cases .down with ⟨hsame, he⟩ | ⟨hpen, he⟩
      · exact .inl ⟨by rw [he]; rfl, by rw [he], by simp [hsame]⟩
      · exact .inr ⟨.down, hpen, by rw [he], by rw [he], rfl, by simp⟩
  | rotate => exact .inl ⟨rfl, rfl, by simp⟩
  | move => exact .inl ⟨rfl, rfl, by simp⟩

/-- The record follows the way of the turtle that has obeyed the commands. -/
structure Follows (cs : List Command) (s : Sketch) : Prop where
  turtle : s.turtle = Turtle.fresh.after cs
  /-- The legs were begun one after the other; here they are latest first. -/
  begun : ∃ i before, before.map Prod.snd = s.finished ∧
    (∀ b ∈ (i, s.leg) :: before, Begun cs b.1 b.2) ∧
    ((i, s.leg) :: before).Pairwise fun a b => b.1 < a.1
  unit : ∀ l ∈ s.leg :: s.finished, l.points.IsChain UnitApart
  leads : ∃ a, Leads (0, 0) (s.finished.reverse.map Leg.points) a ∧ s.leg.points.head? = some a
  path : s.finished.reverse.flatMap (fun l => l.points.tail) ++ s.leg.points.tail =
    Turtle.fresh.path cs
  strokes : ((s.leg :: s.finished).filter fun l => l.pen = .down).length =
    Turtle.fresh.lowerings cs

theorem follows_fresh : Follows [] fresh where
  turtle := rfl
  begun := ⟨0, [], rfl, by
    intro b hb
    obtain rfl := List.mem_singleton.mp hb
    exact ⟨Nat.le_refl 0, rfl, rfl, fun j hj => by cases hj⟩, List.pairwise_singleton ..⟩
  unit := by
    intro l hl
    obtain rfl := List.mem_singleton.mp hl
    exact .singleton _
  leads := ⟨(0, 0), .nil _, rfl⟩
  path := rfl
  strokes := rfl

/-- Going on with the open leg keeps to the way. -/
theorem Follows.extend (h : Follows cs s) (ho : Obeys bounds s c u)
    (hleg : u.leg = s.leg.through (s.turtle.steps c)) (hfinished : u.finished = s.finished)
    (hc : ¬ (c = .penDown ∧ s.leg.pen = .up)) : Follows (cs ++ [c]) u where
  turtle := by rw [ho.turtle, h.turtle, Turtle.after_concat]
  begun := by
    obtain ⟨i, before, hbefore, hbegun, horder⟩ := h.begun
    obtain ⟨hopen, hold⟩ := List.forall_mem_cons.mp hbegun
    refine ⟨i, before, hbefore.trans hfinished.symm, List.forall_mem_cons.mpr ⟨?_, ?_⟩, ?_⟩
    · rw [hleg]
      exact (hopen.through _).concat c
    · exact fun b hb => (hold b hb).concat c
    · obtain ⟨hlt, hbefore⟩ := List.pairwise_cons.mp horder
      exact List.pairwise_cons.mpr ⟨hlt, hbefore⟩
  unit := by
    obtain ⟨hopen, hold⟩ := List.forall_mem_cons.mp h.unit
    rw [hleg, hfinished]
    exact List.forall_mem_cons.mpr
      ⟨Leg.isChain_points_through hopen (s.turtle.isChain_steps c), hold⟩
  leads := by
    rw [hleg, hfinished, Leg.head?_points_through]
    exact h.leads
  path := by
    rw [hleg, hfinished, Leg.tail_points_through, ← List.append_assoc, h.path, h.turtle,
      Turtle.path_concat]
  strokes := by
    have hpen : (Turtle.fresh.after cs).pen = s.leg.pen := (congrArg Turtle.pen h.turtle).symm
    rw [Turtle.lowerings_concat, ← h.strokes, hpen, if_neg hc, hleg, hfinished]
    simp only [List.filter_cons, Leg.pen_through]
    split <;> rfl

/-- The leg that the last command begins, by changing the pen. -/
theorem Follows.begun_start {pen : Pen} (h : Follows cs s)
    (hu : u.turtle = Turtle.fresh.after (cs ++ [c])) (hpen : pen ≠ s.leg.pen)
    (hleg : u.leg = Leg.start pen s.leg.tip) : Begun (cs ++ [c]) (cs.length + 1) u.leg := by
  have hall : (cs ++ [c]).take (cs.length + 1) = cs ++ [c] := List.take_of_length_le (by simp)
  refine ⟨by simp, ?_, ?_, ?_⟩
  · rw [hall, ← hu, hleg]
    exact congrArg some (congrArg Leg.tip hleg).symm
  · rw [hall, ← hu]
    rfl
  · intro j hj
    obtain rfl := Nat.succ.inj hj
    rw [List.take_left, ← h.turtle, hleg]
    exact hpen.symm

/-- A change of the pen begins a stroke just when it lowers the pen. -/
theorem Follows.strokes_start {pen : Pen} (h : Follows cs s) (hpen : pen ≠ s.leg.pen)
    (hc : c = .penDown ↔ pen = .down) :
    ((Leg.start pen s.leg.tip :: s.leg :: s.finished).filter fun l => l.pen = .down).length =
      Turtle.fresh.lowerings (cs ++ [c]) := by
  have hup : (Turtle.fresh.after cs).pen = s.leg.pen := (congrArg Turtle.pen h.turtle).symm
  rw [Turtle.lowerings_concat, ← h.strokes, hup]
  cases pen with
  | up =>
      have hno : ¬ c = .penDown := fun he => by cases hc.mp he
      simp [hno]
  | down =>
      have hs : s.leg.pen = .up := by
        cases hp : s.leg.pen with
        | up => rfl
        | down => exact absurd hp.symm hpen
      simp [hc.mpr rfl, hs]

/-- Beginning a leg where the open one ends keeps to the way. -/
theorem Follows.begin {pen : Pen} (h : Follows cs s) (ho : Obeys bounds s c u)
    (hpen : pen ≠ s.leg.pen) (hleg : u.leg = Leg.start pen s.leg.tip)
    (hfinished : u.finished = s.leg :: s.finished) (hsteps : s.turtle.steps c = [])
    (hc : c = .penDown ↔ pen = .down) : Follows (cs ++ [c]) u := by
  have hturtle : u.turtle = Turtle.fresh.after (cs ++ [c]) := by
    rw [ho.turtle, h.turtle, Turtle.after_concat]
  refine ⟨hturtle, ?_, ?_, ?_, ?_, ?_⟩
  · obtain ⟨i, before, hbefore, hbegun, horder⟩ := h.begun
    refine ⟨cs.length + 1, (i, s.leg) :: before, ?_, List.forall_mem_cons.mpr ⟨?_, ?_⟩, ?_⟩
    · rw [hfinished, List.map_cons, hbefore]
    · exact h.begun_start hturtle hpen hleg
    · exact fun b hb => (hbegun b hb).concat c
    · exact List.pairwise_cons.mpr ⟨fun b hb => Nat.lt_succ_of_le (hbegun b hb).le, horder⟩
  · rw [hleg, hfinished]
    exact List.forall_mem_cons.mpr ⟨.singleton _, h.unit⟩
  · obtain ⟨a, ha, hhead⟩ := h.leads
    rw [hleg, hfinished, List.reverse_cons, List.map_append]
    exact ⟨s.leg.tip, ha.concat hhead s.leg.getLast?_points, rfl⟩
  · rw [Turtle.path_concat, ← h.turtle, hsteps, ← h.path, hleg, hfinished, List.reverse_cons,
      List.flatMap_append]
    simp [Leg.points_start]
  · rw [hleg, hfinished]
    exact h.strokes_start hpen hc

/-- **A command keeps to the way.** -/
theorem Follows.obey (h : Follows cs s) (ho : s.obey bounds c = .ok u) : Follows (cs ++ [c]) u := by
  have ho := obey_eq_ok_iff.mp ho
  rcases ho.legs with ⟨hleg, hfinished, hc⟩ | ⟨pen, hpen, hleg, hfinished, hsteps, hc⟩
  · exact h.extend ho hleg hfinished hc
  · exact h.begin ho hpen hleg hfinished hsteps hc

theorem follows_run (h : fresh.run bounds 0 cs = .ok s) : Follows cs s :=
  run_keeps [] (fun hs ho => hs.obey ho) follows_fresh h

end Sketch

/-! ### The legs a trace keeps -/

/-- The legs of a trace in the order they were begun, each with the number of commands obeyed before:
the strokes are those with the pen down and the travel those with the pen up.  They lead from the
origin to the turtle, and together they hold every unit step once, in the order it was taken. -/
structure Trace.Legs (t : Trace) (cs : List Command) (legs : List (Nat × Leg)) : Prop where
  begun : ∀ b ∈ legs, Begun cs b.1 b.2
  order : legs.Pairwise fun a b => a.1 < b.1
  strokes : t.strokes = ((legs.map Prod.snd).filter fun l => l.pen = .down).map Leg.points
  travel : t.travel = ((legs.map Prod.snd).filter fun l => l.pen = .up).map Leg.points
  leads : Leads (0, 0) (legs.map fun b => b.2.points) t.turtle.position
  path : legs.flatMap (fun b => b.2.points.tail) = Turtle.fresh.path cs

/-- A trace keeps the legs with the pen down and those that go anywhere. -/
def Leg.Kept (l : Leg) : Prop := l.pen = .down ∨ l.trail ≠ []

instance (l : Leg) : Decidable l.Kept := inferInstanceAs (Decidable (_ ∨ _))

/-- The legs that are not kept are not missed on the way. -/
theorem Leads.filter_kept {a b : Point} {legs : List Leg} (h : Leads a (legs.map Leg.points) b) :
    Leads a ((legs.filter fun l => l.Kept).map Leg.points) b := by
  induction legs generalizing a with
  | nil => exact h
  | cons l legs ih =>
      cases h with
      | cons hhead hlast hrest =>
          by_cases hl : l.Kept
          · rw [List.filter_cons_of_pos (by simpa using hl)]
            exact .cons hhead hlast (ih hrest)
          · rw [List.filter_cons_of_neg (by simpa using hl)]
            have hnil : l.trail = [] := by_contra fun hne => hl (.inr hne)
            rw [Leg.points_of_trail_eq_nil hnil] at hhead hlast
            obtain rfl : a = _ := Option.some.inj (hhead.symm.trans hlast)
            exact ih hrest

theorem flatMap_tail_filter_kept (legs : List Leg) :
    (legs.filter fun l => l.Kept).flatMap (fun l => l.points.tail) =
      legs.flatMap fun l => l.points.tail := by
  induction legs with
  | nil => rfl
  | cons l legs ih =>
      by_cases hl : l.Kept
      · rw [List.filter_cons_of_pos (by simpa using hl), List.flatMap_cons, ih, List.flatMap_cons]
      · have hnil : l.trail = [] := by_contra fun hne => hl (.inr hne)
        rw [List.filter_cons_of_neg (by simpa using hl), ih, List.flatMap_cons,
          Leg.points_of_trail_eq_nil hnil]
        rfl

/-- The trace of a record that keeps to the way has its legs in order. -/
theorem Sketch.Follows.exists_legs {cs : List Command} {s : Sketch} (h : s.Follows cs) :
    ∃ legs, s.trace.Legs cs legs := by
  obtain ⟨i, before, hbefore, hbegun, horder⟩ := h.begun
  obtain ⟨a, ha, hhead⟩ := h.leads
  let all := ((i, s.leg) :: before).reverse
  have hall : all.map Prod.snd = s.legs := by
    rw [List.map_reverse, List.map_cons, hbefore]
    rfl
  have hkept : (all.filter fun b => b.2.Kept).map Prod.snd = s.legs.filter fun l => l.Kept := by
    rw [← hall, List.filter_map]
    rfl
  have hlegs : s.legs = s.finished.reverse ++ [s.leg] := List.reverse_cons
  refine ⟨all.filter fun b => b.2.Kept, ?_, ?_, ?_, ?_, ?_, ?_⟩
  · intro b hb
    exact hbegun b (List.mem_reverse.mp (List.mem_filter.mp hb).1)
  · exact (List.pairwise_reverse.mpr horder).filter _
  · rw [hkept, List.filter_filter]
    refine congrArg (List.map Leg.points) (List.filter_congr fun l _ => ?_)
    by_cases hdown : l.pen = .down <;> simp [Leg.Kept, hdown]
  · rw [hkept, List.filter_filter]
    refine congrArg (List.map Leg.points) (List.filter_congr fun l _ => ?_)
    cases hpen : l.pen <;> simp [Leg.Kept, hpen]
  · have hleads : Leads (0, 0) (s.legs.map Leg.points) s.leg.tip := by
      rw [hlegs, List.map_append]
      exact ha.concat hhead s.leg.getLast?_points
    have := hleads.filter_kept
    rwa [← hkept, List.map_map] at this
  · have hpath : s.legs.flatMap (fun l => l.points.tail) = Turtle.fresh.path cs := by
      rw [hlegs, List.flatMap_append, ← h.path, List.flatMap_singleton]
    rw [← hpath, ← flatMap_tail_filter_kept, ← hkept, List.flatMap_map]

/-- The lengths of strokes and travel add up to the number of unit steps. -/
theorem Trace.Legs.sum_length {t : Trace} {cs : List Command} {legs : List (Nat × Leg)}
    (h : t.Legs cs legs) :
    ((t.strokes ++ t.travel).map fun leg => leg.length - 1).sum =
      (Turtle.fresh.path cs).length := by
  have key : ∀ ls : List Leg,
      (((ls.filter fun l => l.pen = .down).map Leg.points ++
        (ls.filter fun l => l.pen = .up).map Leg.points).map fun leg => leg.length - 1).sum =
        (ls.flatMap fun l => l.points.tail).length := by
    intro ls
    induction ls with
    | nil => rfl
    | cons l ls ih =>
        rw [List.flatMap_cons, List.length_append, List.length_tail, ← ih]
        cases hpen : l.pen
        · simp [hpen]
          omega
        · simp [hpen]
  rw [h.strokes, h.travel, key, ← h.path, List.flatMap_map]

/-! ### The shape of a trace -/

/-- The shape of the trace of a program. -/
structure Trace.Shape (t : Trace) (p : Program) : Prop where
  strokes : ∀ stroke ∈ t.strokes, stroke ≠ []
  travel : ∀ leg ∈ t.travel, 2 ≤ leg.length
  unit : ∀ leg ∈ t.strokes ++ t.travel, leg.IsChain UnitApart
  /-- There is a stroke for every command that lowers the pen while it is up. -/
  lowerings : t.strokes.length = Turtle.fresh.lowerings p.commands
  /-- The legs are one unbroken way that holds every step once. -/
  legs : ∃ legs, t.Legs p.commands legs
  travelUnits : ((t.strokes ++ t.travel).map fun leg => leg.length - 1).sum = p.counts.travelUnits
  /-- After any number of commands, and anywhere on the way there, the turtle is no farther from the
  origin than it has travelled. -/
  range : ∀ i, ∀ q ∈ (0, 0) :: Turtle.fresh.path (p.commands.take i),
    q.1.natAbs + q.2.natAbs ≤ (CommandCounts.ofCommands (p.commands.take i)).travelUnits ∧
      (CommandCounts.ofCommands (p.commands.take i)).travelUnits ≤
        65536 * (CommandCounts.ofCommands (p.commands.take i)).moves

section Shape

variable {bounds : Option Dimensions} {cs : List Command} {t : Trace}

theorem strokes_ne_nil {stroke : List Point} (h : replayIn bounds cs = .ok t)
    (hs : stroke ∈ t.strokes) : stroke ≠ [] := by
  obtain ⟨s, -, rfl⟩ := replayIn_eq_ok_iff.mp h
  obtain ⟨l, -, rfl⟩ := List.mem_map.mp hs
  exact l.points_ne_nil

theorem two_le_length_travel {leg : List Point} (h : replayIn bounds cs = .ok t)
    (hl : leg ∈ t.travel) : 2 ≤ leg.length := by
  obtain ⟨s, -, rfl⟩ := replayIn_eq_ok_iff.mp h
  obtain ⟨l, hmem, rfl⟩ := List.mem_map.mp hl
  have hgoes : l.pen = .up ∧ l.trail ≠ [] := by simpa using (List.mem_filter.mp hmem).2
  have := List.length_pos_iff.mpr hgoes.2
  rw [← l.length_trail]
  omega

theorem isChain_leg {leg : List Point} (h : replayIn bounds cs = .ok t)
    (hl : leg ∈ t.strokes ++ t.travel) : leg.IsChain UnitApart := by
  obtain ⟨s, hs, rfl⟩ := replayIn_eq_ok_iff.mp h
  have hunit : ∀ l ∈ s.legs, l.points.IsChain UnitApart := fun l hl =>
    (Sketch.follows_run hs).unit l (List.mem_reverse.mp hl)
  rcases List.mem_append.mp hl with hl | hl
  · obtain ⟨l, hmem, rfl⟩ := List.mem_map.mp hl
    exact hunit l (List.mem_filter.mp hmem).1
  · obtain ⟨l, hmem, rfl⟩ := List.mem_map.mp hl
    exact hunit l (List.mem_filter.mp hmem).1

theorem exists_legs_of_replayIn (h : replayIn bounds cs = .ok t) : ∃ legs, t.Legs cs legs := by
  obtain ⟨s, hs, rfl⟩ := replayIn_eq_ok_iff.mp h
  exact (Sketch.follows_run hs).exists_legs

theorem length_strokes (h : replayIn bounds cs = .ok t) :
    t.strokes.length = Turtle.fresh.lowerings cs := by
  obtain ⟨s, hs, rfl⟩ := replayIn_eq_ok_iff.mp h
  rw [← (Sketch.follows_run hs).strokes, Sketch.trace, List.length_map, Sketch.legs,
    List.filter_reverse, List.length_reverse]

theorem replayIn_take (h : replayIn bounds cs = .ok t) (i : Nat) :
    ∃ u, replayIn bounds (cs.take i) = .ok u := by
  obtain ⟨s, hs, -⟩ := replayIn_eq_ok_iff.mp h
  rw [← List.take_append_drop i cs] at hs
  obtain ⟨u, hu, -⟩ := Sketch.run_append_eq_ok_iff.mp hs
  exact ⟨u.trace, replayIn_eq_ok_iff.mpr ⟨u, hu, rfl⟩⟩

theorem shape_of_replayIn {p : Program} (h : replayIn bounds p.commands = .ok t) : t.Shape p where
  strokes _ := strokes_ne_nil h
  travel _ := two_le_length_travel h
  unit _ := isChain_leg h
  lowerings := length_strokes h
  legs := exists_legs_of_replayIn h
  travelUnits := by
    obtain ⟨legs, hlegs⟩ := exists_legs_of_replayIn h
    rw [hlegs.sum_length, length_path]
    rfl
  range i q hq := by
    obtain ⟨u, hu⟩ := replayIn_take h i
    exact ⟨natAbs_le_travelUnits hq, travelUnits_le hu⟩

end Shape

/-- A replay comes to the point, whether it succeeds in the end or not: the commands before some move
have been obeyed, the move may be made, and the point is on its way. -/
inductive Reached (bounds : Option Dimensions) (cs : List Command) : Point → Prop where
  | start : Reached bounds cs (0, 0)
  | step {i : Nat} {t : Trace} {units : UInt32} {q : Point} :
      replayIn bounds (cs.take i) = .ok t → cs[i]? = some (.move units) → units ≤ maxUnits →
      q ∈ (Turtle.fresh.after (cs.take i)).steps (.move units) → Reached bounds cs q

/-- No point is farther from the origin than the commands could lead if all were moves. -/
theorem Reached.natAbs_le {bounds : Option Dimensions} {cs : List Command} {q : Point}
    (h : Reached bounds cs q) : q.1.natAbs + q.2.natAbs ≤ maxUnits.toNat * cs.length := by
  cases h with
  | start => exact Nat.zero_le _
  | @step i t units q hok hmove hunits hq =>
      obtain ⟨hi, -⟩ := List.getElem?_eq_some_iff.mp hmove
      have hpath : q ∈ (0, 0) :: Turtle.fresh.path (cs.take i ++ [.move units]) := by
        rw [Turtle.path_concat]
        exact List.mem_cons_of_mem _ (List.mem_append_right _ hq)
      have hfar := natAbs_le_travelUnits hpath
      rw [CommandCounts.ofCommands_concat] at hfar
      have hunits := UInt32.le_iff_toNat_le.mp hunits
      calc q.1.natAbs + q.2.natAbs
          ≤ (CommandCounts.ofCommands (cs.take i)).travelUnits + units.toNat := hfar
        _ ≤ maxUnits.toNat * (CommandCounts.ofCommands (cs.take i)).moves + maxUnits.toNat :=
            Nat.add_le_add (travelUnits_le hok) hunits
        _ ≤ maxUnits.toNat * i + maxUnits.toNat := by
            have hmoves := (moves_le_length (cs.take i)).trans (List.length_take_le i cs)
            exact Nat.add_le_add_right (Nat.mul_le_mul_left _ hmoves) _
        _ ≤ maxUnits.toNat * cs.length := Nat.mul_le_mul_left _ hi

/-- **The shape of a trace.**  Every stroke has a point and every leg of travel two at least, each one
unit step from the next.  There are as many strokes as there are commands that lower the pen while it
is up.  Strokes and travel, in the order they are begun, are one unbroken way from the origin to the
turtle that holds every unit step once, so their lengths add up to the units that the program counts.
The turtle is never farther from the origin than it has travelled, which is 65536 units a move at
most.

A replay of fewer than 2 ^ 47 commands, whether it succeeds or not, therefore comes to no point whose
coordinates do not fit 64 bits. -/
theorem replayIn_legs (bounds : Option Dimensions) (p : Program) :
    (∀ t, replayIn bounds p.commands = .ok t → t.Shape p) ∧
      (p.commands.length < 2 ^ 47 → ∀ q, Reached bounds p.commands q →
        (-2 ^ 63 ≤ q.1 ∧ q.1 < 2 ^ 63) ∧ -2 ^ 63 ≤ q.2 ∧ q.2 < 2 ^ 63) := by
  refine ⟨fun t ht => shape_of_replayIn ht, fun hlen q hq => ?_⟩
  have hfar := hq.natAbs_le
  have hmax : maxUnits.toNat = 65536 := rfl
  rw [hmax] at hfar
  omega

/-- A corner: one step to the right and one down, behind a step with the pen up. -/
def Program.corner : Program :=
  ⟨[.move 1, .penDown, .move 1, .rotate 90, .penDown, .move 1], ⟨3, 2⟩⟩

/-- What a replay leaves behind of a corner. -/
def Trace.corner : Trace :=
  ⟨⟨(2, 1), .down, .down⟩, [[(1, 0), (2, 0), (2, 1)]], [[(0, 0), (1, 0)]]⟩

theorem replayIn_legs_corner :
    (replayIn (some ⟨3, 2⟩) Program.corner.commands = .ok .corner ∧
      Trace.corner.Shape Program.corner) ∧
    Program.corner.commands.length < 2 ^ 47 ∧
      Reached (some ⟨3, 2⟩) Program.corner.commands (2, 1) ∧
        ((-2 ^ 63 ≤ (2 : Int) ∧ (2 : Int) < 2 ^ 63) ∧
          -2 ^ 63 ≤ (1 : Int) ∧ (1 : Int) < 2 ^ 63) := by
  have hok : replayIn (some ⟨3, 2⟩) Program.corner.commands = .ok .corner := by decide
  have hprior : replayIn (some ⟨3, 2⟩) (Program.corner.commands.take 5) =
      .ok ⟨⟨(2, 0), .down, .down⟩, [[(1, 0), (2, 0)]], [[(0, 0), (1, 0)]]⟩ := by decide
  have hreached : Reached (some ⟨3, 2⟩) Program.corner.commands (2, 1) :=
    .step hprior rfl (by decide) (by decide)
  exact ⟨⟨hok, (replayIn_legs _ _).1 _ hok⟩, by decide, hreached,
    (replayIn_legs _ _).2 (by decide) (2, 1) hreached⟩

end PenPlotter
