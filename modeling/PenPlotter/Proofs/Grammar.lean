import PenPlotter.Proofs.MaskDrawing

/-!
# The grammar of drawings

The commands of a drawing form a word of a small grammar.  `UnitSteps n cs` says that `cs` takes `n`
*unit steps*: each is a move by one unit, with a turn by a quarter or by half a circle before it if
the heading changes.  `Drawings k n cs` says that `cs` draws `k` islands in `n` unit steps: for each
island the pen is lifted, unit steps travel to the island, the pen is lowered, and unit steps draw
it.

The numbers are those of the drawing: a walk takes as many unit steps as the Manhattan distance
(`exists_unitSteps_walkTo`), and islands are drawn in as many as their pixels are apart, in the
order of the tour (`exists_drawings_drawAll`).  What else the commands are like follows from the
grammar alone: what they are tallied as (`Drawings.foldl_tally`), that every turn is followed by a
move (`Drawings.turnsLead`), and that a drawing does not end with a lifted pen
(`Drawings.getLast?_ne`).

**Main statement** (`compileIslands_grammar`): all this of compiled programs, with the bounds that
the pixels of a mask put on the way of its drawing.
-/

namespace PenPlotter

/-- The turns of a drawing: a quarter to either side, and the about-face. -/
def IsTurn (t : Int16) : Prop := t = 90 ∨ t = -90 ∨ t = 180

instance (t : Int16) : Decidable (IsTurn t) := inferInstanceAs (Decidable (_ ∨ _))

theorem Heading.isTurn_turnTo? {g h : Heading} {t : Int16} (ht : g.turnTo? h = some t) :
    IsTurn t := by
  cases g <;> cases h <;> cases ht <;> decide

/-- Commands that take so many unit steps. -/
inductive UnitSteps : Nat → List Command → Prop where
  | nil : UnitSteps 0 []
  | ahead {n : Nat} {cs : List Command} (h : UnitSteps n cs) : UnitSteps (n + 1) (.move 1 :: cs)
  | turned {n : Nat} {t : Int16} {cs : List Command} (ht : IsTurn t) (h : UnitSteps n cs) :
      UnitSteps (n + 1) (.rotate t :: .move 1 :: cs)

/-- Commands that draw so many islands in so many unit steps. -/
inductive Drawings : Nat → Nat → List Command → Prop where
  | nil : Drawings 0 0 []
  | island {k l m n : Nat} {travel stroke rest : List Command} (htravel : UnitSteps l travel)
      (hstroke : UnitSteps m stroke) (hrest : Drawings k n rest) :
      Drawings (k + 1) (l + m + n) (.penUp :: (travel ++ .penDown :: (stroke ++ rest)))

theorem UnitSteps.append {m n : Nat} {cs ds : List Command} (hc : UnitSteps m cs)
    (hd : UnitSteps n ds) : UnitSteps (m + n) (cs ++ ds) := by
  induction hc with
  | nil => rwa [Nat.zero_add]
  | ahead _ ih =>
      rw [Nat.succ_add]
      exact .ahead ih
  | turned ht _ ih =>
      rw [Nat.succ_add]
      exact .turned ht ih

/-! ### What the grammar says of the commands -/

/-- Unit steps are tallied as moves by one unit, and as no more turns than moves. -/
theorem UnitSteps.foldl_tally {n : Nat} {cs : List Command} (h : UnitSteps n cs)
    (c : CommandCounts) :
    ∃ r ≤ n, cs.foldl CommandCounts.tally c =
      { c with
        rotations := c.rotations + r
        moves := c.moves + n
        travelUnits := c.travelUnits + n } := by
  induction h generalizing c with
  | nil => exact ⟨0, Nat.le_refl _, rfl⟩
  | ahead _ ih =>
      obtain ⟨r, hr, he⟩ := ih (c.tally (.move 1))
      refine ⟨r, Nat.le_succ_of_le hr, he.trans ?_⟩
      simp only [CommandCounts.tally, UInt32.toNat_one, CommandCounts.mk.injEq, true_and]
      omega
  | @turned _ t _ _ _ ih =>
      obtain ⟨r, hr, he⟩ := ih ((c.tally (.rotate t)).tally (.move 1))
      refine ⟨r + 1, Nat.succ_le_succ hr, he.trans ?_⟩
      simp only [CommandCounts.tally, UInt32.toNat_one, CommandCounts.mk.injEq, true_and]
      omega

/-- A drawing lifts and lowers the pen once for each island. -/
theorem Drawings.foldl_tally {k n : Nat} {cs : List Command} (h : Drawings k n cs)
    (c : CommandCounts) :
    ∃ r ≤ n, cs.foldl CommandCounts.tally c =
      { penUps := c.penUps + k
        penDowns := c.penDowns + k
        rotations := c.rotations + r
        moves := c.moves + n
        travelUnits := c.travelUnits + n } := by
  induction h generalizing c with
  | nil => exact ⟨0, Nat.le_refl _, rfl⟩
  | @island k l m n travel stroke rest htravel hstroke _ ih =>
      obtain ⟨r, hr, htally⟩ := htravel.foldl_tally (c.tally .penUp)
      obtain ⟨r', hr', htally'⟩ :=
        hstroke.foldl_tally ((travel.foldl CommandCounts.tally (c.tally .penUp)).tally .penDown)
      obtain ⟨r'', hr'', htally''⟩ := ih (stroke.foldl CommandCounts.tally
        ((travel.foldl CommandCounts.tally (c.tally .penUp)).tally .penDown))
      refine ⟨r + r' + r'', by omega, ?_⟩
      rw [List.foldl_cons, List.foldl_append, List.foldl_cons, List.foldl_append, htally'',
        htally', htally]
      simp only [CommandCounts.tally, CommandCounts.mk.injEq]
      omega

/-- Every turn is one of a drawing and is followed by a move by one unit. -/
def TurnsLead (cs : List Command) : Prop :=
  ∀ before t after, cs = before ++ .rotate t :: after →
    IsTurn t ∧ ∃ rest, after = .move 1 :: rest

theorem TurnsLead.cons {c : Command} {cs : List Command} (hc : ∀ t, c ≠ .rotate t)
    (h : TurnsLead cs) : TurnsLead (c :: cs) := by
  intro before t after he
  cases before with
  | nil => exact absurd (List.cons.inj he).1 (hc t)
  | cons b before => exact h before t after (List.cons.inj he).2

theorem TurnsLead.turn {t : Int16} {cs : List Command} (ht : IsTurn t)
    (h : TurnsLead (.move 1 :: cs)) : TurnsLead (.rotate t :: .move 1 :: cs) := by
  intro before u after he
  cases before with
  | nil =>
      obtain ⟨hu, rfl⟩ := List.cons.inj he
      cases hu
      exact ⟨ht, cs, rfl⟩
  | cons b before => exact h before u after (List.cons.inj he).2

theorem UnitSteps.turnsLead {n : Nat} {cs ds : List Command} (h : UnitSteps n cs)
    (hd : TurnsLead ds) : TurnsLead (cs ++ ds) := by
  induction h with
  | nil => exact hd
  | ahead _ ih => exact ih.cons fun _ => nofun
  | turned ht _ ih => exact .turn ht (ih.cons fun _ => nofun)

theorem Drawings.turnsLead {k n : Nat} {cs : List Command} (h : Drawings k n cs) :
    TurnsLead cs := by
  induction h with
  | nil =>
      intro before t after he
      simp at he
  | island htravel hstroke _ ih =>
      have hlower := (hstroke.turnsLead ih).cons (c := .penDown) fun _ => nofun
      exact (htravel.turnsLead hlower).cons fun _ => nofun

theorem UnitSteps.ne_penUp {n : Nat} {cs : List Command} (h : UnitSteps n cs) :
    ∀ c ∈ cs, c ≠ .penUp := by
  induction h with
  | nil => simp
  | ahead _ ih => exact List.forall_mem_cons.mpr ⟨nofun, ih⟩
  | turned _ _ ih =>
      exact List.forall_mem_cons.mpr ⟨nofun, List.forall_mem_cons.mpr ⟨nofun, ih⟩⟩

/-- A drawing does not end with a lifted pen. -/
theorem Drawings.getLast?_ne {k n : Nat} {cs : List Command} (h : Drawings k n cs) :
    cs.getLast? ≠ some .penUp := by
  induction h with
  | nil => simp
  | @island _ _ _ _ travel stroke rest _ hstroke _ ih =>
      cases hr : rest.getLast? with
      | some c => simpa [List.getLast?_cons, List.getLast?_append, hr] using ih
      | none =>
          cases hs : stroke.getLast? with
          | none => simp [List.getLast?_cons, List.getLast?_append, hr, hs]
          | some b =>
              have hb := hstroke.ne_penUp b (List.mem_of_getLast? hs)
              simpa [List.getLast?_cons, List.getLast?_append, hr, hs] using hb

theorem Drawings.eq_nil_iff {k n : Nat} {cs : List Command} (h : Drawings k n cs) :
    cs = [] ↔ k = 0 := by
  cases h with
  | nil => simp
  | island => simp

/-! ### Drawing writes words of the grammar -/

/-- The Manhattan length of the way from a pixel through others in their order. -/
def Pixel.wayLength (p : Pixel) : List Pixel → Nat
  | [] => 0
  | q :: qs => p.manhattan q + wayLength q qs

theorem Pixel.wayLength_append (p : Pixel) (qs rs : List Pixel) :
    p.wayLength (qs ++ rs) = p.wayLength qs + (qs.getLast?.getD p).wayLength rs := by
  induction qs generalizing p with
  | nil => exact (Nat.zero_add _).symm
  | cons q qs ih =>
      rw [List.cons_append, wayLength, ih, wayLength, List.getLast?_cons, Option.getD_some,
        Nat.add_assoc]

namespace Draft

theorem exists_unitSteps_stepToward (d : Draft) (goal : Pixel) :
    ∃ cs, (d.stepToward goal).commands.toList = d.commands.toList ++ cs ∧ UnitSteps 1 cs := by
  simp only [stepToward, advance, face]
  split
  · exact ⟨[.move 1], by simp, .ahead .nil⟩
  · rename_i t ht
    exact ⟨[.rotate t, .move 1], by simp, .turned (Heading.isTurn_turnTo? ht) .nil⟩

/-- **A walk takes as many unit steps as the Manhattan distance.** -/
theorem exists_unitSteps_walkTo (d : Draft) (goal : Pixel) :
    ∃ cs, (d.walkTo goal).commands.toList = d.commands.toList ++ cs ∧
      UnitSteps (d.plotter.position.manhattan goal) cs := by
  fun_induction walkTo d goal with
  | case1 d h =>
      rw [Pixel.manhattan_eq_zero_iff.mpr h]
      exact ⟨[], (List.append_nil _).symm, .nil⟩
  | case2 d hne ih =>
      obtain ⟨cs, hcs, hsteps⟩ := d.exists_unitSteps_stepToward goal
      obtain ⟨ds, hds, hsteps'⟩ := ih
      have hall := hsteps.append hsteps'
      rw [position_stepToward, Nat.add_comm, Pixel.manhattan_step_headingTo hne] at hall
      exact ⟨cs ++ ds, by rw [hds, hcs, List.append_assoc], hall⟩

theorem exists_unitSteps_foldl_walkTo (d : Draft) (goals : List Pixel) :
    ∃ cs, (goals.foldl walkTo d).commands.toList = d.commands.toList ++ cs ∧
      UnitSteps (d.plotter.position.wayLength goals) cs := by
  induction goals generalizing d with
  | nil => exact ⟨[], (List.append_nil _).symm, .nil⟩
  | cons goal goals ih =>
      obtain ⟨cs, hcs, hsteps⟩ := d.exists_unitSteps_walkTo goal
      obtain ⟨ds, hds, hsteps'⟩ := ih (d.walkTo goal)
      rw [position_walkTo] at hsteps'
      exact ⟨cs ++ ds, by rw [List.foldl_cons, hds, hcs, List.append_assoc], hsteps.append hsteps'⟩

/-- An island is drawn by unit steps behind a lowered pen, and travelled to by unit steps behind a
lifted one. -/
theorem exists_unitSteps_drawIsland {d : Draft} {i : Island} {entry : Pixel} {rest : List Pixel}
    (hi : i.pixels = entry :: rest) :
    ∃ travel stroke, (d.drawIsland i).commands.toList =
        d.commands.toList ++ .penUp :: (travel ++ .penDown :: stroke) ∧
      UnitSteps (d.plotter.position.manhattan entry) travel ∧
      UnitSteps (entry.wayLength rest) stroke := by
  obtain ⟨travel, htravel, hsteps⟩ := d.lift.exists_unitSteps_walkTo entry
  obtain ⟨stroke, hstroke, hsteps'⟩ :=
    (d.lift.walkTo entry).lower.exists_unitSteps_foldl_walkTo rest
  have hentry : (d.lift.walkTo entry).lower.plotter.position = entry := position_walkTo _ _
  rw [hentry] at hsteps'
  have hlower : (d.lift.walkTo entry).lower.commands.toList =
      d.commands.toList ++ .penUp :: (travel ++ [.penDown]) := by
    rw [lower, Array.toList_push, htravel, lift, Array.toList_push, List.append_assoc,
      List.append_assoc, List.singleton_append]
  refine ⟨travel, stroke, ?_, hsteps, hsteps'⟩
  rw [drawIsland, hi]
  simp only [hstroke, hlower, List.append_assoc, List.cons_append, List.nil_append]

/-- **Islands are drawn by a word of the grammar**, in as many unit steps as their pixels are apart,
from where the plotter is. -/
theorem exists_drawings_drawAll {d : Draft} {islands : List Island}
    (hi : ∀ i ∈ islands, i.isEmpty = false) :
    ∃ cs, (d.drawAll islands).commands.toList = d.commands.toList ++ cs ∧
      Drawings islands.length (d.plotter.position.wayLength (islands.flatMap Island.pixels)) cs := by
  induction islands generalizing d with
  | nil => exact ⟨[], (List.append_nil _).symm, .nil⟩
  | cons i is ih =>
      obtain ⟨hpix, hi⟩ := List.forall_mem_cons.mp hi
      obtain ⟨entry, hentry⟩ := Island.exists_first?_of_isEmpty hpix
      obtain ⟨rest, hrest⟩ := List.head?_eq_some_iff.mp hentry
      obtain ⟨travel, stroke, hisland, htravel, hstroke⟩ := exists_unitSteps_drawIsland (d := d) hrest
      obtain ⟨cs, hcs, hdrawings⟩ := ih (d := d.drawIsland i) hi
      -- The way to the next island starts at the exit of this one.
      have hlength : d.plotter.position.wayLength ((i :: is).flatMap Island.pixels) =
          d.plotter.position.manhattan entry + entry.wayLength rest +
            (d.drawIsland i).plotter.position.wayLength (is.flatMap Island.pixels) := by
        rw [List.flatMap_cons, Pixel.wayLength_append, position_drawIsland, Pool.after,
          Island.last?, hrest, Pixel.wayLength]
      have hall := Drawings.island htravel hstroke hdrawings
      rw [← hlength] at hall
      refine ⟨_, ?_, hall⟩
      have hdraw : d.drawAll (i :: is) = (d.drawIsland i).drawAll is := rfl
      rw [hdraw, hcs, hisland]
      simp only [List.append_assoc, List.cons_append]

end Draft

/-! ### Compiled programs -/

/-- The pixels of the islands of a tour from the origin, in the order they are drawn. -/
def tourPixels (islands : List Island) : List Pixel :=
  (planTour islands Pixel.origin).flatMap Island.pixels

/-- A compiled program is a word of the grammar, with a group for each island that has pixels. -/
theorem drawings_compileIslands (islands : List Island) (dimensions : Dimensions) :
    Drawings (islands.filter fun i => !i.isEmpty).length
      (Pixel.origin.wayLength (tourPixels islands))
      (compileIslands islands dimensions).commands := by
  have hfull : ∀ i ∈ planTour islands Pixel.origin, i.isEmpty = false := fun i hi =>
    isEmpty_of_mem_planTour hi
  obtain ⟨cs, hcs, hdrawings⟩ := Draft.exists_drawings_drawAll (d := .start .fresh) hfull
  rw [(planTour_perm islands Pixel.origin).length_eq] at hdrawings
  rw [compileIslands, hcs]
  exact hdrawings

/-- The tally of a word of the grammar. -/
theorem Drawings.counts {k n : Nat} {cs : List Command} (h : Drawings k n cs) :
    (CommandCounts.ofCommands cs).penUps = k ∧ (CommandCounts.ofCommands cs).penDowns = k ∧
      (CommandCounts.ofCommands cs).rotations ≤ (CommandCounts.ofCommands cs).moves ∧
      (CommandCounts.ofCommands cs).moves = n ∧ (CommandCounts.ofCommands cs).travelUnits = n := by
  obtain ⟨r, hr, htally⟩ := h.foldl_tally .zero
  rw [CommandCounts.ofCommands, htally]
  simp only [CommandCounts.zero, Nat.zero_add]
  exact ⟨trivial, trivial, hr, trivial, trivial⟩

/-! ### How long the way of a mask is -/

namespace Pixel

/-- A way is no longer than its legs can be. -/
theorem wayLength_le {bound : Nat} {p : Pixel} {qs : List Pixel}
    (h : ∀ a ∈ p :: qs, ∀ b ∈ p :: qs, a.manhattan b ≤ bound) :
    p.wayLength qs ≤ qs.length * bound := by
  induction qs generalizing p with
  | nil => exact Nat.zero_le _
  | cons q qs ih =>
      have hleg : p.manhattan q ≤ bound := h p (by simp) q (by simp)
      have hrest := ih fun a ha b hb => h a (List.mem_cons_of_mem p ha) b (List.mem_cons_of_mem p hb)
      rw [wayLength, List.length_cons, Nat.succ_mul]
      omega

/-- Different pixels are at least one unit apart. -/
theorem length_le_wayLength {p : Pixel} {qs : List Pixel} (h : (p :: qs).Nodup) :
    qs.length ≤ p.wayLength qs := by
  induction qs generalizing p with
  | nil => exact Nat.le_refl _
  | cons q qs ih =>
      obtain ⟨hp, hqs⟩ := List.nodup_cons.mp h
      have hne : p.manhattan q ≠ 0 := by
        rw [Ne, manhattan_eq_zero_iff]
        rintro rfl
        exact hp List.mem_cons_self
      have hrest := ih hqs
      rw [wayLength, List.length_cons]
      omega

end Pixel

namespace Mask

/-- On a canvas two pixels are at most its two sides apart, less one cell each. -/
theorem manhattan_le {m : Mask} {p q : Pixel} (hp : m.Contains p) (hq : m.Contains q) :
    p.manhattan q ≤ m.width.toNat + m.height.toNat - 2 := by
  simp only [Contains, UInt32.lt_iff_toNat_lt] at hp hq
  rw [Pixel.manhattan_eq_natAbs, Pixel.dx, Pixel.dy]
  omega

/-- The islands of a mask hold its inked pixels, each once. -/
theorem flatMap_islands_perm (m : Mask) : (m.islands.flatMap Island.pixels).Perm m.inked := by
  refine (List.perm_ext_iff_of_nodup m.nodup_flatMap_islands ?_).mpr fun p => ?_
  · exact m.pixels_nodup.filter _
  · rw [mem_flatMap_islands, mem_inked]

/-- The tour of a mask draws its inked pixels, each once. -/
theorem tourPixels_perm (m : Mask) : (tourPixels m.islands).Perm m.inked :=
  ((m.planTour_islands_perm Pixel.origin).flatMap_right _).trans m.flatMap_islands_perm

theorem length_tourPixels (m : Mask) : (tourPixels m.islands).length = m.inkCount := by
  rw [m.tourPixels_perm.length_eq, length_inked]

theorem islands_eq_nil_iff {m : Mask} : m.islands = [] ↔ ∀ p, m.get p = false := by
  constructor
  · intro hnil p
    rw [Bool.eq_false_iff]
    intro hp
    obtain ⟨i, hi, -⟩ := exists_island hp
    rw [hnil] at hi
    cases hi
  · intro hblank
    refine List.eq_nil_iff_forall_not_mem.mpr fun i hi => ?_
    obtain ⟨f, hf, -⟩ := (component_of_mem_islands hi).first
    have hink := (component_of_mem_islands hi).inked (Island.mem_of_first? hf)
    rw [hblank f] at hink
    cases hink

/-- Only the first inked pixel may cost no step, so there are no more of them than steps and
islands. -/
theorem inkCount_le_wayLength (m : Mask) :
    m.inkCount ≤ m.islands.length + Pixel.origin.wayLength (tourPixels m.islands) := by
  have hnodup : (tourPixels m.islands).Nodup :=
    m.tourPixels_perm.nodup_iff.mpr (m.pixels_nodup.filter _)
  rw [← length_tourPixels]
  cases htour : tourPixels m.islands with
  | nil => exact Nat.zero_le _
  | cons p ps =>
      have hp : p ∈ m.inked := m.tourPixels_perm.mem_iff.mp (htour ▸ List.mem_cons_self)
      obtain ⟨i, hi, -⟩ := exists_island (mem_inked.mp hp)
      have hpos := List.length_pos_of_mem hi
      have hlength := Pixel.length_le_wayLength (htour ▸ hnodup)
      rw [Pixel.wayLength, List.length_cons]
      omega

theorem wayLength_le_inkCount (m : Mask) :
    Pixel.origin.wayLength (tourPixels m.islands) ≤
      m.inkCount * (m.width.toNat + m.height.toNat - 2) := by
  rw [← length_tourPixels]
  exact Pixel.wayLength_le fun a ha b hb =>
    manhattan_le (contains_of_mem_tour ha) (contains_of_mem_tour hb)

/-- The program of a mask is a word of the grammar, with a group for each island. -/
theorem drawings_compile (m : Mask) :
    Drawings m.islands.length (Pixel.origin.wayLength (tourPixels m.islands)) m.compile.commands := by
  have h := drawings_compileIslands m.islands m.dimensions
  rwa [filter_islands] at h

end Mask

/-- **The commands of a drawing form a word of the grammar**, with a group for each island that has
pixels, and as many unit steps as the way from the origin through all the pixels is long.  So every
turn is a quarter or half a circle, and a move by one unit follows it; the pen is lifted and lowered
once for each island; there are no more turns than moves, and as many moves as units travelled.

The program of a mask is empty if and only if nothing is inked.  It never ends with a lifted pen.
Every inked pixel costs a step, but for one of each island at most, and none costs more steps than
the canvas allows. -/
theorem compileIslands_grammar :
    (∀ (islands : List Island) (dimensions : Dimensions),
      Drawings (islands.filter fun i => !i.isEmpty).length
          (Pixel.origin.wayLength (tourPixels islands))
          (compileIslands islands dimensions).commands ∧
        (∀ before t after,
          (compileIslands islands dimensions).commands = before ++ .rotate t :: after →
            IsTurn t ∧ ∃ rest, after = .move 1 :: rest) ∧
        (compileIslands islands dimensions).counts.penUps =
          (islands.filter fun i => !i.isEmpty).length ∧
        (compileIslands islands dimensions).counts.penDowns =
          (islands.filter fun i => !i.isEmpty).length ∧
        (compileIslands islands dimensions).counts.rotations ≤
          (compileIslands islands dimensions).counts.moves ∧
        (compileIslands islands dimensions).counts.moves =
          Pixel.origin.wayLength (tourPixels islands) ∧
        (compileIslands islands dimensions).counts.travelUnits =
          Pixel.origin.wayLength (tourPixels islands)) ∧
    ∀ m : Mask,
      (m.compile.commands = [] ↔ ∀ p, m.get p = false) ∧
        m.compile.commands.getLast? ≠ some .penUp ∧
        m.inkCount ≤ m.islands.length + m.compile.counts.travelUnits ∧
        m.compile.counts.travelUnits ≤
          m.inkCount * (m.width.toNat + m.height.toNat - 2) := by
  constructor
  · intro islands dimensions
    have h := drawings_compileIslands islands dimensions
    exact ⟨h, h.turnsLead, h.counts⟩
  · intro m
    have h := m.drawings_compile
    obtain ⟨-, -, -, -, htravel⟩ := h.counts
    refine ⟨?_, h.getLast?_ne, ?_, ?_⟩
    · rw [h.eq_nil_iff, List.length_eq_zero_iff, Mask.islands_eq_nil_iff]
    · rw [Program.counts, htravel]
      exact m.inkCount_le_wayLength
    · rw [Program.counts, htravel]
      exact m.wayLength_le_inkCount

/-- An island with a corner: the pen is lowered at once, and there is one turn. -/
theorem compileIslands_grammar_corner :
    (compileIslands [⟨[⟨0, 0⟩, ⟨1, 0⟩, ⟨1, 1⟩]⟩] ⟨2, 2⟩).commands =
        [.penUp, .penDown, .move 1] ++ .rotate 90 :: [.move 1] ∧
      IsTurn 90 ∧ ∃ rest, [Command.move 1] = .move 1 :: rest := by
  have h : (compileIslands [⟨[⟨0, 0⟩, ⟨1, 0⟩, ⟨1, 1⟩]⟩] ⟨2, 2⟩).commands =
      [.penUp, .penDown, .move 1] ++ .rotate 90 :: [.move 1] := by decide +kernel
  exact ⟨h, (compileIslands_grammar.1 _ _).2.1 _ _ _ h⟩

end PenPlotter
