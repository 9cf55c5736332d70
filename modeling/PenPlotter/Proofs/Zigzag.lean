import Mathlib.Tactic.Ring
import PenPlotter.Drawing

/-!
# The shape of a walk

A walk takes the steps by which one way is longer than the other first, and then goes down to the
goal in pairs of a vertical and a horizontal step (`Heading.zigzag`).  `Drives h ks cs` holds when
`cs` are the commands of unit steps along `ks`, with a turn before a step exactly where the heading
changes, from `h` on.

The induction is on the walk.  `Pixel.Offset p goal x y a b` says that the goal lies `a` cells along
`x` and `b` cells along `y`; a step takes one cell off the larger of the two numbers, and leaves `x`
and `y` what they are (`Offset.exists_zigzag_cons`).

**Main statement** (`walkTo_zigzag`): the commands of a walk drive along its zigzag.  The number of
its turns and its last heading follow from the two ways.
-/

namespace PenPlotter

namespace Heading

/-! ### Zigzags -/

/-- The heading of a horizontal way. -/
def alongX (dx : Int) : Heading := if dx > 0 then right else left

/-- The heading of a vertical way. -/
def alongY (dy : Int) : Heading := if dy > 0 then down else up

theorem alongX_ne_alongY (dx dy : Int) : alongX dx ≠ alongY dy := by
  rw [alongX, alongY]
  split <;> split <;> decide

/-- So many pairs of a step along `y` and a step along `x`. -/
def pairs (x y : Heading) (n : Nat) : List Heading := (List.replicate n [y, x]).flatten

/-- The steps of a way of `a` cells along `x` and `b` cells along `y`: those by which one of the two
is longer, then pairs. -/
def zigzag (x y : Heading) (a b : Nat) : List Heading :=
  List.replicate (a - b) x ++ List.replicate (b - a) y ++ pairs x y (min a b)

variable {x y : Heading} {a b n : Nat}

theorem pairs_succ : pairs x y (n + 1) = y :: x :: pairs x y n := rfl

theorem zigzag_add_left (x y : Heading) (n b : Nat) :
    zigzag x y (b + n) b = List.replicate n x ++ pairs x y b := by
  simp [zigzag]

theorem zigzag_add_right (x y : Heading) (a n : Nat) :
    zigzag x y a (a + n) = List.replicate n y ++ pairs x y a := by
  simp [zigzag]

/-- The first step is along `x` if that way is the longer one. -/
theorem zigzag_succ_left (hab : b ≤ a) : zigzag x y (a + 1) b = x :: zigzag x y a b := by
  obtain ⟨n, rfl⟩ := Nat.exists_eq_add_of_le hab
  rw [Nat.add_assoc, zigzag_add_left, zigzag_add_left, List.replicate_succ, List.cons_append]

/-- The first step is along `y` if that way is the longer one, or as long as the other. -/
theorem zigzag_succ_right (hab : a ≤ b + 1) : zigzag x y a (b + 1) = y :: zigzag x y a b := by
  rcases Nat.le_succ_iff.mp hab with hle | rfl
  · obtain ⟨n, rfl⟩ := Nat.exists_eq_add_of_le hle
    rw [Nat.add_assoc, zigzag_add_right, zigzag_add_right, List.replicate_succ, List.cons_append]
  · have heven := zigzag_add_right x y (b + 1) 0
    rw [Nat.add_zero] at heven
    rw [Nat.succ_eq_add_one, heven, zigzag_add_left]
    rfl

/-! ### Turns -/

/-- How often the heading changes along steps, the first of which is compared with `h`. -/
def turns : Heading → List Heading → Nat
  | _, [] => 0
  | h, k :: ks => (if h = k then 0 else 1) + turns k ks

theorem turns_replicate_append (h k : Heading) (n : Nat) (ks : List Heading) :
    turns h (List.replicate (n + 1) k ++ ks) = (if h = k then 0 else 1) + turns k ks := by
  induction n generalizing h with
  | zero => rfl
  | succ n ih => rw [List.replicate_succ, List.cons_append, turns, ih, if_pos rfl, Nat.zero_add]

/-- After a step along `x`, every step of the pairs is a turn. -/
theorem turns_pairs_of_x (hxy : x ≠ y) (n : Nat) : turns x (pairs x y n) = 2 * n := by
  induction n with
  | zero => rfl
  | succ n ih =>
      rw [pairs_succ, turns, turns, if_neg hxy, if_neg hxy.symm, ih]
      omega

/-- Every step of the pairs is a turn, except that the first need not be one. -/
theorem turns_pairs_succ (hxy : x ≠ y) (h : Heading) (n : Nat) :
    turns h (pairs x y (n + 1)) = (if h = y then 0 else 1) + (2 * n + 1) := by
  rw [pairs_succ, turns, turns, if_neg hxy.symm, turns_pairs_of_x hxy]
  omega

/-- After a step along `y`, every step of the pairs but the first is a turn. -/
theorem turns_pairs_of_y (hxy : x ≠ y) (n : Nat) : turns y (pairs x y n) = 2 * n - 1 := by
  cases n with
  | zero => rfl
  | succ n =>
      rw [turns_pairs_succ hxy, if_pos rfl]
      omega

theorem turns_zigzag_of_lt (hxy : x ≠ y) (h : Heading) (hab : b < a) :
    turns h (zigzag x y a b) = (if h = x then 0 else 1) + 2 * b := by
  obtain ⟨n, rfl⟩ := Nat.exists_eq_add_of_lt hab
  rw [Nat.add_assoc, zigzag_add_left, turns_replicate_append, turns_pairs_of_x hxy]

theorem turns_zigzag_of_le (hxy : x ≠ y) (h : Heading) (hab : a ≤ b) (hb : 0 < b) :
    turns h (zigzag x y a b) = (if h = y then 0 else 1) + (2 * a - 1) := by
  obtain ⟨n, rfl⟩ := Nat.exists_eq_add_of_le hab
  rw [zigzag_add_right]
  cases n with
  | zero =>
      obtain ⟨m, rfl⟩ := Nat.exists_eq_succ_of_ne_zero hb.ne'
      rw [List.replicate_zero, List.nil_append, turns_pairs_succ hxy]
      rfl
  | succ n => rw [turns_replicate_append, turns_pairs_of_y hxy]

theorem head?_zigzag_of_lt (hab : b < a) : (zigzag x y a b).head? = some x := by
  obtain ⟨n, rfl⟩ := Nat.exists_eq_succ_of_ne_zero (Nat.ne_zero_of_lt hab)
  rw [Nat.succ_eq_add_one, zigzag_succ_left (Nat.lt_succ_iff.mp hab), List.head?_cons]

theorem head?_zigzag_of_le (hab : a ≤ b) (hb : 0 < b) : (zigzag x y a b).head? = some y := by
  obtain ⟨n, rfl⟩ := Nat.exists_eq_succ_of_ne_zero hb.ne'
  rw [Nat.succ_eq_add_one, zigzag_succ_right hab, List.head?_cons]

/-- **The turns of a zigzag**: one if the first step needs it, and those of the pairs. -/
theorem turns_zigzag (hxy : x ≠ y) (h : Heading) (a b : Nat) :
    turns h (zigzag x y a b) =
      ((zigzag x y a b).head?.elim 0 fun k => if h = k then 0 else 1) +
        if min a b = 0 then 0 else if b < a then 2 * b else 2 * a - 1 := by
  rcases Nat.lt_or_ge b a with hlt | hle
  · have hpairs : (if min a b = 0 then 0 else 2 * b) = 2 * b := by split <;> omega
    rw [turns_zigzag_of_lt hxy h hlt, head?_zigzag_of_lt hlt, Option.elim_some, if_pos hlt, hpairs]
  · rcases Nat.eq_zero_or_pos b with rfl | hb
    · obtain rfl := Nat.le_zero.mp hle
      rfl
    · have hpairs : (if min a b = 0 then 0 else 2 * a - 1) = 2 * a - 1 := by split <;> omega
      rw [turns_zigzag_of_le hxy h hle hb, head?_zigzag_of_le hle hb, Option.elim_some,
        if_neg (Nat.not_lt.mpr hle), hpairs]

/-! ### The last step -/

theorem getLast?_pairs_succ (x y : Heading) (n : Nat) :
    (pairs x y (n + 1)).getLast? = some x := by
  induction n with
  | zero => rfl
  | succ n ih => rw [pairs_succ, List.getLast?_cons, List.getLast?_cons, ih]; rfl

/-- A zigzag ends with a step along `x`, if it has one. -/
theorem getLast?_zigzag_getD (x y h : Heading) (a b : Nat) :
    (zigzag x y a b).getLast?.getD h = if a ≠ 0 then x else if b ≠ 0 then y else h := by
  cases a with
  | zero =>
      have hupright := zigzag_add_right x y 0 b
      rw [Nat.zero_add] at hupright
      cases b <;> simp [hupright, pairs, List.getLast?_replicate]
  | succ a =>
      rw [if_pos a.succ_ne_zero]
      cases b with
      | zero =>
          have hflat := zigzag_add_left x y (a + 1) 0
          rw [Nat.zero_add] at hflat
          simp [hflat, pairs, List.getLast?_replicate]
      | succ b =>
          rw [zigzag, Nat.add_min_add_right, List.getLast?_append, getLast?_pairs_succ]
          rfl

end Heading

/-! ### Commands that drive along headings -/

/-- Commands that take a unit step along each of the headings, from facing `h` on, and turn before a
step exactly if its heading is another one than that before. -/
inductive Drives : Heading → List Heading → List Command → Prop where
  | nil {h : Heading} : Drives h [] []
  | ahead {h : Heading} {ks : List Heading} {cs : List Command} :
      Drives h ks cs → Drives h (h :: ks) (.move 1 :: cs)
  | turned {h k : Heading} {t : Int16} {ks : List Heading} {cs : List Command} :
      h ≠ k → h.turnTo? k = some t → Drives k ks cs →
        Drives h (k :: ks) (.rotate t :: .move 1 :: cs)

/-- There are as many rotations as changes of the heading. -/
theorem Drives.foldl_tally {h : Heading} {ks : List Heading} {cs : List Command}
    (hd : Drives h ks cs) (c : CommandCounts) :
    (cs.foldl CommandCounts.tally c).rotations = c.rotations + h.turns ks := by
  induction hd generalizing c with
  | nil => rfl
  | ahead _ ih =>
      rw [List.foldl_cons, ih, Heading.turns, if_pos rfl, Nat.zero_add]
      rfl
  | turned hne _ _ ih =>
      rw [List.foldl_cons, List.foldl_cons, ih, Heading.turns, if_neg hne, ← Nat.add_assoc]
      rfl

/-! ### The way that remains -/

/-- The goal lies so many cells along a horizontal heading and so many along a vertical one. -/
structure Pixel.Offset (p goal : Pixel) (x y : Heading) (a b : Nat) : Prop where
  horizontal : x = .right ∨ x = .left
  vertical : y = .down ∨ y = .up
  dx : p.dx goal = a * x.unitStep.1
  dy : p.dy goal = b * y.unitStep.2

namespace Pixel

variable {p goal : Pixel} {x y : Heading} {a b : Nat}

theorem offset (p goal : Pixel) :
    Offset p goal (.alongX (p.dx goal)) (.alongY (p.dy goal)) (p.dx goal).natAbs
      (p.dy goal).natAbs where
  horizontal := by
    rw [Heading.alongX]
    split <;> simp
  vertical := by
    rw [Heading.alongY]
    split <;> simp
  dx := by
    rw [Heading.alongX]
    split <;> simp only [Heading.unitStep] <;> omega
  dy := by
    rw [Heading.alongY]
    split <;> simp only [Heading.unitStep] <;> omega

/-- A step along which some way remains takes the lattice step off it. -/
theorem way_step {h : Heading} (hway : 0 < h.wayAlong (p.dx goal) (p.dy goal)) :
    (p.step h).dx goal = p.dx goal - h.unitStep.1 ∧
      (p.step h).dy goal = p.dy goal - h.unitStep.2 := by
  have hpoint := point_step hway
  simp only [point, Prod.mk.injEq] at hpoint
  simp only [Pixel.dx, Pixel.dy]
  omega

namespace Offset

theorem natAbs_way (h : Offset p goal x y a b) :
    (p.dx goal).natAbs = a ∧ (p.dy goal).natAbs = b := by
  rw [h.dx, h.dy]
  rcases h.horizontal with rfl | rfl <;> rcases h.vertical with rfl | rfl <;>
    simp [Heading.unitStep]

theorem headingTo_of_lt (h : Offset p goal x y a b) (hab : b < a) : p.headingTo goal = x := by
  rw [headingTo, Heading.toward, h.natAbs_way.1, h.natAbs_way.2, if_pos hab, h.dx]
  rcases h.horizontal with rfl | rfl
  · rw [if_pos (by simp only [Heading.unitStep]; omega)]
  · rw [if_neg (by simp only [Heading.unitStep]; omega)]

theorem headingTo_of_le (h : Offset p goal x y a b) (hab : a ≤ b) (hb : 0 < b) :
    p.headingTo goal = y := by
  rw [headingTo, Heading.toward, h.natAbs_way.1, h.natAbs_way.2, if_neg (Nat.not_lt.mpr hab), h.dy]
  rcases h.vertical with rfl | rfl
  · rw [if_pos (by simp only [Heading.unitStep]; omega)]
  · rw [if_neg (by simp only [Heading.unitStep]; omega)]

theorem pos_of_ne (h : Offset p goal x y a b) (hne : p ≠ goal) (hab : a ≤ b) : 0 < b := by
  refine Nat.pos_of_ne_zero fun hb => hne (eq_of_dx_dy ?_ ?_)
  · rw [← Int.natAbs_eq_zero, h.natAbs_way.1]
    omega
  · rw [← Int.natAbs_eq_zero, h.natAbs_way.2, hb]

theorem step_x (h : Offset p goal x y (a + 1) b)
    (hway : 0 < x.wayAlong (p.dx goal) (p.dy goal)) : Offset (p.step x) goal x y a b where
  horizontal := h.horizontal
  vertical := h.vertical
  dx := by
    rw [(way_step hway).1, h.dx, Nat.cast_succ]
    ring
  dy := by
    have hflat : x.unitStep.2 = 0 := by rcases h.horizontal with rfl | rfl <;> rfl
    rw [(way_step hway).2, h.dy, hflat, Int.sub_zero]

theorem step_y (h : Offset p goal x y a (b + 1))
    (hway : 0 < y.wayAlong (p.dx goal) (p.dy goal)) : Offset (p.step y) goal x y a b where
  horizontal := h.horizontal
  vertical := h.vertical
  dx := by
    have hupright : y.unitStep.1 = 0 := by rcases h.vertical with rfl | rfl <;> rfl
    rw [(way_step hway).1, h.dx, hupright, Int.sub_zero]
  dy := by
    rw [(way_step hway).2, h.dy, Nat.cast_succ]
    ring

/-- **A step takes one cell off the longer way**, the vertical one if both are as long, and is the
first step of the zigzag. -/
theorem exists_zigzag_cons (h : Offset p goal x y a b) (hne : p ≠ goal) :
    ∃ m n, Heading.zigzag x y a b = p.headingTo goal :: Heading.zigzag x y m n ∧
      Offset (p.step (p.headingTo goal)) goal x y m n := by
  have hway := wayAlong_headingTo_pos hne
  rcases Nat.lt_or_ge b a with hlt | hle
  · rw [h.headingTo_of_lt hlt] at hway ⊢
    obtain ⟨m, rfl⟩ := Nat.exists_eq_succ_of_ne_zero (Nat.ne_zero_of_lt hlt)
    exact ⟨m, b, Heading.zigzag_succ_left (Nat.lt_succ_iff.mp hlt), h.step_x hway⟩
  · have hb := h.pos_of_ne hne hle
    rw [h.headingTo_of_le hle hb] at hway ⊢
    obtain ⟨n, rfl⟩ := Nat.exists_eq_succ_of_ne_zero hb.ne'
    exact ⟨a, n, Heading.zigzag_succ_right hle, h.step_y hway⟩

end Offset

end Pixel

/-! ### Walks -/

namespace Draft

variable {x y : Heading} {a b : Nat}

/-- A step writes a turn if the heading changes, and a move. -/
theorem exists_drives_stepToward (d : Draft) (goal : Pixel) :
    ∃ cs, (d.stepToward goal).commands.toList = d.commands.toList ++ cs ∧
      ∀ ks ds, Drives (d.plotter.position.headingTo goal) ks ds →
        Drives d.plotter.heading (d.plotter.position.headingTo goal :: ks) (cs ++ ds) := by
  simp only [stepToward, advance, face]
  split
  case h_1 ht =>
    rw [← Heading.turnTo?_eq_none_iff.mp ht]
    exact ⟨[.move 1], by simp, fun _ _ => .ahead⟩
  case h_2 t ht =>
    have hne : d.plotter.heading ≠ d.plotter.position.headingTo goal := by
      rintro he
      rw [Heading.turnTo?_eq_none_iff.mpr he] at ht
      cases ht
    exact ⟨[.rotate t, .move 1], by simp, fun _ _ => .turned hne ht⟩

theorem heading_stepToward (d : Draft) (goal : Pixel) :
    (d.stepToward goal).plotter.heading = d.plotter.position.headingTo goal := rfl

/-- **The commands of a walk drive along its zigzag**, and leave the plotter facing along the last
step. -/
theorem exists_drives_walkTo {d : Draft} {goal : Pixel}
    (h : Pixel.Offset d.plotter.position goal x y a b) :
    ∃ cs, (d.walkTo goal).commands.toList = d.commands.toList ++ cs ∧
      Drives d.plotter.heading (Heading.zigzag x y a b) cs ∧
      (d.walkTo goal).plotter.heading =
        (Heading.zigzag x y a b).getLast?.getD d.plotter.heading := by
  fun_induction walkTo d goal generalizing a b with
  | case1 d he =>
      obtain rfl : a = 0 := by simp [← h.natAbs_way.1, he, Pixel.dx]
      obtain rfl : b = 0 := by simp [← h.natAbs_way.2, he, Pixel.dy]
      exact ⟨[], (List.append_nil _).symm, .nil, rfl⟩
  | case2 d hne ih =>
      obtain ⟨m, n, hcons, hnext⟩ := h.exists_zigzag_cons hne
      obtain ⟨cs, hcs, hdrives⟩ := d.exists_drives_stepToward goal
      obtain ⟨ds, hds, hrest, hlast⟩ := ih hnext
      rw [hcons]
      refine ⟨cs ++ ds, by rw [hds, hcs, List.append_assoc], hdrives _ _ hrest, ?_⟩
      rw [hlast, heading_stepToward, List.getLast?_cons, Option.getD_some]

/-- **The shape of a walk.**  A walk takes the steps by which one of its ways is longer than the
other, then pairs of a vertical and a horizontal step, always in the two directions in which the
goal lies.  It turns before a step exactly where the heading changes: before the first step if the
plotter does not face along it, and at every step of the pairs, except for a first vertical one that
follows vertical steps or begins the walk.  It leaves the plotter facing along the horizontal way if
there is one, else along the vertical way if there is one. -/
theorem walkTo_zigzag (d : Draft) (goal : Pixel) :
    let dx := d.plotter.position.dx goal
    let dy := d.plotter.position.dy goal
    let a := dx.natAbs
    let b := dy.natAbs
    let ks := Heading.zigzag (.alongX dx) (.alongY dy) a b
    ∃ cs, (d.walkTo goal).commands.toList = d.commands.toList ++ cs ∧
      Drives d.plotter.heading ks cs ∧
      (CommandCounts.ofCommands cs).rotations =
        (ks.head?.elim 0 fun k => if d.plotter.heading = k then 0 else 1) +
          (if min a b = 0 then 0 else if b < a then 2 * b else 2 * a - 1) ∧
      (d.walkTo goal).plotter.heading =
        if dx ≠ 0 then .alongX dx else if dy ≠ 0 then .alongY dy else d.plotter.heading := by
  intro dx dy a b ks
  obtain ⟨cs, hcs, hdrives, hlast⟩ := exists_drives_walkTo (d.plotter.position.offset goal)
  refine ⟨cs, hcs, hdrives, ?_, ?_⟩
  · rw [CommandCounts.ofCommands, hdrives.foldl_tally,
      Heading.turns_zigzag (Heading.alongX_ne_alongY dx dy)]
    exact Nat.zero_add _
  · simp only [hlast, Heading.getLast?_zigzag_getD, ne_eq, Int.natAbs_eq_zero, dx, dy]

end Draft

end PenPlotter
