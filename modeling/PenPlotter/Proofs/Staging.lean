import Mathlib.Tactic.Choose
import PenPlotter.Diagnostics

/-!
# A clock does not change what it times

The stages of a run are carried out in some monad, plainly or under a clock.  A computation *gives* a
value if it has this value whatever else it does (`Gives`), and a way to carry out stages is
*faithful* if every stage gives the value of its work.  Timing keeps it so (`Staging.Faithful.timed`).

A run that is carried out faithfully gives what the plain run makes, its error included
(`Staging.Faithful.gives_runBy`), since both go through the same stages in the same order.

**Main statement** (`exists_clock_timedRun`): a timed run is the diagnosed run by some clock, so
whatever holds of diagnosed runs by all clocks holds of it.
-/

namespace PenPlotter

variable {m : Type → Type} [Monad m]

/-- Whatever else it does, `x` has the value `a`. -/
def Gives {α : Type} (x : m α) (a : α) : Prop := ∃ effect : m Unit, x = (fun _ => a) <$> effect

/-- Every stage gives the value of its work. -/
structure Staging.Faithful (g : Staging m) : Prop where
  gives {α : Type} (work : Unit → α) : Gives (g.carry work) (work ())

variable [LawfulMonad m]

namespace Gives

variable {α β ε : Type} {x : m α} {a : α} {b : β}

theorem pure (a : α) : Gives (Pure.pure a : m α) a :=
  ⟨Pure.pure (), (map_pure (fun _ => a) ()).symm⟩

theorem bind {f : α → m β} (hx : Gives x a) (hf : Gives (f a) b) : Gives (x >>= f) b := by
  obtain ⟨effect, rfl⟩ := hx
  obtain ⟨effect', hf⟩ := hf
  refine ⟨effect >>= fun _ => effect', ?_⟩
  rw [bind_map_left, hf, map_bind]

/-- Where a value is not looked at, it need not be known. -/
theorem after (x : m α) {f : α → m β} (hf : ∀ a, Gives (f a) b) : Gives (x >>= f) b := by
  choose effect hf using hf
  refine ⟨x >>= effect, ?_⟩
  rw [map_bind]
  exact bind_congr hf

/-- A computation that may fail gives what its parts give, up to the first error. -/
theorem bindExcept {x : ExceptT ε m α} {f : α → ExceptT ε m β} {r : Except ε α}
    {k : α → Except ε β} (hx : Gives x.run r) (hf : ∀ a, Gives (f a).run (k a)) :
    Gives (x >>= f).run (r >>= k) := by
  rw [ExceptT.run_bind]
  refine hx.bind ?_
  cases r with
  | error e => exact .pure _
  | ok a => exact hf a

end Gives

namespace Staging.Faithful

variable {g : Staging m}

theorem timed (h : g.Faithful) (now : m Nat) : (g.timed now).Faithful := by
  refine ⟨fun {α} work => ?_⟩
  have hwork : Gives (liftM (g.carry work) : StateT (List Duration) m α) (work ()) := by
    obtain ⟨effect, heffect⟩ := h.gives work
    exact ⟨liftM effect, by rw [heffect, liftM_map]⟩
  exact .after _ fun start => hwork.bind (.after _ fun stop => .after _ fun _ => .pure _)

theorem lifted (h : g.Faithful) {α : Type} (work : Unit → α) :
    Gives (g.lifted.carry work).run (plain.carry work : Except PipelineError α) := by
  obtain ⟨effect, heffect⟩ := h.gives work
  refine ⟨effect, ?_⟩
  rw [Staging.lifted, ExceptT.run_lift, heffect, Functor.map_map]
  rfl

theorem gives_filterBy (h : g.Faithful) (s : Settings) (gray : Image.Gray) :
    Gives (s.filterBy g.lifted gray).run (s.filterBy .plain gray) := by
  refine .bindExcept (h.lifted _) fun blurred => .bindExcept (h.lifted _) fun edges => ?_
  refine .bindExcept (h.lifted _) fun dilated => .bindExcept ?_ fun inverted => .pure _
  rw [Settings.invertBy, Settings.invertBy]
  split
  · simp only [map_eq_pure_bind]
    exact .bindExcept (h.lifted _) fun _ => .pure _
  · exact .pure _

/-- A run that is carried out faithfully gives what the plain run makes. -/
theorem gives_runBy (h : g.Faithful) (decoder : Image.Decoder) (bytes : ByteArray) (s : Settings) :
    Gives (runBy g.lifted decoder bytes s).run (runStages decoder bytes s) := by
  have hlift {α : Type} (r : Except PipelineError α) :
      Gives (liftM r : ExceptT PipelineError m α).run r := .pure r
  -- The settings, the image, the filters, the mask, and at last the islands and the program.
  refine .bindExcept (hlift _) fun _ => ?_
  refine .bindExcept (h.lifted _) fun _ => .bindExcept (hlift _) fun gray => ?_
  refine .bindExcept (h.gives_filterBy s gray) fun filtered => ?_
  refine .bindExcept (h.lifted _) fun _ => .bindExcept (hlift _) fun mask => ?_
  exact .bindExcept (h.lifted _) fun islands => .bindExcept (h.lifted _) fun program => .pure _

end Staging.Faithful

/-- **A clock does not change what it times.**  If stages give the values of their works, a timed run
is the diagnosed run of the photo, with the same error or the same images, islands and program, by
some clock that is read on the way. -/
theorem exists_clock_timedRun {g : Staging m} (h : g.Faithful) (now : m Nat)
    (decoder : Image.Decoder) (bytes : ByteArray) (s : Settings) :
    ∃ clock : m Clock, timedRun g now decoder bytes s = diagnosedRun decoder bytes s <$> clock := by
  obtain ⟨effect, hrun⟩ := (h.timed now).gives_runBy decoder bytes s
  refine ⟨do
    let start ← now
    let (_, laps) ← effect.run []
    let stop ← now
    return fun i => laps.getD i ⟨stop - start⟩, ?_⟩
  rw [timedRun, hrun]
  simp only [StateT.run_map, map_bind, bind_map_left, map_pure]
  rfl

end PenPlotter
