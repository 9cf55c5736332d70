import PenPlotter.CommandLine.Session
import PenPlotter.Proofs.Diagnostics
import PenPlotter.Proofs.Staging

/-!
# What a run obtains

The options ask for a program (`Options.wanted`): the image is compiled as a mask, or it is processed
as a photo with the settings that are chosen.  What a run obtains is this program, or the failure
that leaves it without one (`program_obtainedBy`), and a program is made from a mask
(`exists_mask_of_obtainedBy`).

Diagnoses need a clock.  The plan of a run that reads the clock of a machine is the plan by some
clock (`exists_clock_plan`), so what holds by all clocks holds of it.
-/

namespace PenPlotter.CommandLine

section Obtain

variable {decoder : Image.Decoder} {clock : Clock} {o : Options} {bytes : ByteArray}

/-- What is obtained if the runs of photos are diagnosed by this clock. -/
def obtainedBy (decoder : Image.Decoder) (clock : Clock) (o : Options) (bytes : ByteArray) :
    Except Failure Obtained :=
  (obtain decoder (Runner.clocked decoder clock) o bytes).run

theorem obtainedBy_of_mask (h : o.mask = true) :
    obtainedBy decoder clock o bytes = obtainFromMask decoder o bytes := by
  rw [obtainedBy, obtain, if_pos h]
  rfl

theorem obtainedBy_of_photo (h : o.mask = false) :
    obtainedBy decoder clock o bytes =
      o.chosenSettings >>= fun s => o.obtainedFrom (diagnosedRun decoder bytes s clock) := by
  rw [obtainedBy, obtain, if_neg (by simp [h]), obtainFromPhoto]
  cases o.chosenSettings <;> rfl

end Obtain

/-! ### Clocks that are read on the way -/

section Clocks

variable {m : Type → Type} [Monad m] [LawfulMonad m] {g : Staging m}

theorem exists_clock_obtain (h : g.Faithful) (now : m Nat) (decoder : Image.Decoder) (o : Options)
    (bytes : ByteArray) : ∃ clock : m Clock, obtain decoder (timedRun g now decoder) o bytes =
      (fun c => obtainedBy decoder c o bytes) <$> clock := by
  -- A run that times nothing is the same by all clocks.
  cases hmask : o.mask with
  | true =>
      refine ⟨pure fun _ => ⟨0⟩, ?_⟩
      rw [obtain, if_pos hmask, map_pure, obtainedBy_of_mask hmask]
  | false =>
      simp only [obtain, hmask, Bool.false_eq_true, if_false, obtainFromPhoto,
        obtainedBy_of_photo hmask]
      cases o.chosenSettings with
      | error f => exact ⟨pure fun _ => ⟨0⟩, by rw [map_pure]; rfl⟩
      | ok s =>
          obtain ⟨clock, hclock⟩ := exists_clock_timedRun h now decoder bytes s
          exact ⟨clock, by simp only [hclock, Functor.map_map]; rfl⟩

/-- A plan that is made while a clock is read is the plan by some clock. -/
theorem exists_clock_plan (h : g.Faithful) (now : m Nat) (decoder : Image.Decoder) (o : Options)
    (file : Except FileFault ByteArray) :
    ∃ clock : m Clock, o.plan decoder (timedRun g now decoder) file =
      (fun c => (o.plan decoder (Runner.clocked decoder c) file).run) <$> clock := by
  cases file with
  | error fault => exact ⟨pure fun _ => ⟨0⟩, by rw [map_pure]; rfl⟩
  | ok bytes =>
      obtain ⟨clock, hclock⟩ := exists_clock_obtain h now decoder o bytes
      refine ⟨clock, ?_⟩
      rw [Options.plan, hclock, bind_map_left]
      exact bind_pure_comp _ _

end Clocks

end PenPlotter.CommandLine
