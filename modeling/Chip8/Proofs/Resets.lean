import Chip8.Proofs.FramesShown

/-!
Resets. A machine that was reset goes on as a machine does that has done nothing yet, whatever it
went through before. Only its display remembers what it was shown, and the random source goes on
where it was.
-/

namespace Chip8

/-- The run with a newly made machine in place of its own. The settings stay, and so does the
random source, at the position it has come to. -/
def Run.renewed {σ τ : Type} (r : Run σ) (display : τ) : Run τ :=
  ⟨.fresh r.machine.settings r.machine.random display, r.panel, r.phase, r.refreshes⟩

namespace Machine

variable {σ : Type} [Display σ]

/-- A second reset shows the blank screen once more and changes nothing else. -/
theorem reset_reset (m : Machine σ) :
    m.reset.reset = m.reset.withDisplay (Display.refresh m.reset.display .blank) := by
  simp only [reset_eq_fresh, fresh, withDisplay]

end Machine

namespace Run

variable {σ τ : Type} [Display σ] [Display τ]

/-- A reset forgets everything. Whatever is asked of a run afterwards, it gives the answers that it
would give with a newly made machine, shows the same frames and comes to stand in the same place.
All that is left of the past is what the display made of it, and of one blank screen. -/
theorem reset_forgets (r : Run σ) (d : τ) (requests : List Request) :
    let old := r.onMachine Machine.reset
    let new := r.renewed d
    old.responses requests = new.responses requests ∧
      (old.fulfilAll requests).withDisplay () = (new.fulfilAll requests).withDisplay () ∧
      old.framesShown requests = new.framesShown requests ∧
      (new.fulfilAll requests).machine.display = Display.showAll d (new.framesShown requests) ∧
      (old.fulfilAll requests).machine.display =
        Display.showAll r.machine.display (.blank :: new.framesShown requests) ∧
      old.onMachine Machine.reset =
        old.withDisplay (Display.refresh old.machine.display .blank) := by
  intro old new
  have hsame : old.withDisplay () = new.withDisplay () := by
    simp only [old, new, onMachine, renewed, withDisplay, Machine.reset_eq_fresh, Machine.fresh,
      Machine.withDisplay]
  have hframes := framesShown_congr hsame requests
  refine ⟨responses_congr hsame requests, fulfilAll_congr hsame requests, hframes,
    new.fulfilAll_display requests, ?_, ?_⟩
  · have hdisplay : old.machine.display = Display.refresh r.machine.display .blank := by
      simp only [old, onMachine, Machine.reset_eq_fresh, Machine.fresh]
    rw [old.fulfilAll_display, hframes, hdisplay, Display.showAll, Display.showAll, List.foldl_cons]
  · simp only [old, onMachine, withDisplay, Machine.reset_reset]

end Run

end Chip8
