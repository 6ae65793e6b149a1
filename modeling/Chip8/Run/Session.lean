import Chip8.Run.Script

/-!
A session: a run from the state a machine is in, with timers that tick meanwhile, until it is
stopped and hands the machine back.
-/

namespace Chip8.Run

variable {σ : Type}

/-- Makes keys wanted again after a shutdown. A run that broke down leaves its keypad as it is. -/
def release (r : Run σ) : Run σ :=
  match r.phase with
  | .crashed _ => r
  | _ => r.act (.keypad .clearCancellation)

/-- A whole session beside a script, up to its stop. A wait for a key that it interrupts stays
armed, so the machine can be run again. -/
def session [Display σ] (watcher : Watcher) (script : List Cue) (m : Machine σ) : Run σ :=
  (((start m .initial).play watcher .session script).shutDown watcher .session).release

/-- The machine that a finished run hands back. -/
def result (r : Run σ) : Except Failure (Machine σ) :=
  match r.phase with
  | .crashed _ => .error .interpreterCrashed
  | _ => .ok r.machine

end Chip8.Run
