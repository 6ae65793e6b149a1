import Chip8.Machine.Readout
import Chip8.Notice

/-!
The panel by which a run is controlled and watched: whether it is to stop or to pause, whether
a single cycle is wanted under a pause, and what the run published last.
-/

namespace Chip8.Run

structure Panel where
  stopped : Bool
  paused : Bool
  /-- One cycle is wanted although the run is paused. -/
  stepRequested : Bool
  published : Option Readout
deriving DecidableEq

namespace Panel

def initial : Panel :=
  ⟨false, false, false, none⟩

/-- What can be done at the panel. -/
inductive Action
  | pause
  | resume
  | stepOnce
  | stop
deriving DecidableEq, Repr

/-- The panel after an action. Stopping is for ever, resuming drops a step that was not used,
and a step is wanted only under a pause. -/
def perform (p : Panel) : Action → Panel
  | .pause => {p with paused := true}
  | .resume => {p with paused := false, stepRequested := false}
  | .stepOnce => if p.paused then {p with stepRequested := true} else p
  | .stop => {p with stopped := true}

/-- Whether a paused run has nothing to do. -/
def idles (p : Panel) : Bool :=
  p.paused && !p.stepRequested

/-- The panel after the wanted cycle was begun. -/
def takeStep (p : Panel) : Panel :=
  {p with stepRequested := false}

def publish (p : Panel) (readout : Readout) : Panel :=
  {p with published := some readout}

def notices (p : Panel) : Action → List Notice
  | .pause => [.pausing]
  | .resume => [.resuming]
  | .stepOnce => if p.paused then [] else [.stepIgnored]
  | .stop => []

end Panel

end Chip8.Run
