import Chip8.Keypad.Command
import Chip8.Machine.Cycle
import Chip8.Run.Panel

/-!
The loop that runs a machine under a panel, one atomic step at a time. Between two steps
anybody may act on the panel and the keypad. A step at the top of the loop begins a cycle and,
as a rule, completes it; only a cycle that wants a key which has not come leaves the loop
blocked, and then the next step takes it up where it stands. A cycle begun under a pause is a
single one that was asked for; a key that comes to another cycle when the run has meanwhile
been paused is held back.
-/

namespace Chip8

/-- Why a run broke down. -/
inductive Run.Crash
  | fault (cause : Fault)
  /-- The display failed while it was shown a frame. -/
  | display
deriving DecidableEq, Repr

/-- Where the loop stands between two steps. -/
inductive Run.Phase
  /-- At the top, about to look at the panel. -/
  | ready
  /-- Inside a wait for a key, in a cycle that was begun under a pause or not. -/
  | blocked (stepping : Bool)
  | ended
  | crashed (cause : Run.Crash)
deriving DecidableEq, Repr

structure Run (σ : Type) where
  machine : Machine σ
  panel : Run.Panel
  phase : Run.Phase
  /-- How many frames the display was shown since the run began. -/
  refreshes : Nat

namespace Run

variable {σ : Type}

/-- What somebody beside the loop can do. -/
inductive Action
  | panel (action : Panel.Action)
  | keypad (command : Keypad.Command)
deriving DecidableEq, Repr

/-- What happens while the display is shown a frame, in the middle of an instruction. -/
inductive Reaction
  | acts (actions : List Action)
  | fails

/-- What happens at each frame of a run, counted from one. -/
abbrev Watcher := Nat → Reaction

/-- Nothing happens at any frame. -/
def Watcher.silent : Watcher :=
  fun _ => .acts []

def start (m : Machine σ) (panel : Panel) : Run σ :=
  ⟨m, panel, .ready, 0⟩

/-- Whether the loop has been left. -/
def isOver (r : Run σ) : Bool :=
  match r.phase with
  | .ended | .crashed _ => true
  | .ready | .blocked _ => false

def act (r : Run σ) : Action → Run σ
  | .panel action => {r with panel := r.panel.perform action}
  | .keypad command => {r with machine := r.machine.onKeypad fun k => (k.perform command).2}

def actAll (r : Run σ) (actions : List Action) : Run σ :=
  actions.foldl act r

/-- The top of the loop after a complete cycle, which is published if that was asked for. -/
def complete (r : Run σ) : Run σ :=
  let r := {r with phase := .ready}
  if r.machine.settings.debug then {r with panel := r.panel.publish r.machine.readout} else r

/-- A key has come to a cycle that waited for it. -/
def receive (r : Run σ) (stepping : Bool) (key : UInt8) : Run σ :=
  if !stepping && r.panel.paused then
    complete {r with machine.heldKey := some key}
  else
    match Machine.deliver key r.machine with
    | .ok _ m => complete {r with machine := m}
    | .error fault m => {r with machine := m, phase := .crashed (.fault fault)}

/-- Takes a key from the keypad. Without one the loop blocks, or ends on a cancelled keypad. -/
def takeFromKeypad (r : Run σ) (stepping : Bool) : Run σ :=
  if r.machine.keypad.blocks then {r with phase := .blocked stepping}
  else
    match r.machine.keypad.take with
    | (some key, keypad) => receive {r with machine.keypad := keypad} stepping key
    | (none, _) => {r with phase := .ended}

/-- A cycle of a machine that waits for no key. -/
def cycle [Display σ] (watcher : Watcher) (r : Run σ) : Run σ :=
  match Machine.step r.machine with
  | .error fault m => {r with machine := m, phase := .crashed (.fault fault)}
  | .ok (.executed i) m =>
      let r := {r with machine := m}
      if i.refreshes then
        let r := {r with refreshes := r.refreshes + 1}
        match watcher r.refreshes with
        | .acts actions => complete (r.actAll actions)
        | .fails => {r with phase := .crashed .display}
      else complete r
  | .ok _ m => complete {r with machine := m}

/-- Begins a cycle, under a pause or not. -/
def begin [Display σ] (watcher : Watcher) (r : Run σ) (stepping : Bool) : Run σ :=
  match r.machine.mode with
  | .running => r.cycle watcher
  | .waitingForKey _ =>
      match r.machine.heldKey with
      | some key => receive {r with machine.heldKey := none} stepping key
      | none => r.takeFromKeypad stepping

/-- One step of the loop. It changes nothing when the loop has been left, when it is paused and
no cycle is wanted, and when it waits for a key that has not come. -/
def advanceWith [Display σ] (watcher : Watcher) (r : Run σ) : Run σ :=
  match r.phase with
  | .ended | .crashed _ => r
  | .blocked stepping => r.takeFromKeypad stepping
  | .ready =>
      if r.panel.stopped then {r with phase := .ended}
      else if r.panel.idles then r
      else if r.panel.paused then begin watcher {r with panel := r.panel.takeStep} true
      else begin watcher r false

/-- One step of the loop with nobody at the display. -/
def advance [Display σ] (r : Run σ) : Run σ :=
  r.advanceWith .silent

/-- Steps until the loop has been left, but not more than a number of them. -/
def finish [Display σ] (watcher : Watcher) : Nat → Run σ → Run σ
  | 0, r => r
  | n + 1, r => if r.isOver then r else finish watcher n (r.advanceWith watcher)

end Run

end Chip8
