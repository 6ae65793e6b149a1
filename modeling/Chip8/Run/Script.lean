import Chip8.Run.Rest

/-!
A run beside somebody who follows a script: actions on the panel and the keypad, and waits for
something to come about. The loop is much faster than whoever acts beside it. So while the
script waits the loop goes on, and when the wait is over it has gone on until it came to rest, or
for many steps if it does not; actions that follow one another fall between two of its steps.
Where a script says nothing about when something happens, this is one of the orders in which it
may.
-/

namespace Chip8.Run

variable {σ : Type}

/-- What a script can wait for. -/
inductive Condition
  /-- The keypad listens for a press. -/
  | listening
  /-- The readout published last shows the address as program counter. -/
  | published (pc : UInt16)
  /-- The display was shown that many frames since the run began. -/
  | refreshed (count : Nat)
  | timersZero
deriving DecidableEq, Repr

/-- One line of a script. -/
inductive Cue
  | act (action : Action)
  | await (condition : Condition)
deriving DecidableEq, Repr

def meets (r : Run σ) : Condition → Bool
  | .listening => r.machine.keypad.waiting
  | .published pc => r.panel.published.any fun readout => readout.pc == pc
  | .refreshed count => count ≤ r.refreshes
  | .timersZero => r.machine.timers == .zero

/-- What a script is followed beside. -/
inductive Scene
  /-- A run that is under way before its script begins, and that may end by itself. -/
  | run
  /-- A session, which begins with its script, whose timers tick, and which lasts until it is shut
  down. -/
  | session
deriving DecidableEq, Repr

/-- One step of the loop, and a tick of the timers where they go on meanwhile. -/
def turn [Display σ] (watcher : Watcher) (scene : Scene) (r : Run σ) : Run σ :=
  let r := r.advanceWith watcher
  match scene with
  | .run => r
  | .session => {r with machine := r.machine.tick}

/-- Lets the run go on until it rests, but not for more than a number of turns. -/
def settle [Display σ] (watcher : Watcher) (scene : Scene) : Nat → Run σ → Run σ
  | 0, r => r
  | n + 1, r => if r.resting then r else settle watcher scene n (r.turn watcher scene)

/-- Lets the run go on until a condition holds, but not for more than a number of turns. -/
def goOnUntil [Display σ] (watcher : Watcher) (scene : Scene) (goal : Condition) :
    Nat → Run σ → Run σ
  | 0, r => r
  | n + 1, r => if r.meets goal then r else goOnUntil watcher scene goal n (r.turn watcher scene)

/-- For how many turns a script waits for a condition before it goes on without it. -/
def patience : Nat := 10000000

/-- How many turns a loop that never rests takes before somebody beside it can act. -/
def headway : Nat := 1000

/-- The run when whoever waits for a condition has seen it. What holds already is seen at once,
and the loop gains no headway by it. -/
def await [Display σ] (watcher : Watcher) (scene : Scene) (goal : Condition) (r : Run σ) :
    Run σ :=
  if r.meets goal then r
  else (r.goOnUntil watcher scene goal patience).settle watcher scene headway

/-- Follows a script from some line to its end. -/
def follow [Display σ] (watcher : Watcher) (scene : Scene) : List Cue → Run σ → Run σ
  | [], r => r
  | .act action :: rest, r => follow watcher scene rest (r.act action)
  | .await goal :: rest, r => follow watcher scene rest (r.await watcher scene goal)

/-- Follows a whole script. -/
def play [Display σ] (watcher : Watcher) (scene : Scene) (script : List Cue) (r : Run σ) :
    Run σ :=
  match scene with
  | .run => (r.settle watcher scene headway).follow watcher scene script
  | .session => r.follow watcher scene script

/-- Stops the loop and cancels a wait in progress. From wherever it stands, the loop is left
after three steps at most: it may still take up a cycle that a key has come to. -/
def stopNow [Display σ] (watcher : Watcher) (r : Run σ) : Run σ :=
  ((r.act (.panel .stop)).act (.keypad .cancel)).finish watcher 3

/-- What becomes of a run when its script is at an end. One that has ended by itself is left
alone; a session is stopped in any case. -/
def shutDown [Display σ] (watcher : Watcher) (scene : Scene) (r : Run σ) : Run σ :=
  match scene with
  | .run => if r.isOver then r else r.stopNow watcher
  | .session => r.stopNow watcher

end Chip8.Run
