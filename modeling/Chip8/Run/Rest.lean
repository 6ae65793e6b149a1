import Chip8.Run.Loop

/-!
When a run has come to rest: the loop cannot go on by itself, or it goes round through states it
has been in before. In both cases nothing new comes of waiting, until somebody acts on the run.
-/

namespace Chip8

/-- Whether two states of one machine have the same future: they agree in all but the opcode
fetched last and in what the display has seen, on which nothing depends. -/
def Machine.goesOnLike {σ : Type} (m m' : Machine σ) : Bool :=
  m.registers.pc == m'.registers.pc && m.registers == m'.registers && m.mode == m'.mode
    && m.heldKey == m'.heldKey && m.timers == m'.timers && m.random.drawn == m'.random.drawn
    && m.keypad == m'.keypad && m.stack == m'.stack && m.screen == m'.screen
    && m.memory == m'.memory

namespace Run

variable {σ : Type}

/-- Whether the loop cannot go on by itself: it has been left, it is paused and no cycle is
wanted, or it waits for a key that has not come. -/
def resting (r : Run σ) : Bool :=
  match r.phase with
  | .ended | .crashed _ => true
  | .blocked _ => r.machine.keypad.blocks
  | .ready => !r.panel.stopped && r.panel.idles

/-- A step of a loop at rest changes nothing. -/
theorem advanceWith_of_resting [Display σ] (watcher : Watcher) (r : Run σ)
    (h : r.resting = true) : r.advanceWith watcher = r := by
  obtain ⟨m, panel, phase, refreshes⟩ := r
  cases phase <;> simp_all [resting, advanceWith, takeFromKeypad]

/-- A machine that the run had some steps ago, and after how many steps a later one takes its
place. -/
structure Landmark (σ : Type) where
  machine : Machine σ
  age : Nat
  span : Nat

/-- The landmark after one more step. Each one stands twice as long as the one before it, so a
round of any length is noticed in the end. -/
def Landmark.next (mark : Landmark σ) (m : Machine σ) : Landmark σ :=
  if mark.age < mark.span then {mark with age := mark.age + 1} else ⟨m, 1, 2 * mark.span⟩

/-- Steps, with nobody at the display, until the run rests or has come back to its landmark, but
not more than a number of them. -/
def goToRestFrom [Display σ] : Nat → Landmark σ → Run σ → Run σ
  | 0, _, r => r
  | n + 1, mark, r =>
      if r.resting then r
      else
        let r := r.advance
        if r.machine.goesOnLike mark.machine then r
        else goToRestFrom n (mark.next r.machine) r

/-- Steps until the run rests or goes round, but not more than a number of them. -/
def goToRest [Display σ] (limit : Nat) (r : Run σ) : Run σ :=
  goToRestFrom limit ⟨r.machine, 1, 1⟩ r

end Run

end Chip8
