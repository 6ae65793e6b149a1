import Chip8.CallStack
import Chip8.Display
import Chip8.Keypad.Basic
import Chip8.Memory.Basic
import Chip8.Random.Source
import Chip8.Registers
import Chip8.Settings
import Chip8.Timers

/-!
The machine as a whole. It is generic in the display its frames go to: nothing the machine does
depends on what the display makes of a frame.
-/

namespace Chip8

/-- Whether the instruction stream is moving. -/
inductive Mode
  | running
  /-- Suspended until a key is pressed; the key goes into the register. -/
  | waitingForKey (register : UInt8)
deriving DecidableEq, Repr

structure Machine (σ : Type) where
  memory : Memory
  registers : Registers
  stack : CallStack
  screen : Screen
  timers : Timers
  keypad : Keypad
  random : Random.Source
  mode : Mode
  /-- A key that came for a wait while the machine was paused, kept until it goes on. -/
  heldKey : Option UInt8
  /-- The opcode fetched last. -/
  lastOpcode : Opcode
  settings : Settings
  display : σ

namespace Machine

variable {σ : Type}

/-- A machine that has done nothing yet. -/
def fresh (settings : Settings) (random : Random.Source) (display : σ) : Machine σ where
  memory := .initial
  registers := .initial
  stack := .empty
  screen := .blank
  timers := .zero
  keypad := .initial
  random := random
  mode := .running
  heldKey := none
  lastOpcode := 0
  settings := settings
  display := display

/-- A fresh machine whose random source is the one that `source` gives for the seed of the settings.
Without a seed any source will do, and this one is zero for ever. -/
def seededBy (source : UInt64 → Random.Source) (settings : Settings) (display : σ) : Machine σ :=
  fresh settings ((settings.seed.map source).getD (.cycling #[])) display

/-- A fresh machine that draws the words of its seed. -/
def ofSettings (settings : Settings) (display : σ) : Machine σ :=
  seededBy Random.Source.ofSeed settings display

/-- Copies a program into memory. One that does not fit changes nothing. -/
def load (m : Machine σ) (program : List UInt8) : Except Failure (Machine σ) :=
  match m.memory.loadProgram program with
  | .ok memory => .ok {m with memory := memory}
  | .error failure => .error failure

/-- Counts both timers down by one. -/
def tick (m : Machine σ) : Machine σ :=
  {m with timers := m.timers.tick}

/-- Changes the keypad and nothing else. -/
def onKeypad (m : Machine σ) (change : Keypad → Keypad) : Machine σ :=
  {m with keypad := change m.keypad}

/-- Shows the screen. -/
def refresh [Display σ] (m : Machine σ) : Machine σ :=
  {m with display := Display.refresh m.display m.screen}

/-- Puts every part of the machine back to where it began, and shows the screen, which is blank
then. The random source goes on where it was, and what the display has seen stays seen. -/
def reset [Display σ] (m : Machine σ) : Machine σ :=
  refresh {m with
    memory := .initial
    registers := .initial
    stack := .empty
    screen := .blank
    timers := .zero
    keypad := .initial
    mode := .running
    heldKey := none
    lastOpcode := 0}

/-- A machine that was reset is as good as fresh. -/
theorem reset_eq_fresh [Display σ] (m : Machine σ) :
    m.reset = fresh m.settings m.random (Display.refresh m.display .blank) := by
  simp only [reset, refresh, fresh]

end Machine

end Chip8
