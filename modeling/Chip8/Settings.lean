/-!
How a machine is set up, where programs and players differ in what they expect.
-/

namespace Chip8

structure Settings where
  /-- The pause between two cycles of a run, in microseconds. -/
  cycleDelay : Nat
  /-- How often the timers tick in a second. -/
  timerFrequency : Nat
  /-- The seed of the random source, when it is to be reproducible. -/
  seed : Option UInt64
  /-- Whether storing and loading registers moves the index behind the last one. -/
  movesIndex : Bool
  /-- Whether a run publishes what it did after every cycle. -/
  debug : Bool
deriving DecidableEq, Repr

def Settings.default : Settings :=
  ⟨2000, 60, none, false, false⟩

end Chip8
