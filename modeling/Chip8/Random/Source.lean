import Chip8.Random.ChaCha

/-!
A source of random words: a sequence that is fixed from the start, and how many of its words
were drawn. Two sources of one seed at one position give the same words for ever.
-/

namespace Chip8.Random

structure Source where
  word : Nat → UInt32
  drawn : Nat

namespace Source

/-- The next word, and the source behind it. -/
def next (s : Source) : UInt32 × Source :=
  (s.word s.drawn, {s with drawn := s.drawn + 1})

/-- The words of a seed. -/
def ofSeed (seed : UInt64) : Source :=
  let key := ChaCha.keyOfSeed seed
  ⟨ChaCha.word key, 0⟩

/-- The low halves of `first`, `first + step`, `first + 2 * step` and so on, modulo 2^64. -/
def arithmetic (first step : UInt64) : Source :=
  ⟨fun n => (first + n.toUInt64 * step).toUInt32, 0⟩

/-- The given words over and over; zero for ever when there are none. -/
def cycling (words : Array UInt32) : Source :=
  ⟨fun n => words[n % words.size]?.getD 0, 0⟩

end Source

end Chip8.Random
