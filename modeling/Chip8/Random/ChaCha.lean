/-!
The ChaCha stream of 32-bit words, with twenty rounds and a 64-bit block counter, and the key
that a 64-bit seed is stretched into. The n-th word of a stream is computed from its number
alone, so a stream has no state.
-/

namespace Chip8.ChaCha

/-- The sixteen words of a block. -/
abbrev Block := Vector UInt32 16

def rotateLeft (w n : UInt32) : UInt32 :=
  w <<< n ||| w >>> (32 - n)

def rotateRight (w n : UInt32) : UInt32 :=
  rotateLeft w (32 - n)

/-- Adds the second word to the first, and the outcome to the third with a rotation. -/
def addRotate (b : Block) (sum other mixed : Fin 16) (n : UInt32) : Block :=
  let b := b.set sum (b[sum] + b[other])
  b.set mixed (rotateLeft (b[mixed] ^^^ b[sum]) n)

def quarterRound (b : Block) (i j k l : Fin 16) : Block :=
  let b := addRotate b i j l 16
  let b := addRotate b k l j 12
  let b := addRotate b i j l 8
  addRotate b k l j 7

/-- One round down the columns and one along the diagonals. -/
def doubleRound (b : Block) : Block :=
  let b := quarterRound b 0 4 8 12
  let b := quarterRound b 1 5 9 13
  let b := quarterRound b 2 6 10 14
  let b := quarterRound b 3 7 11 15
  let b := quarterRound b 0 5 10 15
  let b := quarterRound b 1 6 11 12
  let b := quarterRound b 2 7 8 13
  quarterRound b 3 4 9 14

/-- The block before the rounds: four constants, the key, the counter, and two zeros. -/
def start (key : Vector UInt32 8) (counter : UInt64) : Block :=
  let constants : Vector UInt32 4 := #v[0x61707865, 0x3320646E, 0x79622D32, 0x6B206574]
  let position : Vector UInt32 4 := #v[counter.toUInt32, (counter >>> 32).toUInt32, 0, 0]
  constants ++ key ++ position

def block (key : Vector UInt32 8) (counter : UInt64) : Block :=
  let first := start key counter
  let mixed := Nat.repeat doubleRound 10 first
  Vector.zipWith (· + ·) mixed first

/-- The n-th word of the stream. -/
def word (key : Vector UInt32 8) (n : Nat) : UInt32 :=
  (block key (n / 16).toUInt64)[n % 16]

/-- The step of the generator that stretches a seed. -/
def stretch (state : UInt64) : UInt64 :=
  state * 6364136223846793005 + 11634580027462260723

/-- The word a stretched state gives away. -/
def stretchedWord (state : UInt64) : UInt32 :=
  rotateRight (((state >>> 18) ^^^ state) >>> 27).toUInt32 (state >>> 59).toUInt32

/-- Eight words from the states that follow a seed. -/
def keyOfSeed (seed : UInt64) : Vector UInt32 8 :=
  Vector.ofFn fun i => stretchedWord (Nat.repeat stretch (i.val + 1) seed)

end Chip8.ChaCha
