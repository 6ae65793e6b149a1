/-!
The delay timer and the sound timer. Both count down to zero together, at a pace of their own
that has nothing to do with how fast instructions run; a tone sounds while the second is
above zero.
-/

namespace Chip8

structure Timers where
  delay : UInt8
  sound : UInt8
deriving DecidableEq, Repr

namespace Timers

def zero : Timers :=
  ⟨0, 0⟩

/-- One less, but not below zero. -/
def countDown (value : UInt8) : UInt8 :=
  if value = 0 then 0 else value - 1

def tick (t : Timers) : Timers :=
  ⟨countDown t.delay, countDown t.sound⟩

/-- Several ticks. -/
def ticks (t : Timers) : Nat → Timers
  | 0 => t
  | n + 1 => t.tick.ticks n

def soundActive (t : Timers) : Bool :=
  0 < t.sound

theorem toNat_countDown (value : UInt8) : (countDown value).toNat = value.toNat - 1 := by
  unfold countDown
  split
  · next h => simp [h]
  · next h =>
      have hpos : 0 < value.toNat := Nat.pos_of_ne_zero fun e => h (UInt8.toNat_inj.1 e)
      have hlt := value.toNat_lt
      rw [UInt8.toNat_sub]
      simp only [UInt8.toNat_one]
      omega

end Timers

end Chip8
