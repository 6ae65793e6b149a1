import Chip8.Instruction.Basic

/-!
The arithmetic of two bytes: the byte each operation leaves, and the flag of those that have
one.
-/

namespace Chip8

/-- The outcome of an operation on the bytes of two registers. -/
def AluOp.apply (op : AluOp) (a b : UInt8) : UInt8 × Option Bool :=
  match op with
  | .copy => (b, none)
  | .or => (a ||| b, none)
  | .and => (a &&& b, none)
  | .xor => (a ^^^ b, none)
  | .add => (a + b, some (256 ≤ a.toNat + b.toNat))
  | .sub => (a - b, some (b ≤ a))
  | .shiftRight => (a / 2, some (a % 2 = 1))
  | .subReversed => (b - a, some (a ≤ b))
  | .shiftLeft => (a + a, some (128 ≤ a))

/-- The hundreds, tens and ones of a byte. -/
def decimalDigits (byte : UInt8) : List UInt8 :=
  [byte / 100, byte / 10 % 10, byte % 10]

end Chip8
