/-!
The instruction set. Operands are plain bytes and words: an instruction may name a register
that the machine does not have, an address that no opcode can hold, or a sprite of any height
up to 255, and only executing it decides what becomes of that.
-/

namespace Chip8

/-- The operations of the arithmetic family, each on two registers `x` and `y`. -/
inductive AluOp
  /-- The value of `y`. -/
  | copy
  | or
  | and
  | xor
  /-- The sum modulo 256; the flag is the carry. -/
  | add
  /-- `x` less `y` modulo 256; the flag is set when nothing had to be borrowed. -/
  | sub
  /-- Half of `x`; the flag is the bit that fell out. -/
  | shiftRight
  /-- `y` less `x` modulo 256; the flag is set when nothing had to be borrowed. -/
  | subReversed
  /-- Twice `x` modulo 256; the flag is the bit that fell out. -/
  | shiftLeft
deriving DecidableEq, Repr

/-- One instruction with its operands. -/
inductive Instruction
  | clearScreen
  /-- Goes back behind the call on top of the stack. -/
  | ret
  | jump (address : UInt16)
  /-- Goes to an address and remembers the call. -/
  | call (address : UInt16)
  /-- Skips the next instruction when a register holds the constant. -/
  | skipEq (x value : UInt8)
  /-- Skips the next instruction unless a register holds the constant. -/
  | skipNe (x value : UInt8)
  /-- Skips the next instruction when two registers agree. -/
  | skipEqReg (x y : UInt8)
  /-- Skips the next instruction unless two registers agree. -/
  | skipNeReg (x y : UInt8)
  | load (x value : UInt8)
  /-- Adds a constant to a register modulo 256, without a flag. -/
  | add (x value : UInt8)
  /-- Combines two registers into the first. -/
  | alu (op : AluOp) (x y : UInt8)
  | loadIndex (address : UInt16)
  /-- Goes to an address plus the first register. -/
  | jumpOffset (address : UInt16)
  /-- Sets a register to a random byte under a mask. -/
  | random (x mask : UInt8)
  /-- Draws a sprite of some height at the position two registers hold. -/
  | draw (x y height : UInt8)
  /-- Skips the next instruction when the key a register names is held. -/
  | skipDown (x : UInt8)
  /-- Skips the next instruction unless the key a register names is held. -/
  | skipUp (x : UInt8)
  | readDelay (x : UInt8)
  /-- Waits for a key press and sets a register to the key. -/
  | awaitKey (x : UInt8)
  | setDelay (x : UInt8)
  | setSound (x : UInt8)
  /-- Adds a register to the index. -/
  | addIndex (x : UInt8)
  /-- Points the index at the glyph of the digit a register holds. -/
  | loadGlyph (x : UInt8)
  /-- Stores the three decimal digits of a register at the index. -/
  | storeDigits (x : UInt8)
  /-- Stores the registers up to `x` at the index. -/
  | storeRegisters (x : UInt8)
  /-- Loads the registers up to `x` from the index. -/
  | loadRegisters (x : UInt8)
  /-- An opcode that names no instruction; it is passed over. -/
  | unknown (raw : UInt16)
deriving DecidableEq, Repr

/-- Whether executing the instruction shows a frame. -/
def Instruction.refreshes : Instruction → Bool
  | .clearScreen | .draw .. => true
  | _ => false

end Chip8
