import Chip8.Opcode
import Chip8.Instruction.Basic

/-!
Instructions as opcodes. `Instruction.decode` reads the nibbles in order and turns what fits no
form into `unknown` with the whole word, so no opcode is lost; `Instruction.encode` writes the
word an instruction came from.
-/

namespace Chip8

/-- The operation selected by the last nibble of the arithmetic family. -/
def AluOp.ofNibble? : UInt8 → Option AluOp
  | 0x0 => some .copy
  | 0x1 => some .or
  | 0x2 => some .and
  | 0x3 => some .xor
  | 0x4 => some .add
  | 0x5 => some .sub
  | 0x6 => some .shiftRight
  | 0x7 => some .subReversed
  | 0xE => some .shiftLeft
  | _ => none

/-- The last nibble that selects the operation. -/
def AluOp.nibble : AluOp → UInt8
  | .copy => 0x0
  | .or => 0x1
  | .and => 0x2
  | .xor => 0x3
  | .add => 0x4
  | .sub => 0x5
  | .shiftRight => 0x6
  | .subReversed => 0x7
  | .shiftLeft => 0xE

/-- The instruction of the key family selected by the low byte. -/
def Instruction.ofKeyByte? (x : UInt8) : UInt8 → Option Instruction
  | 0x9E => some (.skipDown x)
  | 0xA1 => some (.skipUp x)
  | _ => none

/-- The instruction of the last family selected by the low byte. -/
def Instruction.ofMiscByte? (x : UInt8) : UInt8 → Option Instruction
  | 0x07 => some (.readDelay x)
  | 0x0A => some (.awaitKey x)
  | 0x15 => some (.setDelay x)
  | 0x18 => some (.setSound x)
  | 0x1E => some (.addIndex x)
  | 0x29 => some (.loadGlyph x)
  | 0x33 => some (.storeDigits x)
  | 0x55 => some (.storeRegisters x)
  | 0x65 => some (.loadRegisters x)
  | _ => none

/-- The instruction an opcode names, if it names one. -/
def Instruction.ofOpcode? (op : Opcode) : Option Instruction :=
  match op.family with
  | 0x0 => if op = 0x00E0 then some .clearScreen else if op = 0x00EE then some .ret else none
  | 0x1 => some (.jump op.nnn)
  | 0x2 => some (.call op.nnn)
  | 0x3 => some (.skipEq op.x op.nn)
  | 0x4 => some (.skipNe op.x op.nn)
  | 0x5 => if op.n = 0 then some (.skipEqReg op.x op.y) else none
  | 0x6 => some (.load op.x op.nn)
  | 0x7 => some (.add op.x op.nn)
  | 0x8 => (AluOp.ofNibble? op.n).map (.alu · op.x op.y)
  | 0x9 => if op.n = 0 then some (.skipNeReg op.x op.y) else none
  | 0xA => some (.loadIndex op.nnn)
  | 0xB => some (.jumpOffset op.nnn)
  | 0xC => some (.random op.x op.nn)
  | 0xD => some (.draw op.x op.y op.n)
  | 0xE => Instruction.ofKeyByte? op.x op.nn
  | 0xF => Instruction.ofMiscByte? op.x op.nn
  | _ => none

/-- The instruction an opcode stands for: the one it names, or `unknown` with the opcode. -/
def Instruction.decode (op : Opcode) : Instruction :=
  (Instruction.ofOpcode? op).getD (.unknown op)

/-- The opcode of an instruction. Operands too large for their field spill into the fields
before it, so only an instruction whose operands fit is found again by decoding. -/
def Instruction.encode : Instruction → Opcode
  | .clearScreen => 0x00E0
  | .ret => 0x00EE
  | .jump address => .ofAddress 0x1 address
  | .call address => .ofAddress 0x2 address
  | .skipEq x value => .ofByte 0x3 x value
  | .skipNe x value => .ofByte 0x4 x value
  | .skipEqReg x y => .ofNibbles 0x5 x y 0x0
  | .load x value => .ofByte 0x6 x value
  | .add x value => .ofByte 0x7 x value
  | .alu op x y => .ofNibbles 0x8 x y op.nibble
  | .skipNeReg x y => .ofNibbles 0x9 x y 0x0
  | .loadIndex address => .ofAddress 0xA address
  | .jumpOffset address => .ofAddress 0xB address
  | .random x mask => .ofByte 0xC x mask
  | .draw x y height => .ofNibbles 0xD x y height
  | .skipDown x => .ofByte 0xE x 0x9E
  | .skipUp x => .ofByte 0xE x 0xA1
  | .readDelay x => .ofByte 0xF x 0x07
  | .awaitKey x => .ofByte 0xF x 0x0A
  | .setDelay x => .ofByte 0xF x 0x15
  | .setSound x => .ofByte 0xF x 0x18
  | .addIndex x => .ofByte 0xF x 0x1E
  | .loadGlyph x => .ofByte 0xF x 0x29
  | .storeDigits x => .ofByte 0xF x 0x33
  | .storeRegisters x => .ofByte 0xF x 0x55
  | .loadRegisters x => .ofByte 0xF x 0x65
  | .unknown raw => raw

end Chip8
