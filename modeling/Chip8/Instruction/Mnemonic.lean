import Chip8.Instruction.Code
import Chip8.Text.Hex
import Chip8.Text.Numeral

/-!
Instructions in the words of an assembler. Registers are written with as few digits as they
need, constants in at least two, addresses in at least three and whole opcodes in four, so that
two different instructions never share a text.
-/

namespace Chip8

open Text

/-- The word for an operation of the arithmetic family. -/
def AluOp.mnemonic : AluOp → List Char
  | .copy => "LD".toList
  | .or => "OR".toList
  | .and => "AND".toList
  | .xor => "XOR".toList
  | .add => "ADD".toList
  | .sub => "SUB".toList
  | .shiftRight => "SHR".toList
  | .subReversed => "SUBN".toList
  | .shiftLeft => "SHL".toList

/-- The name of a register. -/
def registerName (k : UInt8) : List Char :=
  'V' :: hex 1 k.toUInt16

/-- A constant operand. -/
def constantText (value : UInt8) : List Char :=
  hexMarked 2 value.toUInt16

/-- An address operand. -/
def addressText (address : UInt16) : List Char :=
  hexMarked 3 address

/-- Operands stand behind the word, a comma between two of them. -/
def operands : List (List Char) → List Char
  | [] => []
  | [a] => a
  | a :: rest => a ++ ", ".toList ++ operands rest

/-- The word of an instruction and its operands. -/
def Instruction.parts : Instruction → List Char × List (List Char)
  | .clearScreen => ("CLS".toList, [])
  | .ret => ("RET".toList, [])
  | .jump address => ("JP".toList, [addressText address])
  | .call address => ("CALL".toList, [addressText address])
  | .skipEq x value => ("SE".toList, [registerName x, constantText value])
  | .skipNe x value => ("SNE".toList, [registerName x, constantText value])
  | .skipEqReg x y => ("SE".toList, [registerName x, registerName y])
  | .skipNeReg x y => ("SNE".toList, [registerName x, registerName y])
  | .load x value => ("LD".toList, [registerName x, constantText value])
  | .add x value => ("ADD".toList, [registerName x, constantText value])
  | .alu op x y => (op.mnemonic, [registerName x, registerName y])
  | .loadIndex address => ("LD".toList, ["I".toList, addressText address])
  | .jumpOffset address => ("JP".toList, ["V0".toList, addressText address])
  | .random x mask => ("RND".toList, [registerName x, constantText mask])
  | .draw x y height => ("DRW".toList, [registerName x, registerName y, decimal height.toNat])
  | .skipDown x => ("SKP".toList, [registerName x])
  | .skipUp x => ("SKNP".toList, [registerName x])
  | .readDelay x => ("LD".toList, [registerName x, "DT".toList])
  | .awaitKey x => ("LD".toList, [registerName x, "K".toList])
  | .setDelay x => ("LD".toList, ["DT".toList, registerName x])
  | .setSound x => ("LD".toList, ["ST".toList, registerName x])
  | .addIndex x => ("ADD".toList, ["I".toList, registerName x])
  | .loadGlyph x => ("LD".toList, ["F".toList, registerName x])
  | .storeDigits x => ("LD".toList, ["B".toList, registerName x])
  | .storeRegisters x => ("LD".toList, ["[I]".toList, registerName x])
  | .loadRegisters x => ("LD".toList, [registerName x, "[I]".toList])
  | .unknown raw => ("???".toList, [hexMarked 4 raw])

/-- The text of an instruction. -/
def Instruction.mnemonic (i : Instruction) : List Char :=
  match i.parts with
  | (word, []) => word
  | (word, args) => word ++ ' ' :: operands args

end Chip8
