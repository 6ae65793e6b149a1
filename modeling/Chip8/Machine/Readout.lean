import Chip8.Instruction.Mnemonic
import Chip8.Machine.Basic

/-!
A copy of what a debugger shows of a machine, and its text.
-/

namespace Chip8

open Text

structure Readout where
  /-- The opcode fetched last. -/
  opcode : Opcode
  pc : UInt16
  index : UInt16
  v : Vector UInt8 16
  timers : Timers
  keys : Vector Bool 16
  /-- The addresses on the call stack, the oldest first. -/
  stack : List UInt16
  mode : Mode
deriving DecidableEq

def Machine.readout {σ : Type} (m : Machine σ) : Readout where
  opcode := m.lastOpcode
  pc := m.registers.pc
  index := m.registers.index
  v := m.registers.v
  timers := m.timers
  keys := m.keypad.keys
  stack := m.stack.toList
  mode := m.mode

def Mode.text : Mode → List Char
  | .running => "Running".toList
  | .waitingForKey register =>
      "WaitingForKey \x7b register: ".toList ++ decimal register.toNat ++ " \x7d".toList

/-- A register and its byte. -/
def registerCell (k byte : UInt8) : List Char :=
  registerName k ++ ' ' :: hexByte byte

/-- Cells in one line, two blanks between them. -/
def cellLine : List (List Char) → List Char
  | [] => ['\n']
  | [cell] => cell ++ ['\n']
  | cell :: rest => cell ++ ' ' :: ' ' :: cellLine rest

/-- A held key is shown by its digit and another by a dot. -/
def keyChar (key : Nat) (down : Bool) : Char :=
  if down then hexDigit key else '.'

namespace Readout

/-- The cells of the registers from one on. -/
def registerCells (r : Readout) (start count : Nat) : List (List Char) :=
  (List.range count).map fun n =>
    registerCell (start + n).toUInt8 (r.v.toList.getD (start + n) 0)

def keyLine (r : Readout) : List Char :=
  (r.keys.toList.zipIdx.map fun (down, key) => keyChar key down) ++ ['\n']

def stackLine (r : Readout) : List Char :=
  (r.stack.flatMap fun address => ' ' :: hexMarked 4 address) ++ ['\n']

/-- The lines of a readout: the instruction, the addresses, the registers in two rows of
eight, the timers, the keys and the calls. -/
def text (r : Readout) : List Char :=
  cellLine ["opcode ".toList ++ hexMarked 4 r.opcode, (Instruction.decode r.opcode).mnemonic]
    ++ cellLine ["PC ".toList ++ hexMarked 4 r.pc, "I ".toList ++ hexMarked 4 r.index, r.mode.text]
    ++ cellLine (r.registerCells 0 8)
    ++ cellLine (r.registerCells 8 8)
    ++ cellLine ["DT ".toList ++ hexByte r.timers.delay, "ST ".toList ++ hexByte r.timers.sound]
    ++ "keys ".toList ++ r.keyLine
    ++ "stack".toList ++ r.stackLine

end Readout

end Chip8
