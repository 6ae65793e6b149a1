import Chip8.Failure
import Chip8.Memory.Font
import Chip8.Opcode

/-!
The 4 KiB of memory. Every sixteen-bit address can be read and written, but only those below
`Memory.bound` reach a cell: elsewhere a read gives zero and a write is lost. The last cell
therefore keeps its first value for ever.
-/

namespace Chip8

structure Memory where
  cells : Vector UInt8 4096
deriving DecidableEq

namespace Memory

/-- The first address that reaches no cell. -/
abbrev bound : Nat := 0xFFF

/-- Where a program is loaded and where execution starts. -/
abbrev programStart : UInt16 := 0x200

/-- The size of the largest program that ends below `bound`. -/
abbrev programLimit : Nat := 3583

theorem lt_size_of_lt_bound {n : Nat} (h : n < bound) : n < 4096 :=
  Nat.lt_trans h (by decide)

/-- The byte at an address. -/
def read (m : Memory) (address : UInt16) : UInt8 :=
  if h : address.toNat < bound then
    have hcell := lt_size_of_lt_bound h
    m.cells[address.toNat]
  else 0

/-- Puts a byte at an address. -/
def write (m : Memory) (address : UInt16) (byte : UInt8) : Memory :=
  if h : address.toNat < bound then
    have hcell := lt_size_of_lt_bound h
    ⟨m.cells.set address.toNat byte⟩
  else m

/-- Writes bytes one behind the other, from an address on. -/
def overlay (m : Memory) (address : UInt16) : List UInt8 → Memory
  | [] => m
  | byte :: rest => (m.write address byte).overlay (address + 1) rest

/-- The bytes from an address on. -/
def slice (m : Memory) (address : UInt16) : Nat → List UInt8
  | 0 => []
  | n + 1 => m.read address :: m.slice (address + 1) n

/-- The opcode at an address. Its second byte is not taken from the start of memory when the
first is at the last address there is. -/
def opcodeAt (m : Memory) (address : UInt16) : Opcode :=
  .ofBytes (m.read address) (if address = 0xFFFF then 0 else m.read (address + 1))

/-- Memory that holds the font and is zero elsewhere. -/
def initial : Memory :=
  overlay ⟨Vector.replicate 4096 0⟩ 0 fontRows

/-- Writes a program from `programStart` on. Cells behind it keep their bytes, and a program
that does not fit changes nothing. -/
def loadProgram (m : Memory) (program : List UInt8) : Except Failure Memory :=
  if program.length ≤ programLimit then .ok (m.overlay programStart program)
  else .error (.programTooLarge program.length programLimit)

theorem read_write_self {m : Memory} {address : UInt16} {byte : UInt8}
    (h : address.toNat < bound) : (m.write address byte).read address = byte := by
  simp [read, write, h]

theorem read_write_of_ne {m : Memory} {a b : UInt16} {byte : UInt8} (h : a ≠ b) :
    (m.write a byte).read b = m.read b := by
  have hne : a.toNat ≠ b.toNat := fun e => h (UInt16.toNat_inj.1 e)
  unfold write
  split
  · simp [read, hne]
  · rfl

theorem write_of_bound_le {m : Memory} {address : UInt16} {byte : UInt8}
    (h : bound ≤ address.toNat) : m.write address byte = m := by
  simp [write, Nat.not_lt.2 h]

theorem read_of_bound_le {m : Memory} {address : UInt16} (h : bound ≤ address.toNat) :
    m.read address = 0 := by
  simp [read, Nat.not_lt.2 h]

end Memory

end Chip8
