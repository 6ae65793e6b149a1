import Chip8.Memory.Basic

/-!
The sixteen byte registers, the index and the program counter. The last byte register is the
flag: arithmetic leaves its carry there and drawing its collision.
-/

namespace Chip8

structure Registers where
  v : Vector UInt8 16
  index : UInt16
  pc : UInt16
deriving DecidableEq

namespace Registers

def initial : Registers :=
  ⟨Vector.replicate 16 0, 0, Memory.programStart⟩

/-- The register an operand names, if the machine has it. -/
def find? (k : UInt8) : Option (Fin 16) :=
  if h : k.toNat < 16 then some ⟨k.toNat, h⟩ else none

/-- The register that carries, borrows and collisions go to. -/
abbrev flagRegister : Fin 16 := Fin.last 15

/-- The register that a jump with an offset starts from. -/
abbrev offsetRegister : Fin 16 := ⟨0, by decide⟩

def get (r : Registers) (k : Fin 16) : UInt8 :=
  r.v.get k

theorem val_lt (k : Fin 16) : k.val < 16 := k.isLt

def set (r : Registers) (k : Fin 16) (byte : UInt8) : Registers :=
  {r with v := r.v.set k.val byte (val_lt k)}

def flag (r : Registers) : UInt8 :=
  r.get flagRegister

/-- The flag is one or zero. -/
def setFlag (r : Registers) (on : Bool) : Registers :=
  r.set flagRegister on.toUInt8

/-- The bytes of the registers up to and including `x`, or of all when `x` is none of them. -/
def upTo (r : Registers) (x : UInt8) : List UInt8 :=
  r.v.toList.take (x.toNat + 1)

/-- Gives new bytes to the registers up to and including `x`, or to all when `x` is none of
them. -/
def replaceUpTo (r : Registers) (x : UInt8) (byte : Fin 16 → UInt8) : Registers :=
  {r with v := Vector.ofFn fun k => if k.val ≤ x.toNat then byte k else r.get k}

end Registers

end Chip8
