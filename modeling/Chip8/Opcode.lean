/-!
The fields of a two-byte opcode, as every instruction reads them: four nibbles, the low byte
and the low twelve bits. Reading is total, so an opcode that names no instruction still has
its fields.
-/

namespace Chip8

/-- The two bytes at the program counter, the first of them as the high one. -/
abbrev Opcode := UInt16

/-- The word whose high and low bytes are given. -/
def Opcode.ofBytes (high low : UInt8) : Opcode :=
  high.toUInt16 * 0x100 + low.toUInt16

/-- The word with the given nibbles, most significant first. -/
def Opcode.ofNibbles (family x y n : UInt8) : Opcode :=
  family.toUInt16 * 0x1000 + x.toUInt16 * 0x100 + y.toUInt16 * 0x10 + n.toUInt16

/-- The word with the given first and second nibble and low byte. -/
def Opcode.ofByte (family x nn : UInt8) : Opcode :=
  family.toUInt16 * 0x1000 + x.toUInt16 * 0x100 + nn.toUInt16

/-- The word with the given first nibble and low twelve bits. -/
def Opcode.ofAddress (family : UInt8) (address : UInt16) : Opcode :=
  family.toUInt16 * 0x1000 + address

/-- The first nibble, which selects the family of the instruction. -/
def Opcode.family (op : Opcode) : UInt8 :=
  (op / 0x1000).toUInt8

/-- The second nibble, most often a register. -/
def Opcode.x (op : Opcode) : UInt8 :=
  (op / 0x100 % 0x10).toUInt8

/-- The third nibble, most often a register. -/
def Opcode.y (op : Opcode) : UInt8 :=
  (op / 0x10 % 0x10).toUInt8

/-- The last nibble. -/
def Opcode.n (op : Opcode) : UInt8 :=
  (op % 0x10).toUInt8

/-- The low byte. -/
def Opcode.nn (op : Opcode) : UInt8 :=
  (op % 0x100).toUInt8

/-- The low twelve bits, most often an address. -/
def Opcode.nnn (op : Opcode) : UInt16 :=
  op % 0x1000

namespace Opcode

theorem toNat_family (op : Opcode) : op.family.toNat = op.toNat / 4096 := by
  have h := UInt16.toNat_lt op
  simp [family]
  omega

theorem toNat_x (op : Opcode) : op.x.toNat = op.toNat / 256 % 16 := by
  simp [x]
  omega

theorem toNat_y (op : Opcode) : op.y.toNat = op.toNat / 16 % 16 := by
  simp [y]
  omega

theorem toNat_n (op : Opcode) : op.n.toNat = op.toNat % 16 := by
  simp [n]
  omega

theorem toNat_nn (op : Opcode) : op.nn.toNat = op.toNat % 256 := by
  simp [nn]

theorem toNat_nnn (op : Opcode) : op.nnn.toNat = op.toNat % 4096 := by
  simp [nnn]

/-- The nibbles of an opcode make it up again. -/
theorem ofNibbles_fields (op : Opcode) : ofNibbles op.family op.x op.y op.n = op := by
  apply UInt16.toNat_inj.1
  have h := UInt16.toNat_lt op
  simp [ofNibbles, toNat_family, toNat_x, toNat_y, toNat_n]
  omega

/-- So do two nibbles and the low byte. -/
theorem ofByte_fields (op : Opcode) : ofByte op.family op.x op.nn = op := by
  apply UInt16.toNat_inj.1
  have h := UInt16.toNat_lt op
  simp [ofByte, toNat_family, toNat_x, toNat_nn]
  omega

/-- So do the first nibble and the low twelve bits. -/
theorem ofAddress_fields (op : Opcode) : ofAddress op.family op.nnn = op := by
  apply UInt16.toNat_inj.1
  have h := UInt16.toNat_lt op
  simp [ofAddress, toNat_family, toNat_nnn]
  omega

end Opcode

end Chip8
