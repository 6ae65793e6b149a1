import Chip8.Instruction.Code

/-!
What can come out of decoding. An opcode can be read back from its instruction, and every
register that a decoded instruction names is one the machine has.
-/

namespace Chip8

/-- The registers that an instruction names, in the order in which they stand in it. -/
def Instruction.registers : Instruction → List UInt8
  | .skipEq x _ | .skipNe x _ | .load x _ | .add x _ | .random x _ => [x]
  | .skipEqReg x y | .skipNeReg x y | .alu _ x y | .draw x y _ => [x, y]
  | .skipDown x | .skipUp x | .readDelay x | .awaitKey x | .setDelay x | .setSound x
  | .addIndex x | .loadGlyph x | .storeDigits x | .storeRegisters x | .loadRegisters x => [x]
  | .clearScreen | .ret | .jump _ | .call _ | .loadIndex _ | .jumpOffset _ | .unknown _ => []

/-- The two bytes of an opcode, the high one first, as they stand in memory. -/
def Opcode.bytes (op : Opcode) : List UInt8 :=
  [(op / 0x100).toUInt8, op.toUInt8]

/-- What decoding promises about an instruction: where it came from, and which registers it may
name. -/
def Instruction.ComesFrom (i : Instruction) (op : Opcode) : Prop :=
  i.encode = op ∧ ∀ k ∈ i.registers, k.toNat < 16

theorem Opcode.x_lt (op : Opcode) : op.x.toNat < 16 := by
  rw [toNat_x]
  omega

theorem Opcode.y_lt (op : Opcode) : op.y.toNat < 16 := by
  rw [toNat_y]
  omega

theorem Opcode.ofBytes_bytes (op : Opcode) :
    ofBytes (op / 0x100).toUInt8 op.toUInt8 = op := by
  apply UInt16.toNat_inj.1
  have h := UInt16.toNat_lt op
  simp [ofBytes]
  omega

theorem AluOp.nibble_of_ofNibble? {n : UInt8} {op : AluOp} (h : ofNibble? n = some op) :
    op.nibble = n := by
  unfold ofNibble? at h
  split at h <;> cases h <;> rfl

theorem Opcode.eq_ofByte {op : Opcode} {family nn : UInt8} (hfamily : op.family = family)
    (hnn : op.nn = nn) : ofByte family op.x nn = op := by
  rw [← hfamily, ← hnn]
  exact ofByte_fields op

theorem Opcode.eq_ofNibbles {op : Opcode} {family n : UInt8} (hfamily : op.family = family)
    (hn : op.n = n) : ofNibbles family op.x op.y n = op := by
  rw [← hfamily, ← hn]
  exact ofNibbles_fields op

theorem Opcode.eq_ofAddress {op : Opcode} {family : UInt8} (hfamily : op.family = family) :
    ofAddress family op.nnn = op := by
  rw [← hfamily]
  exact ofAddress_fields op

namespace Instruction

theorem ofKeyByte?_comesFrom {op : Opcode} {i : Instruction}
    (hfamily : op.family = 0xE) (h : ofKeyByte? op.x op.nn = some i) : i.ComesFrom op := by
  unfold ofKeyByte? at h
  split at h <;> cases h
  all_goals
    next hnn =>
      exact ⟨Opcode.eq_ofByte hfamily hnn, by simpa [registers] using op.x_lt⟩

theorem ofMiscByte?_comesFrom {op : Opcode} {i : Instruction}
    (hfamily : op.family = 0xF) (h : ofMiscByte? op.x op.nn = some i) : i.ComesFrom op := by
  unfold ofMiscByte? at h
  split at h <;> cases h
  all_goals
    next hnn =>
      exact ⟨Opcode.eq_ofByte hfamily hnn, by simpa [registers] using op.x_lt⟩

/-- An opcode that names an instruction can be read back from it. -/
theorem ofOpcode?_comesFrom {op : Opcode} {i : Instruction} (h : ofOpcode? op = some i) :
    i.ComesFrom op := by
  unfold ofOpcode? at h
  split at h
  case h_1 =>
    split at h
    · next hop => cases h; exact ⟨hop.symm, by simp [registers]⟩
    · split at h
      · next hop => cases h; exact ⟨hop.symm, by simp [registers]⟩
      · cases h
  case h_6 hfamily =>
    split at h
    · next hn =>
        cases h
        exact ⟨Opcode.eq_ofNibbles hfamily hn, by simp [registers, op.x_lt, op.y_lt]⟩
    · cases h
  case h_9 hfamily =>
    obtain ⟨alu, halu, rfl⟩ := Option.map_eq_some_iff.1 h
    exact ⟨Opcode.eq_ofNibbles hfamily (AluOp.nibble_of_ofNibble? halu).symm,
      by simp [registers, op.x_lt, op.y_lt]⟩
  case h_10 hfamily =>
    split at h
    · next hn =>
        cases h
        exact ⟨Opcode.eq_ofNibbles hfamily hn, by simp [registers, op.x_lt, op.y_lt]⟩
    · cases h
  case h_14 hfamily =>
    cases h
    exact ⟨Opcode.eq_ofNibbles hfamily rfl, by simp [registers, op.x_lt, op.y_lt]⟩
  case h_15 hfamily => exact ofKeyByte?_comesFrom hfamily h
  case h_16 hfamily => exact ofMiscByte?_comesFrom hfamily h
  case h_17 => cases h
  case h_2 hfamily | h_3 hfamily | h_11 hfamily | h_12 hfamily =>
    cases h
    exact ⟨Opcode.eq_ofAddress hfamily, by simp [registers]⟩
  -- What is left takes a register and a byte.
  all_goals
    next hfamily =>
      cases h
      exact ⟨Opcode.eq_ofByte hfamily rfl, by simp [registers, op.x_lt]⟩

theorem decode_comesFrom (op : Opcode) : (decode op).ComesFrom op := by
  unfold decode
  cases h : ofOpcode? op with
  | none => exact ⟨rfl, by simp [registers]⟩
  | some i => exact ofOpcode?_comesFrom h

/-- No two opcodes decode to the same instruction: the opcode can be read back. -/
theorem encode_decode (op : Opcode) : (decode op).encode = op :=
  (decode_comesFrom op).1

/-- No opcode makes the machine look for a register it does not have. -/
theorem toNat_lt_of_mem_registers_decode {op : Opcode} {k : UInt8}
    (h : k ∈ (decode op).registers) : k.toNat < 16 :=
  (decode_comesFrom op).2 k h

end Instruction

end Chip8
