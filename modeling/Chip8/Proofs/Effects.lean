import Chip8.Machine.Cycle
import Chip8.Proofs.Decoding

/-!
What an instruction does, as plain functions of the machine: `Machine.after` for the machine it
leaves, but for the program counter, and `Machine.flow` for where that goes. An instruction that
names only registers the machine has never fails, and does just this. From the plain functions
one reads off what an instruction leaves alone.
-/

namespace Chip8.Machine

variable {σ : Type}

/-- The register an operand names, if it names one at all. -/
def slot (k : UInt8) : Fin 16 :=
  ⟨k.toNat % 16, Nat.mod_lt _ (by decide)⟩

def byteAt (m : Machine σ) (k : UInt8) : UInt8 :=
  m.registers.get (slot k)

def put (m : Machine σ) (k byte : UInt8) : Machine σ :=
  {m with registers := m.registers.set (slot k) byte}

/-- The machine after an instruction, but for the program counter. -/
def after [Display σ] (m : Machine σ) : Instruction → Machine σ
  | .clearScreen => refresh {m with screen := .blank}
  | .ret => {m with stack := m.stack.pop.2}
  | .call _ => {m with stack := m.stack.push m.registers.pc}
  | .load x value => m.put x value
  | .add x value => m.put x (m.byteAt x + value)
  | .alu op x y => combine op (slot x) (slot y) m
  | .loadIndex address => {m with registers.index := address}
  | .random x mask =>
      {m with random := m.random.next.2}.put x (m.random.next.1.toUInt8 &&& mask)
  | .draw x y height => refresh (drawSprite (m.byteAt x) (m.byteAt y) height m)
  | .readDelay x => m.put x m.timers.delay
  | .awaitKey x => beginWait x m
  | .setDelay x => {m with timers.delay := m.byteAt x}
  | .setSound x => {m with timers.sound := m.byteAt x}
  | .addIndex x => {m with registers.index := m.registers.index + (m.byteAt x).toUInt16}
  | .loadGlyph x => {m with registers.index := (m.byteAt x).toUInt16 * glyphHeight.toUInt16}
  | .storeDigits x =>
      {m with memory := m.memory.overlay m.registers.index (decimalDigits (m.byteAt x))}
  | .storeRegisters x => moveIndex x (storeUpTo x m)
  | .loadRegisters x => moveIndex x (loadUpTo x m)
  | .jump _ | .skipEq .. | .skipNe .. | .skipEqReg .. | .skipNeReg .. | .jumpOffset _
  | .skipDown _ | .skipUp _ | .unknown _ => m

/-- Where the program counter goes after an instruction. -/
def flow (m : Machine σ) : Instruction → Flow
  | .ret => .jump (m.stack.pop.1 + 2)
  | .jump address | .call address => .jump address
  | .skipEq x value => .skipIf (m.byteAt x == value)
  | .skipNe x value => .skipIf (m.byteAt x != value)
  | .skipEqReg x y => .skipIf (m.byteAt x == m.byteAt y)
  | .skipNeReg x y => .skipIf (m.byteAt x != m.byteAt y)
  | .jumpOffset address => .jump ((m.registers.get Registers.offsetRegister).toUInt16 + address)
  | .skipDown x => .skipIf (m.keypad.isDown (m.byteAt x))
  | .skipUp x => .skipIf (!m.keypad.isDown (m.byteAt x))
  | .awaitKey _ => .stay
  | _ => .next

/-- The machine after an instruction was executed. -/
def executed [Display σ] (m : Machine σ) (i : Instruction) : Machine σ :=
  {m.after i with registers.pc := (m.flow i).target m.registers.pc}

theorem slot_of_lt {k : UInt8} (h : k.toNat < 16) : slot k = ⟨k.toNat, h⟩ :=
  Fin.ext (Nat.mod_eq_of_lt h)

theorem byteAt_of_lt (m : Machine σ) {k : UInt8} (h : k.toNat < 16) :
    m.byteAt k = m.registers.get ⟨k.toNat, h⟩ :=
  congrArg m.registers.get (slot_of_lt h)

theorem find?_of_lt {k : UInt8} (h : k.toNat < 16) : Registers.find? k = some (slot k) := by
  simp [Registers.find?, slot, h, Nat.mod_eq_of_lt]

theorem lookup_of_lt {k : UInt8} (h : k.toNat < 16) (m : Machine σ) :
    lookup k m = .ok (slot k) m := by
  unfold lookup
  rw [find?_of_lt h]
  rfl

theorem readRegister_of_lt {k : UInt8} (h : k.toNat < 16) (m : Machine σ) :
    readRegister k m = .ok (m.byteAt k) m := by
  simp [readRegister, bind, EStateM.bind, lookup_of_lt h]
  rfl

theorem writeRegister_of_lt {k : UInt8} (h : k.toNat < 16) (byte : UInt8) (m : Machine σ) :
    writeRegister k byte m = .ok () (m.put k byte) := by
  simp [writeRegister, bind, EStateM.bind, lookup_of_lt h]
  rfl

theorem withinRegisters_of_lt {x : UInt8} (h : x.toNat < 16) (m : Machine σ) :
    withinRegisters x m = .ok () m := by
  simp [withinRegisters, h]
  rfl

/-- An instruction that names only registers the machine has does not fail. -/
theorem effect_eq [Display σ] (m : Machine σ) (i : Instruction)
    (h : ∀ k ∈ i.registers, k.toNat < 16) : effect i m = .ok (m.flow i) (m.after i) := by
  cases i <;> simp [Instruction.registers] at h <;>
    simp [effect, bind, EStateM.bind, lookup_of_lt, readRegister_of_lt, writeRegister_of_lt,
      withinRegisters_of_lt, h] <;> rfl

/-- Where the index is left when the registers up to `x` are stored or loaded. -/
def indexBehind (m : Machine σ) (x : UInt8) : UInt16 :=
  if m.settings.movesIndex then m.registers.index + x.toUInt16 + 1 else m.registers.index

theorem indexBehind_of_not_moves {m : Machine σ} (h : m.settings.movesIndex = false) (x : UInt8) :
    m.indexBehind x = m.registers.index := by
  rw [indexBehind, h, if_neg Bool.false_ne_true]

theorem moveIndex_eq (x : UInt8) (m : Machine σ) :
    moveIndex x m = {m with registers.index := m.indexBehind x} := by
  unfold moveIndex indexBehind
  split <;> rfl

/-- Combining two registers changes registers only. -/
theorem combine_eq (op : AluOp) (target other : Fin 16) (m : Machine σ) :
    combine op target other m = {m with registers := {m.registers with
      v := (combine op target other m).registers.v}} := by
  unfold combine
  dsimp only
  split <;> rfl

theorem after_pc [Display σ] (m : Machine σ) (i : Instruction) :
    (m.after i).registers.pc = m.registers.pc := by
  cases i with
  | alu op x y => rw [after, combine_eq]
  | storeRegisters x => simp only [after, moveIndex_eq, storeUpTo]
  | loadRegisters x => simp only [after, moveIndex_eq, loadUpTo, Registers.replaceUpTo]
  | _ => rfl

/-! Storing and loading move the index in the end, if at all, so their outcome is written out. -/

theorem executed_storeRegisters [Display σ] (m : Machine σ) (x : UInt8) :
    m.executed (.storeRegisters x) = {m with
      memory := m.memory.overlay m.registers.index (m.registers.upTo x)
      registers := {m.registers with index := m.indexBehind x, pc := m.registers.pc + 2}} := by
  simp only [executed, after, moveIndex_eq]
  rfl

theorem executed_loadRegisters [Display σ] (m : Machine σ) (x : UInt8) :
    m.executed (.loadRegisters x) = {m with
      registers := {m.registers.replaceUpTo x
        fun k => m.memory.read (m.registers.index + k.val.toUInt16) with
        index := m.indexBehind x, pc := m.registers.pc + 2}} := by
  simp only [executed, after, moveIndex_eq, loadUpTo, indexBehind, Registers.replaceUpTo]
  rfl

theorem execute_eq [Display σ] (m : Machine σ) (i : Instruction)
    (h : ∀ k ∈ i.registers, k.toNat < 16) : execute i m = .ok () (m.executed i) := by
  simp only [execute, bind, EStateM.bind, effect_eq m i h, executed, ← after_pc m i]
  rfl

/-- A decoded instruction never fails. -/
theorem execute_decode [Display σ] (m : Machine σ) (op : Opcode) :
    execute (.decode op) m = .ok () (m.executed (.decode op)) :=
  execute_eq m _ fun _ hk => Instruction.toNat_lt_of_mem_registers_decode hk

/-- No instruction touches the key that is held back, the opcode fetched last or the settings. -/
theorem executed_untouched [Display σ] (m : Machine σ) (i : Instruction) :
    m.executed i =
      {m.executed i with
        heldKey := m.heldKey, lastOpcode := m.lastOpcode, settings := m.settings} := by
  obtain ⟨memory, registers, stack, screen, timers, keypad, random, mode, heldKey, opcode,
    settings, display⟩ := m
  cases i with
  | storeRegisters x => rw [executed_storeRegisters]
  | loadRegisters x => rw [executed_loadRegisters]
  | _ => rfl

/-- Only the instruction that waits for a key touches the keypad and the mode. -/
theorem executed_quiet [Display σ] (m : Machine σ) (i : Instruction) (h : ∀ x, i ≠ .awaitKey x) :
    m.executed i = {m.executed i with keypad := m.keypad, mode := m.mode} := by
  obtain ⟨memory, registers, stack, screen, timers, keypad, random, mode, heldKey, opcode,
    settings, display⟩ := m
  cases i with
  | awaitKey x => exact absurd rfl (h x)
  | storeRegisters x => rw [executed_storeRegisters]
  | loadRegisters x => rw [executed_loadRegisters]
  | _ => rfl

theorem executed_heldKey [Display σ] (m : Machine σ) (i : Instruction) :
    (m.executed i).heldKey = m.heldKey := by
  rw [executed_untouched m i]

theorem executed_keypad [Display σ] (m : Machine σ) (i : Instruction)
    (h : ∀ x, i ≠ .awaitKey x) : (m.executed i).keypad = m.keypad := by
  rw [executed_quiet m i h]

theorem executed_mode [Display σ] (m : Machine σ) (i : Instruction)
    (h : ∀ x, i ≠ .awaitKey x) : (m.executed i).mode = m.mode := by
  rw [executed_quiet m i h]

theorem executed_awaitKey [Display σ] (m : Machine σ) (x : UInt8) :
    m.executed (.awaitKey x) = beginWait x m := rfl

end Chip8.Machine
