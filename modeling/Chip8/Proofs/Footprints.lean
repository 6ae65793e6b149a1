import Chip8.Proofs.ByteArithmetic
import Chip8.Proofs.Calls
import Chip8.Proofs.FramesShown
import Chip8.Proofs.RegisterBlocks

/-!
The footprint of an instruction: the parts of the machine that it may change. Whatever it does not
name is after it as it was before, down to the single register and the single cell of memory.
-/

namespace Chip8

namespace Instruction

/-- Whether an instruction may move the index, under some settings. -/
def setsIndex (s : Settings) : Instruction → Bool
  | .loadIndex _ | .addIndex _ | .loadGlyph _ => true
  | .storeRegisters _ | .loadRegisters _ => s.movesIndex
  | _ => false

/-- Whether an instruction may give a register another byte. -/
def Sets (k : Fin 16) : Instruction → Prop
  | .load x _ | .add x _ | .random x _ | .readDelay x => k.val = x.toNat
  | .alu op x _ => k.val = x.toNat ∨ op.setsFlag = true ∧ k = Registers.flagRegister
  | .draw .. => k = Registers.flagRegister
  | .loadRegisters x => k.val ≤ x.toNat
  | _ => False

/-- Whether an instruction may lead from a machine to some place in the program. -/
def LeadsTo {σ : Type} (m : Machine σ) (pc : UInt16) : Instruction → Prop
  | .jump address | .call address => pc = address
  | .jumpOffset address => pc = (m.registers.get Registers.offsetRegister).toUInt16 + address
  | .ret => pc = m.stack.toList.getLast?.getD 0 + 2
  | .awaitKey _ => pc = m.registers.pc
  | .skipEq .. | .skipNe .. | .skipEqReg .. | .skipNeReg .. | .skipDown _ | .skipUp _ =>
      pc = m.registers.pc + 2 ∨ pc = m.registers.pc + 4
  | _ => pc = m.registers.pc + 2

end Instruction

/-- Nothing lies beyond the bound but the last cell. -/
theorem Memory.cells_getElem?_of_bound_le {m m' : Memory} {a : UInt16}
    (hlast : m'.cells.back = m.cells.back) (h : bound ≤ a.toNat) :
    m'.cells[a.toNat]? = m.cells[a.toNat]? := by
  obtain heq | hlt := Nat.eq_or_lt_of_le h
  · have hcell : ∀ m : Memory, m.cells[a.toNat]? = some m.cells.back := by
      intro m
      rw [← heq]
      exact Vector.getElem?_eq_getElem (by decide)
    rw [hcell, hcell, hlast]
  · have hnone : ∀ m : Memory, m.cells[a.toNat]? = none := by
      intro m
      exact Vector.getElem?_eq_none hlt
    rw [hnone, hnone]

namespace Machine

variable {σ : Type}

/-- From one machine to another nothing has changed but what an instruction names. -/
structure Confined (m : Machine σ) (i : Instruction) (m' : Machine σ) : Prop where
  stack : i.keepsStack = true → m'.stack = m.stack
  memory : ∀ a : UInt16, m'.memory.cells[a.toNat]? ≠ m.memory.cells[a.toNat]? →
    a ∈ m.storesTo i ∧ a.toNat < 0xFFF
  screen : i.refreshes = false → m'.screen = m.screen
  display : i.refreshes = false → m'.display = m.display
  delay : (∀ x, i ≠ .setDelay x) → m'.timers.delay = m.timers.delay
  sound : (∀ x, i ≠ .setSound x) → m'.timers.sound = m.timers.sound
  random : (∀ x mask, i ≠ .random x mask) → m'.random = m.random
  mode : (∀ x, i ≠ .awaitKey x) → m'.mode = m.mode
  keypad : (∀ x, i ≠ .awaitKey x) → m'.keypad = m.keypad
  keys : m'.keypad.keys = m.keypad.keys
  cancelled : m'.keypad.cancelled = m.keypad.cancelled
  index : i.setsIndex m.settings = false → m'.registers.index = m.registers.index
  registers : ∀ k, ¬ i.Sets k → m'.registers.get k = m.registers.get k
  pc : i.LeadsTo m m'.registers.pc
  heldKey : m'.heldKey = m.heldKey
  lastOpcode : m'.lastOpcode = m.lastOpcode
  settings : m'.settings = m.settings

theorem put_get_of_ne (m : Machine σ) {x : UInt8} (hx : x.toNat < 16) (byte : UInt8) {k : Fin 16}
    (hk : k.val ≠ x.toNat) : (m.put x byte).registers.get k = m.registers.get k := by
  have hne : k ≠ slot x := by
    rw [slot_of_lt hx]
    exact fun heq => hk (congrArg Fin.val heq)
  exact (m.registers.get_set (slot x) k byte).trans (if_neg hne)

variable [Display σ]

theorem executed_last (m : Machine σ) (i : Instruction) :
    (m.executed i).memory.cells.back = m.memory.cells.back := by
  cases i with
  | storeDigits x => exact Memory.last_overlay ..
  | storeRegisters x =>
      rw [executed_storeRegisters]
      exact Memory.last_overlay ..
  | loadRegisters x => rw [executed_loadRegisters]
  | _ => rfl

/-- A cell that an instruction changes is one that it stores to. -/
theorem executed_cells (m : Machine σ) (i : Instruction) {a : UInt16}
    (h : (m.executed i).memory.cells[a.toNat]? ≠ m.memory.cells[a.toNat]?) :
    a ∈ m.storesTo i ∧ a.toNat < 0xFFF := by
  have hbound : a.toNat < Memory.bound := by
    by_contra hpast
    exact h (Memory.cells_getElem?_of_bound_le (m.executed_last i) (Nat.not_lt.1 hpast))
  refine ⟨?_, hbound⟩
  by_contra hmem
  apply h
  rw [Memory.cells_getElem?_read _ hbound, Memory.cells_getElem?_read _ hbound,
    m.executed_read_of_not_mem i hmem]

theorem executed_timers_random (m : Machine σ) (i : Instruction) :
    ((∀ x, i ≠ .setDelay x) → (m.executed i).timers.delay = m.timers.delay) ∧
      ((∀ x, i ≠ .setSound x) → (m.executed i).timers.sound = m.timers.sound) ∧
      ((∀ x mask, i ≠ .random x mask) → (m.executed i).random = m.random) := by
  cases i with
  | setDelay x => exact ⟨fun h => absurd rfl (h x), fun _ => rfl, fun _ => rfl⟩
  | setSound x => exact ⟨fun _ => rfl, fun h => absurd rfl (h x), fun _ => rfl⟩
  | random x mask => exact ⟨fun _ => rfl, fun _ => rfl, fun h => absurd rfl (h x mask)⟩
  | storeRegisters x =>
      rw [executed_storeRegisters]
      exact ⟨fun _ => rfl, fun _ => rfl, fun _ => rfl⟩
  | loadRegisters x =>
      rw [executed_loadRegisters]
      exact ⟨fun _ => rfl, fun _ => rfl, fun _ => rfl⟩
  | _ => exact ⟨fun _ => rfl, fun _ => rfl, fun _ => rfl⟩

theorem executed_keys (m : Machine σ) (i : Instruction) :
    (m.executed i).keypad.keys = m.keypad.keys ∧
      (m.executed i).keypad.cancelled = m.keypad.cancelled := by
  by_cases hawait : ∃ x, i = .awaitKey x
  · obtain ⟨x, rfl⟩ := hawait
    exact ⟨rfl, rfl⟩
  · rw [m.executed_keypad i fun x hx => hawait ⟨x, hx⟩]
    exact ⟨rfl, rfl⟩

theorem executed_index (m : Machine σ) {i : Instruction} (h : i.setsIndex m.settings = false) :
    (m.executed i).registers.index = m.registers.index := by
  cases i with
  | loadIndex address | addIndex x | loadGlyph x => cases h
  | storeRegisters x =>
      rw [executed_storeRegisters]
      exact indexBehind_of_not_moves h x
  | loadRegisters x =>
      rw [executed_loadRegisters]
      exact indexBehind_of_not_moves h x
  | alu op x y =>
      simp only [executed, after]
      rw [combine_eq]
  | _ => rfl

theorem executed_get (m : Machine σ) {i : Instruction} (h : ∀ k ∈ i.registers, k.toNat < 16)
    {k : Fin 16} (hk : ¬ i.Sets k) : (m.executed i).registers.get k = m.registers.get k := by
  cases i with
  | load x value | add x value | random x mask | readDelay x =>
      exact put_get_of_ne _ (h x List.mem_cons_self) _ hk
  | alu op x y =>
      have hx : x.toNat < 16 := h x List.mem_cons_self
      obtain ⟨htarget, hflag⟩ := not_or.1 hk
      refine combine_get_of_ne op (slot x) (slot y) m ?_ fun hsets heq => hflag ⟨hsets, heq⟩
      rw [slot_of_lt hx]
      exact fun heq => htarget (congrArg Fin.val heq)
  | draw x y height => exact (m.registers.get_set _ k _).trans (if_neg hk)
  | loadRegisters x =>
      rw [executed_loadRegisters]
      exact (m.registers.get_replaceUpTo x _ k).trans (if_neg hk)
  | storeRegisters x => rw [executed_storeRegisters]; rfl
  | _ => rfl

omit [Display σ] in
theorem target_skipIf (pc : UInt16) (condition : Bool) :
    (Flow.skipIf condition).target pc = pc + 2 ∨ (Flow.skipIf condition).target pc = pc + 4 := by
  cases condition with
  | false => exact .inl rfl
  | true => exact .inr rfl

theorem executed_leadsTo (m : Machine σ) (i : Instruction) :
    i.LeadsTo m (m.executed i).registers.pc := by
  cases i with
  | skipEq x value | skipNe x value | skipEqReg x y | skipNeReg x y | skipDown x | skipUp x =>
      exact target_skipIf m.registers.pc _
  | ret => exact congrArg (· + 2) m.stack.pop_fst
  | _ => rfl

theorem executed_confined (m : Machine σ) {i : Instruction}
    (h : ∀ k ∈ i.registers, k.toNat < 16) : m.Confined i (m.executed i) where
  stack hkeeps := m.executed_stack hkeeps
  memory _ := m.executed_cells i
  screen hkeeps := congrArg Prod.snd (m.executed_of_not_refreshes hkeeps)
  display hkeeps := congrArg Prod.fst (m.executed_of_not_refreshes hkeeps)
  delay := (m.executed_timers_random i).1
  sound := (m.executed_timers_random i).2.1
  random := (m.executed_timers_random i).2.2
  mode := m.executed_mode i
  keypad := m.executed_keypad i
  keys := (m.executed_keys i).1
  cancelled := (m.executed_keys i).2
  index := m.executed_index
  registers _ := m.executed_get h
  pc := m.executed_leadsTo i
  heldKey := m.executed_heldKey i
  lastOpcode := by rw [m.executed_untouched i]
  settings := by rw [m.executed_untouched i]

/-- Every instruction that comes out of decoding is executed, on any machine, and touches only what
it names. -/
theorem decoded_confined (m : Machine σ) (op : Opcode) :
    ∃ m', execute (.decode op) m = .ok () m' ∧ m.Confined (.decode op) m' := by
  refine ⟨m.executed (.decode op), execute_decode m op, ?_⟩
  apply m.executed_confined
  intro k hk
  exact Instruction.toNat_lt_of_mem_registers_decode hk

end Machine

end Chip8
