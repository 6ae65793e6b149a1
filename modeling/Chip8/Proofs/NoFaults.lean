import Chip8.Proofs.KeyAgreement
import Chip8.Proofs.Stores

/-!
No program breaks the machine down. An instruction can only fail for want of a register, a
decoded one names none that is missing, and the register a wait is for was decoded as well, many
cycles before the key is put into it. So every cycle succeeds in every reachable state, whatever
the program counter, the index, the registers, the stack and memory hold.
-/

namespace Chip8

namespace Memory

theorem cells_getElem?_write (m : Memory) {a : UInt16} (h : a.toNat < bound) (byte : UInt8) :
    (m.write a byte).cells[a.toNat]? = some byte := by
  rw [cells_getElem?_read _ h, read_write_self h]

end Memory

namespace CallStack

theorem slots_getElem?_push {s : CallStack} (h : s.isFull = false) (address : UInt16) :
    (s.push address).slots[s.depth]? = some address := by
  have hle := s.depth_le
  have hlt : s.depth < 16 := by
    simp only [isFull, beq_eq_false_iff_ne] at h
    omega
  simp [push, hlt]

theorem slots_getElem?_pop {s : CallStack} (h : s.isEmpty = false) :
    s.slots[s.depth - 1]? = some s.pop.1 := by
  have hle := s.depth_le
  have hne : s.depth ≠ 0 := by simpa [isEmpty] using h
  simp only [pop, hne, dif_neg, not_false_eq_true]
  exact Vector.getElem?_eq_getElem (by omega)

end CallStack

theorem Screen.pixels_getElem?_get (s : Screen) (x y : Nat) :
    s.pixels[y % 32 * 64 + x % 64]? = some (s.get x y) :=
  Vector.getElem?_eq_getElem (place x y).isLt

namespace Machine

variable {σ : Type}

/-- Whatever the machine looks up is there: the register it waits with, the slot of a call, the
cells of memory and the pixels. -/
structure InRange (m : Machine σ) : Prop where
  waits : ∀ x, m.mode = .waitingForKey x → x.toNat < 16
  depth : m.stack.depth ≤ 16
  calls : ∀ address, m.stack.isFull = false →
    (m.stack.push address).slots[m.stack.depth]? = some address
  returns : m.stack.isEmpty = false → m.stack.slots[m.stack.depth - 1]? = some m.stack.pop.1
  reads : ∀ a : UInt16, if a.toNat < Memory.bound
    then m.memory.cells[a.toNat]? = some (m.memory.read a) else m.memory.read a = 0
  writes : ∀ (a : UInt16) (byte : UInt8), if a.toNat < Memory.bound
    then (m.memory.write a byte).cells[a.toNat]? = some byte else m.memory.write a byte = m.memory
  loads : ∀ program m', m.load program = .ok m' → ∀ k (hk : k < program.length),
    m'.memory.cells[0x200 + k]? = some program[k]
  pixels : ∀ x y, m.screen.pixels[y % 32 * 64 + x % 64]? = some (m.screen.get x y)

theorem cells_getElem?_load {m m' : Machine σ} {program : List UInt8}
    (h : m.load program = .ok m') {k : Nat} (hk : k < program.length) :
    m'.memory.cells[0x200 + k]? = some program[k] := by
  unfold load at h
  split at h
  · next memory hload =>
      cases h
      have hle := (Memory.loadProgram_eq_ok_iff.1 hload).1
      have hlimit : Memory.programLimit = 3583 := rfl
      have ha : (UInt16.ofNat (0x200 + k)).toNat = 0x200 + k := by
        rw [UInt16.toNat_ofNat']
        omega
      have hbound : (UInt16.ofNat (0x200 + k)).toNat < Memory.bound := by
        have hsize : Memory.bound = 4095 := rfl
        omega
      have hcell := memory.cells_getElem?_read hbound
      rwa [Memory.read_loadProgram hload hk ha, ha] at hcell
  · cases h

theorem KeysAgree.inRange {m : Machine σ} (h : m.KeysAgree) : m.InRange where
  waits := h.register_lt
  depth := m.stack.depth_le
  calls address hfull := CallStack.slots_getElem?_push hfull address
  returns hempty := CallStack.slots_getElem?_pop hempty
  reads a := by
    split
    · next ha => exact m.memory.cells_getElem?_read ha
    · next ha => exact Memory.read_of_bound_le (Nat.not_lt.1 ha)
  writes a byte := by
    split
    · next ha => exact m.memory.cells_getElem?_write ha byte
    · next ha => exact Memory.write_of_bound_le (Nat.not_lt.1 ha)
  loads _ _ hload _ hk := cells_getElem?_load hload hk
  pixels x y := m.screen.pixels_getElem?_get x y

end Machine

namespace Run

variable {σ : Type} [Display σ]

/-- A run that cannot break down: its loop has not, whatever it looks up is there, and its next
cycle succeeds whatever the program has made of the registers, the stack and memory. -/
structure Faultless (r : Run σ) : Prop where
  phase_ne : ∀ cause, r.phase ≠ .crashed cause
  inRange : r.machine.InRange
  succeeds : ∀ registers stack memory, ∃ cycle m,
    Machine.step {r.machine with registers, stack, memory} = .ok cycle m

/-- No program breaks the machine down, whatever is done to it meanwhile, and no opcode names a
register that is missing. -/
theorem reachable_faultless {r : Run σ} (h : r.Reachable) :
    r.Faultless ∧ ∀ op, ∀ k ∈ (Instruction.decode op).registers, k.toNat < 16 := by
  have hkeys := h.sound.keysAgree
  refine ⟨⟨h.sound.phase_ne, hkeys.inRange, fun registers stack memory => ?_⟩,
    fun op k hk => Instruction.toNat_lt_of_mem_registers_decode hk⟩
  have hagree : {r.machine with registers, stack, memory}.KeysAgree := hkeys.congr rfl rfl rfl
  obtain ⟨cycle, m, hstep, -⟩ := hagree.step
  exact ⟨cycle, m, hstep⟩

/-- The case that reaches furthest back: a machine that waits to put a key into its last
register. -/
theorem faultless_waiting_for_last_register :
    ((loaded [0xFF, 0x0A]).occur .step).machine.mode = .waitingForKey 15 ∧
      ((loaded [0xFF, 0x0A]).occur .step).Faultless := by
  have hreachable := (loaded_reachable [0xFF, 0x0A]).operate (.event .step)
  refine ⟨by decide +kernel, ?_⟩
  exact (reachable_faultless hreachable).1

end Run

end Chip8
