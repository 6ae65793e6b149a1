import Chip8.Proofs.AddressMap

/-!
Blocks of registers in memory. The registers up to one are stored one behind the other, at
addresses that wrap around, and the bytes that meet no cell are lost. So loading them again gives
back what was stored, or zero where no cell was met; and storing what was loaded changes nothing,
because every byte goes back to where it came from.
-/

namespace Chip8

namespace Memory

/-- What it means that bytes are stored from an address on: where a cell is reached it holds its
byte, other addresses read zero as always, and nothing else changed. -/
structure StoredAt (m m' : Memory) (address : UInt16) (bytes : List UInt8) : Prop where
  there : ∀ k (hk : k < bytes.length), m'.read (address + k.toUInt16) =
    if (address + k.toUInt16).toNat < 0xFFF then bytes[k] else 0
  elsewhere : ∀ a, a ∉ stretch address bytes.length → m'.read a = m.read a
  last : m'.cells.back = m.cells.back

theorem storedAt_overlay (m : Memory) (address : UInt16) {bytes : List UInt8}
    (h : bytes.length ≤ 0x10000) : m.StoredAt (m.overlay address bytes) address bytes where
  there _ hk := read_overlay_add h hk
  elsewhere _ ha := read_overlay_of_not_mem ha
  last := last_overlay m address bytes

end Memory

namespace Registers

theorem length_upTo (r : Registers) {x : UInt8} (hx : x.toNat < 16) :
    (r.upTo x).length = x.toNat + 1 := by
  rw [upTo, List.length_take, Vector.length_toList]
  omega

theorem upTo_getElem (r : Registers) {x : UInt8} (k : Fin 16) (hk : k.val < (r.upTo x).length) :
    (r.upTo x)[k.val] = r.get k := by
  simp only [upTo, List.getElem_take, Vector.getElem_toList]
  rfl

theorem get_replaceUpTo (r : Registers) (x : UInt8) (byte : Fin 16 → UInt8) (k : Fin 16) :
    (r.replaceUpTo x byte).get k = if k.val ≤ x.toNat then byte k else r.get k := by
  exact Vector.getElem_ofFn k.isLt

/-- Loading registers from where others were stored gives these back, or zero where no cell was
reached. -/
theorem get_loaded_stored (r stored : Registers) (memory : Memory) (a : UInt16) {x : UInt8}
    (hx : x.toNat < 16) (k : Fin 16) :
    (r.replaceUpTo x fun k => (memory.overlay a (stored.upTo x)).read (a + k.val.toUInt16)).get k =
      if x.toNat < k.val then r.get k
      else if (a + k.val.toUInt16).toNat < 0xFFF then stored.get k
      else 0 := by
  rw [get_replaceUpTo]
  by_cases hk : x.toNat < k.val
  · rw [if_pos hk, if_neg (Nat.not_le.2 hk)]
  · rw [if_neg hk, if_pos (Nat.not_lt.1 hk)]
    have hlength := stored.length_upTo hx
    have hlt : k.val < (stored.upTo x).length := by omega
    rw [Memory.read_overlay_add (by omega) hlt, stored.upTo_getElem k hlt]

/-- Storing registers that hold the bytes from there on changes nothing. -/
theorem overlay_of_loaded {r : Registers} {memory : Memory} {a : UInt16} {x : UInt8}
    (hx : x.toNat < 16)
    (h : ∀ k : Fin 16, k.val ≤ x.toNat → r.get k = memory.read (a + k.val.toUInt16)) :
    memory.overlay a (r.upTo x) = memory := by
  have hlength := r.length_upTo hx
  have hslice : r.upTo x = memory.slice a (x.toNat + 1) := by
    rw [Memory.slice_eq_map]
    apply List.ext_getElem
    · rw [hlength, List.length_map, stretch, List.length_map, List.length_range]
    · intro k hk _
      have hregister := r.upTo_getElem (x := x) ⟨k, by omega⟩ hk
      rw [hregister, h ⟨k, by omega⟩ (by dsimp only; omega)]
      simp [stretch]
  rw [hslice]
  exact memory.overlay_slice a (x.toNat + 1)

end Registers

namespace Machine

variable {σ : Type}

theorem execute_storeRegisters [Display σ] (m : Machine σ) {x : UInt8} (hx : x.toNat < 16) :
    execute (.storeRegisters x) m = .ok () {m with
      memory := m.memory.overlay m.registers.index (m.registers.upTo x)
      registers := {m.registers with index := m.indexBehind x, pc := m.registers.pc + 2}} := by
  rw [execute_eq m (.storeRegisters x) (by simpa [Instruction.registers] using hx),
    executed_storeRegisters]

theorem execute_loadRegisters [Display σ] (m : Machine σ) {x : UInt8} (hx : x.toNat < 16) :
    execute (.loadRegisters x) m = .ok () {m with
      registers := {m.registers.replaceUpTo x
        fun k => m.memory.read (m.registers.index + k.val.toUInt16) with
        index := m.indexBehind x, pc := m.registers.pc + 2}} := by
  rw [execute_eq m (.loadRegisters x) (by simpa [Instruction.registers] using hx),
    executed_loadRegisters]

/-- Storing registers and loading them undo each other, at every address. A load after a store, at
the same index, gives back the registers up to `x` as they were stored, or zero where no cell was
reached, and leaves the others alone, whatever became of them meanwhile. A store after a load, at
the same index, leaves memory as it was. Where the settings ask for it, each of them moves the
index behind the last register; otherwise it stays. -/
theorem blocks_undo_each_other [Display σ] (m : Machine σ) {x : UInt8} (hx : x.toNat < 16) :
    (∃ memory, execute (.storeRegisters x) m = .ok () {m with
        memory := memory
        registers := {m.registers with index := m.indexBehind x, pc := m.registers.pc + 2}} ∧
      ∀ m' : Machine σ, m'.memory = memory → m'.registers.index = m.registers.index →
        ∃ v : Vector UInt8 16, execute (.loadRegisters x) m' = .ok () {m' with
            registers := {v := v, index := m'.indexBehind x, pc := m'.registers.pc + 2}} ∧
          ∀ k : Fin 16, v.get k =
            if x.toNat < k.val then m'.registers.get k
            else if (m.registers.index + k.val.toUInt16).toNat < 0xFFF then m.registers.get k
            else 0) ∧
    (∃ v : Vector UInt8 16, execute (.loadRegisters x) m = .ok () {m with
        registers := {v := v, index := m.indexBehind x, pc := m.registers.pc + 2}} ∧
      ∀ m' : Machine σ, m'.memory = m.memory → m'.registers.index = m.registers.index →
        (∀ k : Fin 16, k.val ≤ x.toNat → m'.registers.get k = v.get k) →
        execute (.storeRegisters x) m' = .ok () {m' with
          memory := m.memory
          registers := {m'.registers with
            index := m'.indexBehind x, pc := m'.registers.pc + 2}}) := by
  constructor
  · refine ⟨_, execute_storeRegisters m hx, fun m' hmemory hindex => ?_⟩
    refine ⟨_, execute_loadRegisters m' hx, fun k => ?_⟩
    rw [hmemory, hindex]
    exact m'.registers.get_loaded_stored m.registers m.memory m.registers.index hx k
  · refine ⟨_, execute_loadRegisters m hx, fun m' hmemory hindex hregisters => ?_⟩
    have hsame : m.memory.overlay m.registers.index (m'.registers.upTo x) = m.memory := by
      apply Registers.overlay_of_loaded hx
      intro k hk
      have hloaded := m.registers.get_replaceUpTo x
        (fun k => m.memory.read (m.registers.index + k.val.toUInt16)) k
      rw [if_pos hk] at hloaded
      exact (hregisters k hk).trans hloaded
    rw [execute_storeRegisters m' hx, hmemory, hindex, hsame]

/-- Four registers around the end of the address space: the first two meet no cell and are lost,
the other two overwrite the font and come back, though all registers were cleared. Storing them
once more, where they were loaded, changes nothing. The index follows round, because the settings
ask for it. -/
theorem blocks_undo_each_other_around :
    let settings := {Settings.default with movesIndex := true}
    let registers := {(Registers.initial.set 1 9).set 2 7 with index := 0xFFFE}
    let cleared := {Registers.initial with index := 0xFFFE}
    let m := {Machine.fresh settings (.cycling #[]) Recorder.empty with registers := registers}
    ∃ (memory : Memory) (v : Vector UInt8 16),
      execute (.storeRegisters 3) m = .ok () {m with
        memory := memory, registers := {registers with index := 2, pc := 0x202}} ∧
      execute (.loadRegisters 3) {m with memory := memory, registers := cleared} = .ok () {m with
        memory := memory, registers := ⟨v, 2, 0x202⟩} ∧
      v.get 1 = 0 ∧ v.get 2 = 7 ∧
      execute (.storeRegisters 3) {m with memory := memory, registers := ⟨v, 0xFFFE, 0x202⟩} =
        .ok () {m with memory := memory, registers := ⟨v, 2, 0x204⟩} := by
  intro settings registers cleared m
  have hwraps : (0xFFFE : UInt16) + (3 : UInt8).toUInt16 + 1 = 2 := by decide
  have hbehind : m.indexBehind 3 = 2 := hwraps
  obtain ⟨⟨memory, hstore, hback⟩, -⟩ := blocks_undo_each_other m (x := 3) (by decide)
  let m' : Machine Recorder := {m with memory := memory, registers := cleared}
  have hbehind' : m'.indexBehind 3 = 2 := hwraps
  obtain ⟨v, hload, hget⟩ := hback m' rfl rfl
  obtain ⟨-, w, hload', hagain⟩ := blocks_undo_each_other m' (x := 3) (by decide)
  obtain rfl : v = w := by simpa using hload.symm.trans hload'
  let m'' : Machine Recorder := {m with memory := memory, registers := ⟨v, 0xFFFE, 0x202⟩}
  have hbehind'' : m''.indexBehind 3 = 2 := hwraps
  have hsame := hagain m'' rfl rfl fun _ _ => rfl
  rw [hbehind] at hstore
  rw [hbehind'] at hload
  rw [hbehind''] at hsame
  refine ⟨memory, v, hstore, hload, hget 1, ?_, hsame⟩
  rw [hget 2, if_neg (by decide), if_pos (by decide)]
  rfl

end Machine

end Chip8
