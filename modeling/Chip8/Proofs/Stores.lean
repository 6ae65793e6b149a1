import Chip8.Proofs.Effects

/-!
Memory under stores. Bytes that are written one behind the other are read back from where they
went, but for those that found no cell there, and an address none of them went to reads as before.
-/

namespace Chip8

/-- The addresses from one on. They wrap around. -/
def stretch (address : UInt16) (count : Nat) : List UInt16 :=
  (List.range count).map fun k => address + k.toUInt16

theorem add_succ_toUInt16 (address : UInt16) (k : Nat) :
    address + (k + 1).toUInt16 = address + 1 + k.toUInt16 := by
  apply UInt16.toNat_inj.1
  simp
  omega

theorem stretch_succ (address : UInt16) (count : Nat) :
    stretch address (count + 1) = address :: stretch (address + 1) count := by
  simp only [stretch, List.range_succ_eq_map, List.map_cons, List.map_map]
  congr 1
  · exact UInt16.add_zero address
  · apply List.map_congr_left
    intro k _
    exact add_succ_toUInt16 address k

theorem mem_stretch {address a : UInt16} {count : Nat} :
    a ∈ stretch address count ↔ ∃ k < count, a = address + k.toUInt16 := by
  simp [stretch, eq_comm]

/-- The addresses behind one do not come back to it before they have gone all the way round. -/
theorem not_mem_stretch_behind {address : UInt16} {count : Nat} (h : count < 0x10000) :
    address ∉ stretch (address + 1) count := by
  rw [mem_stretch]
  rintro ⟨k, hk, heq⟩
  have htoNat := congrArg UInt16.toNat heq
  rw [UInt16.toNat_add, UInt16.toNat_add, UInt16.toNat_one, Nat.toUInt16_eq,
    UInt16.toNat_ofNat'] at htoNat
  have hlt := address.toNat_lt
  omega

namespace Memory

/-- Where nothing was written, a read gives what it gave before. -/
theorem read_overlay_of_not_mem {m : Memory} {address a : UInt16} {bytes : List UInt8}
    (h : a ∉ stretch address bytes.length) : (m.overlay address bytes).read a = m.read a := by
  induction bytes generalizing m address with
  | nil => rfl
  | cons byte rest ih =>
      rw [List.length_cons, stretch_succ, List.mem_cons, not_or] at h
      rw [overlay, ih h.2]
      exact read_write_of_ne (Ne.symm h.1)

/-- Bytes that were written one behind the other are read back from where they went. Those that
went where no cell is reached are lost. -/
theorem read_overlay_add {m : Memory} {address : UInt16} {bytes : List UInt8} {k : Nat}
    (hlength : bytes.length ≤ 0x10000) (hk : k < bytes.length) :
    (m.overlay address bytes).read (address + k.toUInt16) =
      if (address + k.toUInt16).toNat < bound then bytes[k] else 0 := by
  induction bytes generalizing m address k with
  | nil => exact absurd hk (Nat.not_lt_zero k)
  | cons byte rest ih =>
      rw [List.length_cons] at hlength hk
      cases k with
      | zero =>
          have hfirst : address + (0 : Nat).toUInt16 = address := UInt16.add_zero address
          rw [hfirst, overlay, read_overlay_of_not_mem (not_mem_stretch_behind (by omega))]
          split
          · next hbound => exact read_write_self hbound
          · next hbound => exact read_of_bound_le (Nat.not_lt.1 hbound)
      | succ k =>
          rw [overlay, List.getElem_cons_succ, add_succ_toUInt16]
          exact ih (by omega) (by omega)

theorem read_overlay {m : Memory} {address a : UInt16} {bytes : List UInt8} {k : Nat}
    (hbound : address.toNat + bytes.length ≤ bound) (hk : k < bytes.length)
    (ha : a.toNat = address.toNat + k) : (m.overlay address bytes).read a = bytes[k] := by
  have hsize : bound = 4095 := rfl
  have haddress : a = address + k.toUInt16 := by
    apply UInt16.toNat_inj.1
    rw [UInt16.toNat_add, Nat.toUInt16_eq, UInt16.toNat_ofNat']
    omega
  have hcell : (address + k.toUInt16).toNat < bound := by
    rw [← haddress]
    omega
  rw [haddress, read_overlay_add (by omega) hk, if_pos hcell]

/-- Writing what is there already changes nothing. -/
theorem write_read (m : Memory) (a : UInt16) : m.write a (m.read a) = m := by
  unfold write
  split
  · next hbound => simp [read, hbound]
  · rfl

theorem overlay_slice (m : Memory) (a : UInt16) (n : Nat) : m.overlay a (m.slice a n) = m := by
  induction n generalizing a with
  | zero => rfl
  | succ n ih =>
      rw [slice, overlay, write_read]
      exact ih (a + 1)

theorem slice_eq_map (m : Memory) (a : UInt16) (n : Nat) :
    m.slice a n = (stretch a n).map m.read := by
  induction n generalizing a with
  | zero => rfl
  | succ n ih => rw [slice, stretch_succ, List.map_cons, ih]

theorem cells_getElem?_read (m : Memory) {a : UInt16} (h : a.toNat < bound) :
    m.cells[a.toNat]? = some (m.read a) := by
  have hcell := lt_size_of_lt_bound h
  simp only [read, h, dif_pos]
  exact Vector.getElem?_eq_getElem hcell

/-- Just the programs that fit are accepted, and those are written from the start on. -/
theorem loadProgram_eq_ok_iff {m m' : Memory} {program : List UInt8} :
    m.loadProgram program = .ok m' ↔
      program.length ≤ programLimit ∧ m.overlay programStart program = m' := by
  unfold loadProgram
  split
  · next hfits => simp only [Except.ok.injEq, hfits, true_and]
  · next hlarge => simp only [reduceCtorEq, hlarge, false_and]

/-- A program that is accepted lies in memory from its start on. -/
theorem read_loadProgram {m m' : Memory} {program : List UInt8} {a : UInt16} {k : Nat}
    (h : m.loadProgram program = .ok m') (hk : k < program.length) (ha : a.toNat = 0x200 + k) :
    m'.read a = program[k] := by
  obtain ⟨hfits, rfl⟩ := loadProgram_eq_ok_iff.1 h
  have hstart : programStart.toNat = 0x200 := rfl
  have hlimit : programStart.toNat + programLimit = bound := rfl
  exact read_overlay (by omega) hk (by omega)

end Memory

namespace Machine

variable {σ : Type}

/-- The addresses that an instruction stores to. -/
def storesTo (m : Machine σ) : Instruction → List UInt16
  | .storeDigits _ => stretch m.registers.index 3
  | .storeRegisters x => stretch m.registers.index (x.toNat + 1)
  | _ => []

/-- An instruction changes memory only where it stores. -/
theorem executed_read_of_not_mem [Display σ] (m : Machine σ) (i : Instruction) {a : UInt16}
    (h : a ∉ m.storesTo i) : (m.executed i).memory.read a = m.memory.read a := by
  cases i with
  | storeDigits x => exact Memory.read_overlay_of_not_mem h
  | storeRegisters x =>
      rw [executed_storeRegisters]
      refine Memory.read_overlay_of_not_mem fun hmem => h ?_
      rw [mem_stretch] at hmem
      obtain ⟨k, hk, rfl⟩ := hmem
      refine mem_stretch.2 ⟨k, ?_, rfl⟩
      simp only [Registers.upTo, List.length_take, Vector.length_toList] at hk
      omega
  | loadRegisters x => rw [executed_loadRegisters]
  | _ => rfl

end Machine

end Chip8
