import Chip8.Proofs.Footprints
import Mathlib.Algebra.Group.Nat.Defs

/-!
Numbers in base ten. Storing the digits of a byte and loading the first three registers from there
gives the digits, one in each register. As everywhere, a digit whose address meets no cell is lost
and read as zero, and addresses wrap around, so the three may lie on both sides of memory's end.
-/

namespace Chip8

/-- The digit of a byte at a place, counted from the left of three. -/
def decimalDigit (byte : UInt8) (place : Nat) : Nat :=
  byte.toNat / 10 ^ (2 - place) % 10

theorem decimalDigits_length (byte : UInt8) : (decimalDigits byte).length = 3 := rfl

theorem decimalDigits_getElem (byte : UInt8) {k : Nat} (hk : k < (decimalDigits byte).length) :
    (decimalDigits byte)[k].toNat = decimalDigit byte k := by
  have hlt := byte.toNat_lt
  have hplaces : k = 0 ∨ k = 1 ∨ k = 2 := by
    rw [decimalDigits_length] at hk
    omega
  unfold decimalDigit
  rcases hplaces with rfl | rfl | rfl
  · change (byte / 100).toNat = byte.toNat / 100 % 10
    rw [UInt8.toNat_div]
    change byte.toNat / 100 = _
    omega
  · rfl
  · change byte.toNat % 10 = byte.toNat / 1 % 10
    rw [Nat.div_one]

/-- The digits of a byte make up its value. -/
theorem decimalDigit_sum (byte : UInt8) :
    100 * decimalDigit byte 0 + 10 * decimalDigit byte 1 + decimalDigit byte 2 = byte.toNat := by
  have hlt := byte.toNat_lt
  change 100 * (byte.toNat / 100 % 10) + 10 * (byte.toNat / 10 % 10) + byte.toNat / 1 % 10 = _
  omega

theorem decimalDigit_le (byte : UInt8) (place : Nat) : decimalDigit byte place ≤ 9 :=
  Nat.le_of_lt_succ (Nat.mod_lt _ (by decide))

namespace Machine

variable {σ : Type}

theorem execute_storeDigits [Display σ] (m : Machine σ) {x : UInt8} (hx : x.toNat < 16) :
    execute (.storeDigits x) m = .ok () {m with
      memory := m.memory.overlay m.registers.index (decimalDigits (m.byteAt x))
      registers.pc := m.registers.pc + 2} :=
  execute_eq m (.storeDigits x) (by simpa [Instruction.registers] using hx)

/-- What the first three registers hold once digits stored at an index were loaded from there. -/
theorem get_loaded_digits (r : Registers) (memory : Memory) (a : UInt16) (byte : UInt8)
    {k : Fin 16} (hk : k.val < 3) :
    ((r.replaceUpTo 2 fun k => (memory.overlay a (decimalDigits byte)).read
      (a + k.val.toUInt16)).get k).toNat =
      if (a + k.val.toUInt16).toNat < 0xFFF then decimalDigit byte k else 0 := by
  have hle : k.val ≤ (2 : UInt8).toNat := Nat.le_of_lt_succ hk
  have hlength := decimalDigits_length byte
  have hstored : k.val < (decimalDigits byte).length := by omega
  rw [Registers.get_replaceUpTo, if_pos hle, Memory.read_overlay_add (by omega) hstored,
    apply_ite UInt8.toNat, decimalDigits_getElem]
  rfl

/-- Storing the digits of a register and then loading three registers, both at the index as it is,
puts a decimal digit into each of them: hundreds, tens and ones, or zero for a digit whose address
meets no cell. Where all three addresses meet cells the digits make up the byte. Nothing else
happens: memory changes at most at these addresses, the other registers keep their bytes, and the
index moves only if the settings ask for it. -/
theorem digits_read_back [Display σ] (m : Machine σ) {x : UInt8} (hx : x.toNat < 16) :
    let byte := m.registers.get ⟨x.toNat, hx⟩
    let address := fun k : Nat => m.registers.index + k.toUInt16
    ∃ (memory : Memory) (v : Vector UInt8 16),
      executeAll [.storeDigits x, .loadRegisters 2] m = .ok () {m with
        memory := memory
        registers := {v := v, index := m.indexBehind 2, pc := m.registers.pc + 2 + 2}} ∧
      (∀ k : Fin 16, k.val < 3 → (v.get k).toNat =
        if (address k).toNat < 0xFFF then decimalDigit byte k else 0) ∧
      ((∀ k < 3, (address k).toNat < 0xFFF) →
        (v.get 1).toNat ≤ 9 ∧ (v.get 2).toNat ≤ 9 ∧
        100 * (v.get 0).toNat + 10 * (v.get 1).toNat + (v.get 2).toNat = byte.toNat) ∧
      (∀ k : Fin 16, 3 ≤ k.val → v.get k = m.registers.get k) ∧
      ∀ a : UInt16, memory.cells[a.toNat]? ≠ m.memory.cells[a.toNat]? →
        (∃ k < 3, a = address k) ∧ a.toNat < 0xFFF := by
  intro byte address
  let stored := m.memory.overlay m.registers.index (decimalDigits (m.byteAt x))
  let loaded := m.registers.replaceUpTo 2 fun k => stored.read (address k.val)
  have hbyte : m.byteAt x = byte := m.byteAt_of_lt hx
  have hdigit : ∀ k : Fin 16, k.val < 3 → (loaded.get k).toNat =
      if (address k).toNat < 0xFFF then decimalDigit byte k else 0 := by
    intro k hk
    rw [← hbyte]
    exact get_loaded_digits m.registers m.memory m.registers.index (m.byteAt x) hk
  refine ⟨stored, loaded.v, ?_, hdigit, ?_, ?_, ?_⟩
  · rw [executeAll_cons_of_ok (execute_storeDigits m hx),
      executeAll_cons_of_ok (execute_loadRegisters _ (by decide))]
    rfl
  · intro hcells
    have hplace : ∀ k : Fin 16, k.val < 3 → (loaded.get k).toNat = decimalDigit byte k :=
      fun k hk => (hdigit k hk).trans (if_pos (hcells k hk))
    change (loaded.get 1).toNat ≤ 9 ∧ (loaded.get 2).toNat ≤ 9 ∧
      100 * (loaded.get 0).toNat + 10 * (loaded.get 1).toNat + (loaded.get 2).toNat = byte.toNat
    rw [hplace 0 (by decide), hplace 1 (by decide), hplace 2 (by decide)]
    exact ⟨decimalDigit_le byte 1, decimalDigit_le byte 2, decimalDigit_sum byte⟩
  · intro k hk
    have hbeyond : ¬ k.val ≤ (2 : UInt8).toNat := Nat.not_le.2 hk
    exact (m.registers.get_replaceUpTo 2 _ k).trans (if_neg hbeyond)
  · intro a ha
    obtain ⟨hmem, hbound⟩ := m.executed_cells (.storeDigits x) ha
    exact ⟨mem_stretch.1 hmem, hbound⟩

/-- The digits of 254 around the end of the address space: the hundreds meet no cell, and tens and
ones overwrite the first bytes of the font. The index stays. -/
theorem digits_read_back_around :
    let registers := {Registers.initial.set 10 254 with index := 0xFFFF}
    let m := {Machine.fresh .default (.cycling #[]) Recorder.empty with registers := registers}
    ∃ (memory : Memory) (v : Vector UInt8 16),
      executeAll [.storeDigits 10, .loadRegisters 2] m = .ok () {m with
        memory := memory, registers := {v := v, index := 0xFFFF, pc := 0x204}} ∧
      (v.get 0).toNat = 0 ∧ (v.get 1).toNat = 5 ∧ (v.get 2).toNat = 4 ∧ v.get 10 = 254 := by
  intro registers m
  obtain ⟨memory, v, hexecuted, hdigit, -, hkept, -⟩ := digits_read_back m (x := 10) (by decide)
  refine ⟨memory, v, hexecuted, ?_, ?_, ?_, hkept 10 (by decide)⟩
  · exact (hdigit 0 (by decide)).trans (by decide)
  · exact (hdigit 1 (by decide)).trans (by decide)
  · exact (hdigit 2 (by decide)).trans (by decide)

end Machine

end Chip8
