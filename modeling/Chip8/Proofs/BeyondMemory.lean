import Chip8.Proofs.StraightLine

/-!
Beyond the end of memory. From there on every fetch gives zero, which names no instruction, so a
program that runs off the end does nothing any more but move on. It comes round to the bottom of the
address space, and what lies there plays no part in how it gets there.
-/

namespace Chip8

/-- Beyond the end of memory there is nothing to fetch, not even with the last address of all, whose
second byte would lie at the bottom. -/
theorem Memory.opcodeAt_of_bound_le (m : Memory) {a : UInt16} (h : bound ≤ a.toNat) :
    m.opcodeAt a = 0 := by
  have hlow : (if a = 0xFFFF then 0 else m.read (a + 1)) = 0 := by
    split
    · rfl
    · next hne =>
        have hsize : bound = 4095 := rfl
        have hlast : a.toNat ≠ 0xFFFF := fun heq => hne (UInt16.toNat_inj.1 heq)
        have hlt := a.toNat_lt
        apply read_of_bound_le
        rw [UInt16.toNat_add, UInt16.toNat_one]
        omega
  rw [opcodeAt, read_of_bound_le h, hlow]
  rfl

namespace Machine

variable {σ : Type} [Display σ]

/-- How many steps of two lead from an address to the top of the address space or over it. -/
def stepsToTop (a : UInt16) : Nat :=
  (0x10000 - a.toNat + 1) / 2

/-- A cycle that fetches beyond the end of memory moves the program counter, and that is all. -/
theorem step_of_bound_le {m : Machine σ} (hmode : m.mode = .running)
    (hpc : Memory.bound ≤ m.registers.pc.toNat) :
    step m = .ok (.executed (.unknown 0))
      {m with registers.pc := m.registers.pc + 2, lastOpcode := 0} := by
  have hopcode : m.nextOpcode = 0 := m.memory.opcodeAt_of_bound_le hpc
  rw [step_running hmode, fetched, hopcode]
  rfl

/-- Cycles that fetch beyond the end of memory move the program counter on, as far as the top of the
address space and over it. -/
theorem cycles_of_bound_le {m : Machine σ} (hmode : m.mode = .running)
    (hpc : Memory.bound ≤ m.registers.pc.toNat) {n : Nat} (hn : n ≤ stepsToTop m.registers.pc) :
    cycles n m = .ok (List.replicate n (.executed (.unknown 0)))
      {m with
        registers.pc := m.registers.pc + (2 * n).toUInt16
        lastOpcode := if n = 0 then m.lastOpcode else 0} := by
  induction n generalizing m with
  | zero =>
      have hstays : m.registers.pc + (2 * 0).toUInt16 = m.registers.pc := UInt16.add_zero _
      rw [hstays, if_pos rfl]
      rfl
  | succ n ih =>
      have hnext : m.registers.pc + 2 + (2 * n).toUInt16 =
          m.registers.pc + (2 * (n + 1)).toUInt16 := by
        apply UInt16.toNat_inj.1
        simp
        omega
      have hrest : cycles n {m with registers.pc := m.registers.pc + 2, lastOpcode := 0} =
          .ok (List.replicate n (.executed (.unknown 0)))
            {m with registers.pc := m.registers.pc + (2 * (n + 1)).toUInt16, lastOpcode := 0} := by
        rw [← hnext]
        by_cases hover : m.registers.pc.toNat + 2 < 0x10000
        · have hpast := (toNat_behind hover).2
          have hmoved := ih (m := {m with registers.pc := m.registers.pc + 2, lastOpcode := 0})
            hmode (by dsimp only; omega) (by unfold stepsToTop at *; dsimp only; omega)
          rw [hmoved]
          simp
        · -- This cycle goes over the top, so none is left.
          have hlast : n = 0 := by
            unfold stepsToTop at hn
            omega
          subst hlast
          simp
          rfl
      simp only [cycles, bind, EStateM.bind, step_of_bound_le hmode hpc, hrest]
      rfl

/-- To run off the end of memory is harmless. Each cycle executes an instruction that is none, and
nothing changes but the program counter, by two, and the opcode fetched last, until the program
comes round to the bottom: to address zero from an even address, and to one from an odd one. -/
theorem runs_off_memory_harmlessly (m : Machine σ) (hmode : m.mode = .running)
    (hpc : 0xFFF ≤ m.registers.pc.toNat) :
    let p := m.registers.pc.toNat
    (∀ n ≤ stepsToTop m.registers.pc,
        cycles n m = .ok (List.replicate n (.executed (.unknown 0)))
          {m with
            registers.pc := ((p + 2 * n) % 0x10000).toUInt16
            lastOpcode := if n = 0 then m.lastOpcode else 0}) ∧
      (afterwards (cycles (stepsToTop m.registers.pc)) m).registers.pc =
        if p % 2 = 0 then 0 else 1 := by
  intro p
  constructor
  · intro n hn
    have hmoved : ((p + 2 * n) % 0x10000).toUInt16 = m.registers.pc + (2 * n).toUInt16 := by
      apply UInt16.toNat_inj.1
      simp [p]
    rw [hmoved]
    exact cycles_of_bound_le hmode hpc hn
  · rw [afterwards, cycles_of_bound_le hmode hpc (Nat.le_refl _)]
    change m.registers.pc + (2 * stepsToTop m.registers.pc).toUInt16 = _
    have hlt := m.registers.pc.toNat_lt
    apply UInt16.toNat_inj.1
    rw [UInt16.toNat_add, Nat.toUInt16_eq, UInt16.toNat_ofNat', stepsToTop]
    split
    · next heven =>
        change _ = 0
        omega
    · next hodd =>
        change _ = 1
        omega

/-- From `0xFFFD` a program takes two cycles to come round to address one, although the font lies at
the bottom. -/
theorem runs_off_memory_harmlessly_over_font :
    let m := {Machine.fresh .default (.cycling #[]) Recorder.empty with
      registers := {Registers.initial with pc := 0xFFFD}}
    m.memory.read 0 = 0xF0 ∧ stepsToTop m.registers.pc = 2 ∧
      cycles 2 m = .ok [.executed (.unknown 0), .executed (.unknown 0)]
        {m with registers.pc := 1, lastOpcode := 0} := by
  intro m
  obtain ⟨hcycles, -⟩ := runs_off_memory_harmlessly m rfl (by decide)
  have hsteps : stepsToTop m.registers.pc = 2 := by decide
  have hpc : ((m.registers.pc.toNat + 2 * 2) % 0x10000).toUInt16 = 1 := by decide
  refine ⟨by decide +kernel, hsteps, ?_⟩
  rw [hcycles 2 (Nat.le_of_eq hsteps.symm), hpc]
  rfl

end Machine

end Chip8
