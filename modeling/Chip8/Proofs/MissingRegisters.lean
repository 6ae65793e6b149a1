import Chip8.Proofs.Effects

/-!
Instructions that name a register which the machine does not have. Such an instruction fails, with
the first operand that it looks up in vain. What it did before stays done: a random word is drawn,
and all registers there are have been stored or loaded.
-/

namespace Chip8

/-- The operands that an instruction looks up, in this order. The register that a wait is for is
looked up only when the key has come. -/
def Instruction.operands : Instruction → List UInt8
  | .awaitKey _ => []
  | i => i.registers

/-- Why executing an instruction fails, if it does. Storing and loading go through the registers
one after the other, so that the first one behind the last is what they miss. -/
def Instruction.fault? : Instruction → Option Fault
  | .storeRegisters x | .loadRegisters x =>
      if x.toNat < 16 then none else some (.noSuchRegister 16)
  | i => (i.operands.find? fun k => 16 ≤ k.toNat).map fun k => .noSuchRegister k.toNat

namespace Machine

variable {σ : Type}

/-- The machine after an instruction failed. -/
def interrupted (m : Machine σ) : Instruction → Machine σ
  | .random .. => {m with random := m.random.next.2}
  | .storeRegisters x => storeUpTo x m
  | .loadRegisters x => loadUpTo x m
  | _ => m

theorem lookup_of_le {k : UInt8} (h : 16 ≤ k.toNat) (m : Machine σ) :
    lookup k m = .error (.noSuchRegister k.toNat) m := by
  simp [lookup, Registers.find?, Nat.not_lt.2 h]
  rfl

theorem readRegister_of_le {k : UInt8} (h : 16 ≤ k.toNat) (m : Machine σ) :
    readRegister k m = .error (.noSuchRegister k.toNat) m := by
  simp [readRegister, bind, EStateM.bind, lookup_of_le h]

theorem writeRegister_of_le {k : UInt8} (h : 16 ≤ k.toNat) (byte : UInt8) (m : Machine σ) :
    writeRegister k byte m = .error (.noSuchRegister k.toNat) m := by
  simp [writeRegister, bind, EStateM.bind, lookup_of_le h]

theorem withinRegisters_of_le {x : UInt8} (h : 16 ≤ x.toNat) (m : Machine σ) :
    withinRegisters x m = .error (.noSuchRegister 16) m := by
  simp [withinRegisters, Nat.not_lt.2 h]
  rfl

/-- An instruction that fails does so before it does anything else, but for what `interrupted`
tells. -/
theorem effect_of_fault [Display σ] (m : Machine σ) (i : Instruction) {fault : Fault}
    (h : i.fault? = some fault) : effect i m = .error fault (m.interrupted i) := by
  cases i with
  | clearScreen | ret | jump address | call address | loadIndex address | jumpOffset address
  | awaitKey x | unknown raw => cases h
  | storeRegisters x | loadRegisters x =>
      obtain ⟨hx, rfl⟩ : 16 ≤ x.toNat ∧ .noSuchRegister 16 = fault := by
        simpa [Instruction.fault?] using h
      simp [effect, bind, EStateM.bind, withinRegisters_of_le hx]
      rfl
  | skipEqReg x y | skipNeReg x y | alu op x y | draw x y height =>
      by_cases hx : x.toNat < 16
      · obtain ⟨hy, rfl⟩ : 16 ≤ y.toNat ∧ .noSuchRegister y.toNat = fault := by
          simpa [Instruction.fault?, Instruction.operands, Instruction.registers, hx] using h
        simp [effect, bind, EStateM.bind, readRegister_of_lt hx, readRegister_of_le hy,
          lookup_of_lt hx, lookup_of_le hy, interrupted]
      · have hx := Nat.not_lt.1 hx
        obtain rfl : .noSuchRegister x.toNat = fault := by
          simpa [Instruction.fault?, Instruction.operands, Instruction.registers, hx] using h
        simp [effect, bind, EStateM.bind, readRegister_of_le hx, lookup_of_le hx, interrupted]
  -- What is left looks up one operand.
  | skipEq x value | skipNe x value | load x value | add x value | random x mask | skipDown x
  | skipUp x | readDelay x | setDelay x | setSound x | addIndex x | loadGlyph x | storeDigits x =>
      obtain ⟨hx, rfl⟩ : 16 ≤ x.toNat ∧ .noSuchRegister x.toNat = fault := by
        simpa [Instruction.fault?, Instruction.operands, Instruction.registers] using h
      simp [effect, bind, EStateM.bind, readRegister_of_le hx, writeRegister_of_le hx]
      rfl

theorem toNat_lt_of_fault?_none {i : Instruction} (h : i.fault? = none)
    (hawait : ∀ x, i ≠ .awaitKey x) : ∀ k ∈ i.registers, k.toNat < 16 := by
  cases i with
  | awaitKey x => exact absurd rfl (hawait x)
  | storeRegisters x | loadRegisters x =>
      simpa [Instruction.fault?, Instruction.registers] using h
  | clearScreen | ret | jump address | call address | loadIndex address | jumpOffset address
  | unknown raw => simp [Instruction.registers]
  | _ => simpa [Instruction.fault?, Instruction.operands, Instruction.registers] using h

/-- What executing an instruction comes to, whatever it names. -/
theorem execute_outcome [Display σ] (m : Machine σ) (i : Instruction) :
    execute i m = match i.fault? with
      | none => .ok () (m.executed i)
      | some fault => .error fault (m.interrupted i) := by
  cases hfault : i.fault? with
  | some fault => simp only [execute, bind, EStateM.bind, effect_of_fault m i hfault]
  | none =>
      by_cases hawait : ∃ x, i = .awaitKey x
      · obtain ⟨x, rfl⟩ := hawait
        rfl
      · exact execute_eq m i (toNat_lt_of_fault?_none hfault fun x hx => hawait ⟨x, hx⟩)

theorem execute_of_none [Display σ] {i : Instruction} (h : i.fault? = none) (m : Machine σ) :
    execute i m = .ok () (m.executed i) := by
  rw [execute_outcome, h]

theorem execute_of_some [Display σ] {i : Instruction} {fault : Fault} (h : i.fault? = some fault)
    (m : Machine σ) : execute i m = .error fault (m.interrupted i) := by
  rw [execute_outcome, h]

theorem executeAll_cons_of_none [Display σ] {i : Instruction} (h : i.fault? = none)
    (m : Machine σ) (rest : List Instruction) :
    executeAll (i :: rest) m = executeAll rest (m.executed i) :=
  executeAll_cons_of_ok (execute_of_none h m) rest

theorem executeAll_cons_of_some [Display σ] {i : Instruction} {fault : Fault}
    (h : i.fault? = some fault) (m : Machine σ) (rest : List Instruction) :
    executeAll (i :: rest) m = .error fault (m.interrupted i) :=
  executeAll_cons_of_error (execute_of_some h m) rest

end Machine

end Chip8
