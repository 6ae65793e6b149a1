import Chip8.Instruction.Code
import Chip8.Machine.Execute

/-!
The cycle of the machine: it fetches, decodes and executes one instruction, or, while it waits
for a key, looks whether one has come. The timers have no part in it.
-/

namespace Chip8.Machine

variable {σ : Type}

/-- What a cycle came to. -/
inductive Cycle
  | executed (i : Instruction)
  /-- There is no key yet, and nothing was executed. -/
  | waiting
  /-- A key ended the wait. -/
  | resumed (key : UInt8)
deriving DecidableEq, Repr

/-- Takes the key for a wait: one that was held back, or else one the keypad caught. -/
def takeKey : Exec σ (Option UInt8) :=
  modifyGet fun m =>
    match m.heldKey with
    | some key => (some key, {m with heldKey := none})
    | none =>
        let (key, keypad) := m.keypad.take
        (key, {m with keypad := keypad})

/-- Ends a wait with a key: the register gets it and the program goes on behind the
instruction that waited. -/
def deliver (key : UInt8) : Exec σ Unit := do
  match (← get).mode with
  | .running => return ()
  | .waitingForKey register =>
      writeRegister register key
      modify fun m => {m with registers.pc := m.registers.pc + 2, mode := .running}

/-- The opcode the machine executes next, unless it waits. -/
def nextOpcode (m : Machine σ) : Opcode :=
  m.memory.opcodeAt m.registers.pc

/-- One cycle. -/
def step [Display σ] : Exec σ Cycle := do
  match (← get).mode with
  | .waitingForKey _ =>
      match ← takeKey with
      | some key =>
          deliver key
          return .resumed key
      | none => return .waiting
  | .running =>
      let opcode := (← get).nextOpcode
      modify fun m => {m with lastOpcode := opcode}
      execute (.decode opcode)
      return .executed (.decode opcode)

/-- Several cycles, and what the last of them came to. -/
def steps [Display σ] : Nat → Option Cycle → Exec σ (Option Cycle)
  | 0, last => return last
  | n + 1, _ => do steps n (some (← step))

end Chip8.Machine
