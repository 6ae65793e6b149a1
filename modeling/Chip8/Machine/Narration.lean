import Chip8.Keypad.Narration
import Chip8.Machine.Cycle

/-!
What the machine has to say, told from the state before.
-/

namespace Chip8.Machine

variable {σ : Type}

def loadNotices (m : Machine σ) (program : List UInt8) : List Notice :=
  match m.load program with
  | .ok _ => [.loaded program.length]
  | .error _ => []

/-- What the machine says while it executes an instruction. -/
def instructionNotices (m : Machine σ) : Instruction → List Notice
  | .ret => if m.stack.isEmpty then [.returnOnEmpty] else []
  | .call _ => if m.stack.isFull then [.callDropped m.registers.pc] else []
  | .awaitKey x => [.awaitingKey x]
  | .unknown raw => [.skippedUnknown raw m.registers.pc]
  | _ => []

/-- What the machine says while it executes instructions up to the first that fails. -/
def instructionsNotices [Display σ] (m : Machine σ) : List Instruction → List Notice
  | [] => []
  | i :: rest =>
      m.instructionNotices i ++
        match execute i m with
        | .ok _ m => m.instructionsNotices rest
        | .error .. => []

/-- What the machine says when a key ends its wait. -/
def deliverNotices (m : Machine σ) (key : UInt8) : List Notice :=
  match m.mode with
  | .running => []
  | .waitingForKey register => [.deliveredKey key register]

/-- What the machine says in a cycle. -/
def stepNotices (m : Machine σ) : List Notice :=
  match m.mode with
  | .waitingForKey _ =>
      match (m.heldKey <|> m.keypad.pending) with
      | some key => m.deliverNotices key
      | none => []
  | .running =>
      .fetched m.registers.pc m.nextOpcode :: m.instructionNotices (.decode m.nextOpcode)

/-- What the machine says in several cycles, up to the first that fails. -/
def stepsNotices [Display σ] (m : Machine σ) : Nat → List Notice
  | 0 => []
  | n + 1 =>
      m.stepNotices ++
        match step m with
        | .ok _ m => m.stepsNotices n
        | .error .. => []

end Chip8.Machine
