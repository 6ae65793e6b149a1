import Chip8.Proofs.Histories

/-!
Requests: whatever can be asked of a machine and of the run it is in, with the answer it gives. In
contrast to the operations of a history they include the execution of any instruction, also of one
that fails and while the machine waits, everything the keypad can be asked, and things that happen
while the display is shown a frame.
-/

namespace Chip8

namespace Machine

variable {σ : Type}

/-- What a computation comes to, apart from the machine it leaves. -/
def outcome {α : Type} (x : Exec σ α) (m : Machine σ) : Except Fault α :=
  match x m with
  | .ok a _ => .ok a
  | .error fault _ => .error fault

/-- The instructions that are executed successfully when some are to be executed one after the
other. -/
def completed [Display σ] (m : Machine σ) : List Instruction → List Instruction
  | [] => []
  | i :: rest =>
      match execute i m with
      | .ok _ m' => i :: m'.completed rest
      | .error _ _ => []

end Machine

namespace Run

variable {σ : Type}

inductive Request
  /-- One step of the loop, and what happens if the display is shown a frame in it. -/
  | advance (meanwhile : List Action)
  | step
  | act (action : Action)
  | tick
  | setDelay (value : UInt8)
  | setSound (value : UInt8)
  /-- The loop is begun anew, under some panel. -/
  | start (panel : Panel)
  | load (program : List UInt8)
  | reset
  | execute (i : Instruction)
  | executeAll (instructions : List Instruction)
deriving DecidableEq

inductive Response
  | done
  /-- Where the loop stands after a step. -/
  | stands (phase : Phase)
  | cycle (outcome : Except Fault Machine.Cycle)
  | executed (outcome : Except Fault Unit)
  | keypad (reply : Keypad.Reply)
  | loaded (failure : Option Failure)

/-- The run after a request. -/
def fulfil [Display σ] (r : Run σ) : Request → Run σ
  | .advance meanwhile => r.advanceWith fun _ => .acts meanwhile
  | .step => r.onMachine (Machine.afterwards Machine.step)
  | .act action => r.act action
  | .tick => r.onMachine Machine.tick
  | .setDelay value => r.onMachine fun m => {m with timers.delay := value}
  | .setSound value => r.onMachine fun m => {m with timers.sound := value}
  | .start panel => Run.start r.machine panel
  | .load program => r.onMachine fun m => (m.load program).toOption.getD m
  | .reset => r.onMachine Machine.reset
  | .execute i => r.onMachine (Machine.afterwards (Machine.execute i))
  | .executeAll instructions => r.onMachine (Machine.afterwards (Machine.executeAll instructions))

def fulfilAll [Display σ] (r : Run σ) (requests : List Request) : Run σ :=
  requests.foldl fulfil r

/-- The answer to a request. -/
def response [Display σ] (r : Run σ) : Request → Response
  | .advance meanwhile => .stands (r.fulfil (.advance meanwhile)).phase
  | .step => .cycle (Machine.outcome Machine.step r.machine)
  | .act (.keypad command) => .keypad (r.machine.keypad.perform command).1
  | .load program =>
      match r.machine.load program with
      | .ok _ => .loaded none
      | .error failure => .loaded (some failure)
  | .execute i => .executed (Machine.outcome (Machine.execute i) r.machine)
  | .executeAll instructions =>
      .executed (Machine.outcome (Machine.executeAll instructions) r.machine)
  | .act (.panel _) | .tick | .setDelay _ | .setSound _ | .start _ | .reset => .done

def responses [Display σ] (r : Run σ) : List Request → List Response
  | [] => []
  | q :: rest => r.response q :: (r.fulfil q).responses rest

/-- The instructions that are executed successfully by a request. -/
def completed [Display σ] (r : Run σ) : Request → List Instruction
  | .advance _ => if r.begins then r.machine.upcoming.toList else []
  | .step => r.machine.upcoming.toList
  | .execute i => r.machine.completed [i]
  | .executeAll instructions => r.machine.completed instructions
  | .act _ | .tick | .setDelay _ | .setSound _ | .start _ | .load _ | .reset => []

def completedAll [Display σ] (r : Run σ) : List Request → List Instruction
  | [] => []
  | q :: rest => r.completed q ++ (r.fulfil q).completedAll rest

/-- Whatever can be done with a machine can be asked of it. -/
theorem operate_eq_fulfil [Display σ] (r : Run σ) (o : Operation) :
    ∃ q, r.operate o = r.fulfil q := by
  cases o with
  | load program => exact ⟨.load program, rfl⟩
  | reset => exact ⟨.reset, rfl⟩
  | execute op =>
      simp only [operate]
      cases hmode : r.machine.mode with
      | running =>
          refine ⟨.execute (.decode op), ?_⟩
          simp only [onMachine, hmode, fulfil]
      | waitingForKey x =>
          refine ⟨.executeAll [], ?_⟩
          simp only [onMachine, hmode]
          rfl
  | event e =>
      cases e with
      | advance => exact ⟨.advance [], rfl⟩
      | step => exact ⟨.step, rfl⟩
      | press key => exact ⟨.act (.keypad (.press key)), rfl⟩
      | release key => exact ⟨.act (.keypad (.release key)), rfl⟩
      | cancel => exact ⟨.act (.keypad .cancel), rfl⟩
      | clearCancellation => exact ⟨.act (.keypad .clearCancellation), rfl⟩
      | panel action => exact ⟨.act (.panel action), rfl⟩
      | tick => exact ⟨.tick, rfl⟩
      | setDelay value => exact ⟨.setDelay value, rfl⟩
      | setSound value => exact ⟨.setSound value, rfl⟩
      | start panel => exact ⟨.start panel, rfl⟩

end Run

end Chip8
