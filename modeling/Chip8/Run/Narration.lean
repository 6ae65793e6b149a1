import Chip8.Machine.Narration
import Chip8.Run.Loop

/-!
What a run has to say, told from the state before each step. What somebody does at the panel or
the keypad while a frame is shown is said between the lines of the instruction that showed it.
-/

namespace Chip8.Run

variable {σ : Type}

/-- What an action makes the panel or the keypad say. -/
def actionNotices (r : Run σ) : Action → List Notice
  | .panel action => r.panel.notices action
  | .keypad command => r.machine.keypad.notices command

def actionsNotices (r : Run σ) : List Action → List Notice
  | [] => []
  | action :: rest => r.actionNotices action ++ (r.act action).actionsNotices rest

/-- What is said when a key comes to a cycle that waited for it. -/
def receiveNotices (r : Run σ) (stepping : Bool) (key : UInt8) : List Notice :=
  if !stepping && r.panel.paused then [.heldBack key] else r.machine.deliverNotices key

def takeFromKeypadNotices (r : Run σ) (stepping : Bool) : List Notice :=
  if r.machine.keypad.blocks then []
  else
    match r.machine.keypad.pending with
    | some key => r.receiveNotices stepping key
    | none => [.waitCancelled]

def cycleNotices [Display σ] (watcher : Watcher) (r : Run σ) : List Notice :=
  r.machine.stepNotices ++
    match Machine.step r.machine with
    | .ok (.executed i) m =>
        if i.refreshes then
          match watcher (r.refreshes + 1) with
          | .acts actions => {r with machine := m}.actionsNotices actions
          | .fails => []
        else []
    | _ => []

def beginNotices [Display σ] (watcher : Watcher) (r : Run σ) (stepping : Bool) : List Notice :=
  match r.machine.mode with
  | .running => r.cycleNotices watcher
  | .waitingForKey _ =>
      match r.machine.heldKey with
      | some key => r.receiveNotices stepping key
      | none => r.takeFromKeypadNotices stepping

/-- What is said in one step of the loop. -/
def advanceNotices [Display σ] (watcher : Watcher) (r : Run σ) : List Notice :=
  match r.phase with
  | .ended | .crashed _ => []
  | .blocked stepping => r.takeFromKeypadNotices stepping
  | .ready =>
      if r.panel.stopped || r.panel.idles then []
      else r.beginNotices watcher r.panel.paused

/-- What is said until the loop has been left, gathered behind what was said before. A loop
that breaks down no longer says where it stopped. -/
def finishNotices [Display σ] (watcher : Watcher) : Nat → Run σ → Array Notice → Array Notice
  | 0, _, said => said
  | n + 1, r, said =>
      match r.phase with
      | .ended => said.push (.stoppedAt r.machine.registers.pc)
      | .crashed _ => said
      | _ =>
          finishNotices watcher n (r.advanceWith watcher)
            (said ++ (r.advanceNotices watcher).toArray)

end Chip8.Run
