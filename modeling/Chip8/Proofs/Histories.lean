import Chip8.Proofs.Cycles
import Chip8.Run.Loop

/-!
Histories of a machine. Events happen while a program is under way, in any order: steps of the
loop, cycles made by hand, keys, ticks, actions at the panel and fresh starts of the loop.
Operations also bring in programs, reset the machine and execute instructions directly. Nothing
is assumed about who is entitled to do what when, so a history may also do what no single user
could, such as to make a cycle by hand while the loop waits for a key.
-/

namespace Chip8

/-- The machine a computation leaves, whether it failed or not. -/
def Machine.afterwards {σ α : Type} (x : Machine.Exec σ α) (m : Machine σ) : Machine σ :=
  match x m with
  | .ok _ m' | .error _ m' => m'

namespace Run

variable {σ : Type}

/-- What can happen while a program is under way. -/
inductive Event
  /-- One step of the loop. -/
  | advance
  /-- One cycle made by hand. -/
  | step
  | press (key : UInt8)
  | release (key : UInt8)
  | cancel
  | clearCancellation
  | panel (action : Panel.Action)
  | tick
  | setDelay (value : UInt8)
  | setSound (value : UInt8)
  /-- The loop is begun anew, under some panel. -/
  | start (panel : Panel)
deriving DecidableEq

/-- What can be done with a machine altogether. -/
inductive Operation
  | event (e : Event)
  | load (program : List UInt8)
  | reset
  /-- The instruction an opcode stands for is executed directly, unless the machine waits. -/
  | execute (op : Opcode)
deriving DecidableEq

/-- Whether an event asks the machine for a cycle. -/
def Event.isCycle : Event → Bool
  | .advance | .step => true
  | _ => false

def onMachine (r : Run σ) (change : Machine σ → Machine σ) : Run σ :=
  {r with machine := change r.machine}

def occur [Display σ] (r : Run σ) : Event → Run σ
  | .advance => r.advance
  | .step => r.onMachine (Machine.afterwards Machine.step)
  | .press key => r.act (.keypad (.press key))
  | .release key => r.act (.keypad (.release key))
  | .cancel => r.act (.keypad .cancel)
  | .clearCancellation => r.act (.keypad .clearCancellation)
  | .panel action => r.act (.panel action)
  | .tick => r.onMachine Machine.tick
  | .setDelay value => r.onMachine fun m => {m with timers.delay := value}
  | .setSound value => r.onMachine fun m => {m with timers.sound := value}
  | .start panel => start r.machine panel

def occurAll [Display σ] (r : Run σ) (events : List Event) : Run σ :=
  events.foldl occur r

def operate [Display σ] (r : Run σ) : Operation → Run σ
  | .event e => r.occur e
  | .load program => r.onMachine fun m => (m.load program).toOption.getD m
  | .reset => r.onMachine Machine.reset
  | .execute op => r.onMachine fun m =>
      match m.mode with
      | .running => Machine.afterwards (Machine.execute (.decode op)) m
      | .waitingForKey _ => m

/-- What a fresh machine can come to, by any operations in any order. -/
inductive Reachable [Display σ] : Run σ → Prop
  | start (settings : Settings) (random : Random.Source) (display : σ) (panel : Panel) :
      Reachable (start (.fresh settings random display) panel)
  | operate {r : Run σ} (h : Reachable r) (o : Operation) : Reachable (r.operate o)

/-- Whether the next step of the loop begins a cycle. -/
def begins (r : Run σ) : Bool :=
  r.phase == .ready && !r.panel.stopped && !r.panel.idles

/-- The instruction that the machine fetches and executes by an event, if it does. -/
def executes (r : Run σ) : Event → Option Instruction
  | .step => r.machine.upcoming
  | .advance => if r.begins then r.machine.upcoming else none
  | _ => none

/-- The key that is pressed by an event, if the keypad has it and it was up. -/
def freshPress (r : Run σ) : Event → Option UInt8
  | .press key => if key.toNat < 16 ∧ r.machine.keypad.isDown key = false then some key else none
  | _ => none

/-- The keys that are pressed by some events when they are up, in order. -/
def freshPresses [Display σ] (r : Run σ) : List Event → List UInt8
  | [] => []
  | e :: rest => (r.freshPress e).toList ++ (r.occur e).freshPresses rest

section

variable [Display σ]

theorem occurAll_append (r : Run σ) (events more : List Event) :
    r.occurAll (events ++ more) = (r.occurAll events).occurAll more :=
  List.foldl_append

theorem occurAll_concat (r : Run σ) (events : List Event) (e : Event) :
    r.occurAll (events ++ [e]) = (r.occurAll events).occur e :=
  occurAll_append r events [e]

theorem freshPresses_append (r : Run σ) (events more : List Event) :
    r.freshPresses (events ++ more) =
      r.freshPresses events ++ (r.occurAll events).freshPresses more := by
  induction events generalizing r with
  | nil => rfl
  | cons e rest ih => simp only [List.cons_append, freshPresses, ih, List.append_assoc]; rfl

theorem freshPresses_concat (r : Run σ) (events : List Event) (e : Event) :
    r.freshPresses (events ++ [e]) =
      r.freshPresses events ++ ((r.occurAll events).freshPress e).toList := by
  simp [freshPresses_append, freshPresses]

theorem Reachable.occurAll {r : Run σ} (h : r.Reachable) (events : List Event) :
    (r.occurAll events).Reachable := by
  induction events generalizing r with
  | nil => exact h
  | cons e rest ih => exact ih (h.operate (.event e))

end

/-- A run of a program that was loaded into a fresh machine, with nobody at the panel yet. -/
def loaded (program : List UInt8) : Run Recorder :=
  (start (.fresh .default (.cycling #[]) .empty) .initial).operate (.load program)

theorem loaded_reachable (program : List UInt8) : (loaded program).Reachable :=
  .operate (.start ..) (.load program)

end Run

end Chip8
