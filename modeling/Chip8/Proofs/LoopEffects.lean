import Chip8.Proofs.LoopSteps
import Chip8.Proofs.Requests

/-!
What a step of the loop can do to the machine. It executes one instruction at most, and all else
that happens in it has to do with keys: one is taken, delivered or held back, and while a frame is
shown somebody may press one. So a part of the machine that keys do not reach is after the step as
the instruction left it, or as it was.
-/

namespace Chip8

namespace Machine

/-- A part of the machine that keys do not reach: it is the same with another keypad or another key
held back, and when a wait has ended. -/
structure Unkeyed {σ α : Type} (part : Machine σ → α) : Prop where
  keypad : ∀ m change, part (m.onKeypad change) = part m
  heldKey : ∀ m heldKey, part {m with heldKey} = part m
  resumed : ∀ m x key, part (m.resumed x key) = part m

/-- The machine after the instruction that the next cycle executes, if it does execute one. -/
def advanced {σ : Type} [Display σ] (m : Machine σ) : Machine σ :=
  match m.upcoming with
  | some i => m.fetched.executed i
  | none => m

theorem advanced_running {σ : Type} [Display σ] {m : Machine σ} (hmode : m.mode = .running) :
    m.advanced = m.fetched.executed (.decode m.nextOpcode) := by
  simp only [advanced, upcoming, hmode]

theorem advanced_waiting {σ : Type} [Display σ] {m : Machine σ} {x : UInt8}
    (hmode : m.mode = .waitingForKey x) : m.advanced = m := by
  simp only [advanced, upcoming, hmode]

namespace Unkeyed

variable {σ α : Type} {part : Machine σ → α}

theorem withoutTransit (h : Unkeyed part) (m : Machine σ) : part m.withoutTransit = part m := by
  unfold Machine.withoutTransit
  split
  · exact h.heldKey m none
  · exact h.keypad m fun k => {k with pending := none}

theorem deliver (h : Unkeyed part) (m : Machine σ) (key : UInt8) :
    part (afterwards (Machine.deliver key) m) = part m := by
  unfold afterwards
  cases hmode : m.mode with
  | running => rw [deliver_of_running hmode]
  | waitingForKey x =>
      by_cases hx : x.toNat < 16
      · rw [deliver_of_lt hmode hx]
        exact h.resumed m x key
      · rw [deliver_of_le hmode hx]

theorem step [Display σ] (h : Unkeyed part) (m : Machine σ) :
    part (afterwards Machine.step m) = part m.advanced := by
  cases hmode : m.mode with
  | running => rw [afterwards, step_running hmode, advanced_running hmode]
  | waitingForKey x =>
      rw [advanced_waiting hmode]
      cases htransit : m.transit with
      | none => rw [afterwards, step_waiting_none hmode htransit]
      | some key =>
          have hdelivered := h.deliver m.withoutTransit key
          unfold afterwards at *
          rw [step_waiting hmode htransit]
          rw [h.withoutTransit] at hdelivered
          generalize Machine.deliver key m.withoutTransit = result at *
          cases result <;> exact hdelivered

end Unkeyed

end Machine

namespace Run

variable {σ α : Type} {part : Machine σ → α}

theorem act_unkeyed (h : Machine.Unkeyed part) (r : Run σ) (action : Action) :
    part (r.act action).machine = part r.machine := by
  cases action with
  | panel action => rfl
  | keypad command => exact h.keypad r.machine fun k => (k.perform command).2

theorem actAll_unkeyed (h : Machine.Unkeyed part) (r : Run σ) (actions : List Action) :
    part (r.actAll actions).machine = part r.machine := by
  induction actions generalizing r with
  | nil => rfl
  | cons action rest ih => exact (ih (r.act action)).trans (act_unkeyed h r action)

theorem receive_unkeyed (h : Machine.Unkeyed part) (r : Run σ) (stepping : Bool) (key : UInt8) :
    part (r.receive stepping key).machine = part r.machine := by
  have hdelivered := h.deliver r.machine key
  unfold receive
  split
  · rw [complete_machine]
    exact h.heldKey r.machine (some key)
  · unfold Machine.afterwards at hdelivered
    generalize Machine.deliver key r.machine = result at *
    cases result with
    | ok _ m =>
        rw [complete_machine]
        exact hdelivered
    | error fault m => exact hdelivered

theorem takeFromKeypad_unkeyed (h : Machine.Unkeyed part) (r : Run σ) (stepping : Bool) :
    part (r.takeFromKeypad stepping).machine = part r.machine := by
  cases hpending : r.machine.keypad.pending with
  | none => rw [takeFromKeypad_of_none hpending]
  | some key =>
      rw [takeFromKeypad_of_some hpending, receive_unkeyed h]
      exact h.keypad r.machine fun k => {k with pending := none}

variable [Display σ]

theorem cycle_unkeyed (h : Machine.Unkeyed part) {r : Run σ} (hmode : r.machine.mode = .running)
    (meanwhile : List Action) :
    part (r.cycle fun _ => .acts meanwhile).machine = part r.machine.advanced := by
  rw [Machine.advanced_running hmode]
  unfold cycle
  rw [Machine.step_running hmode]
  dsimp only
  split
  · rw [complete_machine, actAll_unkeyed h]
  · rw [complete_machine]

theorem begin_unkeyed (h : Machine.Unkeyed part) (r : Run σ) (meanwhile : List Action)
    (stepping : Bool) :
    part (r.begin (fun _ => .acts meanwhile) stepping).machine = part r.machine.advanced := by
  unfold begin
  cases hmode : r.machine.mode with
  | running => exact cycle_unkeyed h hmode meanwhile
  | waitingForKey x =>
      rw [Machine.advanced_waiting hmode]
      cases r.machine.heldKey with
      | some key => exact (receive_unkeyed h _ stepping key).trans (h.heldKey r.machine none)
      | none => exact takeFromKeypad_unkeyed h r stepping

/-- What keys do not reach is after a step of the loop as the instruction left it that the step
executed, or else as it was. -/
theorem advanceWith_unkeyed (h : Machine.Unkeyed part) (r : Run σ) (meanwhile : List Action) :
    part (r.advanceWith fun _ => .acts meanwhile).machine =
      part (if r.begins then r.machine.advanced else r.machine) := by
  cases r.stepped fun _ => .acts meanwhile with
  | begun panel stepping hbegins hstep =>
      rw [hstep, if_pos hbegins]
      exact begin_unkeyed h {r with panel} meanwhile stepping
  | takenUp stepping hbegins hphase hstep =>
      rw [hstep, hbegins]
      exact takeFromKeypad_unkeyed h r stepping
  | left hbegins hstep | still hbegins hstep =>
      rw [hstep, hbegins]
      rfl

end Run

end Chip8
