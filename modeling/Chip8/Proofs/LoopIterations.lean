import Chip8.Proofs.LoopExits

/-!
The loop and the cycle made by hand agree. One iteration that is not held up leaves the machine
that one cycle leaves, so a run that nobody pauses goes through the same machines as cycles made
by hand, also with keys and ticks between them.
-/

namespace Chip8

namespace Run

variable {σ : Type} [Display σ]

/-- The next step begins a cycle or takes one up, and a key that comes to it is not held back:
the run is not paused, or the cycle was asked for. -/
def Proceeds (r : Run σ) : Prop :=
  r.begins = true ∨ ∃ stepping, r.WaitsIn stepping ∧ (!stepping && r.panel.paused) = false

/-- A step of the loop agrees with a cycle: it completes just when the cycle does something, and
then leaves the same machine; it breaks down just when the cycle fails; otherwise the cycle finds
no key, and neither changes the machine. -/
def AgreesWithCycle (r : Run σ) : Prop :=
  match r.advance.phase with
  | .ready => ∃ c, c ≠ .waiting ∧ Machine.step r.machine = .ok c r.advance.machine
  | .blocked _ | .ended =>
      Machine.step r.machine = .ok .waiting r.machine ∧ r.advance.machine = r.machine
  | .crashed cause => ∃ fault, cause = .fault fault ∧
      Machine.step r.machine = .error fault r.advance.machine

theorem agreesWithCycle_of_follows {r : Run σ} (h : r.advance.Follows (Machine.step r.machine)) :
    r.AgreesWithCycle := by
  unfold AgreesWithCycle
  cases hstep : Machine.step r.machine with
  | error fault m =>
      rw [hstep] at h
      obtain ⟨rfl, hphase⟩ := h
      rw [hphase]
      exact ⟨fault, rfl, rfl⟩
  | ok c m =>
      rw [hstep] at h
      cases c with
      | waiting =>
          obtain ⟨rfl, -, -⟩ := Machine.eq_of_step_waiting hstep
          obtain ⟨hmachine, hended | ⟨stepping, hblocked⟩⟩ := h
          · rw [hended]
            exact ⟨rfl, hmachine⟩
          · rw [hblocked]
            exact ⟨rfl, hmachine⟩
      | executed i =>
          obtain ⟨rfl, hphase⟩ := h
          rw [hphase]
          exact ⟨.executed i, nofun, rfl⟩
      | resumed key =>
          obtain ⟨rfl, hphase⟩ := h
          rw [hphase]
          exact ⟨.resumed key, nofun, rfl⟩

theorem Proceeds.follows {r : Run σ} (h : r.Proceeds) :
    r.advance.Follows (Machine.step r.machine) := by
  rcases h with hbegins | ⟨stepping, ⟨hphase, hmode, hheld⟩, hgoes⟩
  · exact advance_follows hbegins
  · rw [advance_of_blocked hphase]
    cases hwaits : r.machine.mode with
    | running => exact absurd hwaits hmode
    | waitingForKey x => exact takeFromKeypad_follows hwaits hheld hgoes

/-! A run that nobody pauses. -/

structure Unhindered (r : Run σ) : Prop where
  switches : r.panel.switches = (false, false)
  placed : r.Placed

omit [Display σ] in
theorem Unhindered.proceeds {r : Run σ} (h : r.Unhindered) : r.Proceeds := by
  have hswitches := h.switches
  simp only [Panel.switches, Prod.mk.injEq] at hswitches
  obtain ⟨hstopped, hpaused⟩ := hswitches
  rcases h.placed with hready | ⟨stepping, hwaits⟩
  · exact .inl (by simp [begins, hready, hstopped, Panel.idles, hpaused])
  · exact .inr ⟨stepping, hwaits, by rw [hpaused, Bool.and_false]⟩

theorem Unhindered.advance {r : Run σ} (h : r.Unhindered) (hover : r.advance.isOver = false) :
    r.advance.Unhindered :=
  ⟨(advance_switches r).trans h.switches, h.placed.occur (e := .advance) nofun hover⟩

theorem afterwards_steps_last (n : Nat) (last last' : Option Machine.Cycle) (m : Machine σ) :
    Machine.afterwards (Machine.steps n last) m = Machine.afterwards (Machine.steps n last') m := by
  cases n <;> rfl

theorem afterwards_steps_ok {m m' : Machine σ} {c : Machine.Cycle}
    (h : Machine.step m = .ok c m') (n : Nat) :
    Machine.afterwards (Machine.steps (n + 1) none) m =
      Machine.afterwards (Machine.steps n none) m' := by
  rw [← afterwards_steps_last n (some c) none m']
  simp only [Machine.steps, Machine.afterwards, bind, EStateM.bind, h]

theorem afterwards_steps_error {m m' : Machine σ} {fault : Fault}
    (h : Machine.step m = .error fault m') (n : Nat) :
    Machine.afterwards (Machine.steps (n + 1) none) m = m' := by
  simp only [Machine.steps, Machine.afterwards, bind, EStateM.bind, h]

theorem afterwards_steps_starved {m : Machine σ} (h : m.Starved) (n : Nat) :
    Machine.afterwards (Machine.steps n none) m = m := by
  induction n with
  | zero => rfl
  | succ n ih => rw [afterwards_steps_ok (Machine.step_starved.1 h), ih]

theorem occurAll_advance_of_isOver {r : Run σ} (h : r.isOver = true) (n : Nat) :
    r.occurAll (List.replicate n .advance) = r := by
  induction n with
  | zero => rfl
  | succ n ih =>
      change r.advance.occurAll (List.replicate n .advance) = r
      rw [advance_of_isOver h, ih]

/-- Any number of iterations that nobody pauses comes to what that many cycles come to, from any
machine, also one whose cycles fail. -/
theorem Unhindered.iterations {r : Run σ} (h : r.Unhindered) (n : Nat) :
    (r.occurAll (List.replicate n .advance)).machine =
      Machine.afterwards (Machine.steps n none) r.machine := by
  induction n generalizing r with
  | zero => rfl
  | succ n ih =>
      change (r.advance.occurAll (List.replicate n .advance)).machine = _
      have hfollows := h.proceeds.follows
      cases hover : r.advance.isOver with
      | false =>
          rw [ih (h.advance hover)]
          cases hstep : Machine.step r.machine with
          | ok c m =>
              rw [hstep] at hfollows
              rw [afterwards_steps_ok hstep, hfollows.ok.1]
          | error fault m =>
              rw [hstep] at hfollows
              simp [isOver, hfollows.2] at hover
      | true =>
          rw [occurAll_advance_of_isOver hover]
          cases hstep : Machine.step r.machine with
          | error fault m =>
              rw [hstep] at hfollows
              rw [afterwards_steps_error hstep, hfollows.1]
          | ok c m =>
              rw [hstep] at hfollows
              cases c with
              | executed i | resumed key => simp [isOver, hfollows.2] at hover
              | waiting =>
                  obtain ⟨rfl, hstarved⟩ := Machine.eq_of_step_waiting hstep
                  rw [afterwards_steps_starved hstarved, hfollows.1]

/-! The same with keys, ticks and timers between the iterations. -/

/-- The event with a cycle made by hand in place of a step of the loop. -/
def Event.byHand : Event → Event
  | .advance => .step
  | e => e

/-- Whether an event is the loop's, or neither touches the loop nor cancels a wait. -/
def Event.keepsRunning : Event → Bool
  | .step | .cancel | .panel _ | .start _ => false
  | _ => true

/-- A run that nobody pauses, stops or cancels, with a machine that agrees with its keypad. -/
structure Undisturbed (r : Run σ) : Prop extends r.Unhindered where
  sound : r.Sound
  cancelled : r.machine.keypad.cancelled = false

end Run

namespace Machine

variable {σ : Type} [Display σ]

theorem executed_cancelled (m : Machine σ) (i : Instruction) :
    (m.executed i).keypad.cancelled = m.keypad.cancelled := by
  by_cases hawait : ∃ x, i = .awaitKey x
  · obtain ⟨x, rfl⟩ := hawait
    rfl
  · rw [executed_keypad m i fun x hx => hawait ⟨x, hx⟩]

theorem afterwards_step_cancelled (m : Machine σ) :
    (afterwards Machine.step m).keypad.cancelled = m.keypad.cancelled := by
  unfold afterwards
  cases hmode : m.mode with
  | running =>
      rw [step_running hmode]
      exact executed_cancelled m.fetched _
  | waitingForKey x =>
      cases htransit : m.transit with
      | none => rw [step_waiting_none hmode htransit]
      | some key =>
          have hwaits := (withoutTransit_mode m).trans hmode
          rw [step_waiting hmode htransit]
          by_cases hx : x.toNat < 16
          · rw [deliver_of_lt hwaits hx]
            exact withoutTransit_cancelled m
          · rw [deliver_of_le hwaits hx]
            exact withoutTransit_cancelled m

end Machine

theorem Keypad.press_cancelled (k : Keypad) (key : UInt8) :
    (k.press key).cancelled = k.cancelled := by
  unfold press
  split
  · dsimp only
    split <;> rfl
  · rfl

theorem Keypad.release_cancelled (k : Keypad) (key : UInt8) :
    (k.release key).cancelled = k.cancelled := by
  unfold release
  split <;> rfl

namespace Run

variable {σ : Type} [Display σ]

theorem Undisturbed.advance_machine {r : Run σ} (h : r.Undisturbed) :
    r.advance.machine = Machine.afterwards Machine.step r.machine :=
  h.proceeds.follows.machine_eq

theorem Undisturbed.advance {r : Run σ} (h : r.Undisturbed) : r.advance.Undisturbed := by
  have hover : r.advance.isOver = false := by
    unfold isOver
    split
    · next hended =>
        rcases h.placed.ended_iff.1 hended with ⟨_, hstopped⟩ | ⟨_, _, hcancelled⟩
        · rw [← hstopped]
          exact congrArg Prod.fst h.switches
        · rw [← hcancelled]
          exact h.cancelled
    · next cause hcrashed => exact absurd hcrashed (h.sound.advance.phase_ne cause)
    · rfl
    · rfl
  refine ⟨h.toUnhindered.advance hover, h.sound.advance, ?_⟩
  rw [h.advance_machine, Machine.afterwards_step_cancelled]
  exact h.cancelled

theorem Undisturbed.occur {r : Run σ} (h : r.Undisturbed) {e : Event}
    (he : e.keepsRunning = true) : (r.occur e).Undisturbed := by
  have hsound := h.sound.occur e
  cases e with
  | step | cancel | panel action | start panel => cases he
  | advance => exact h.advance
  | press key =>
      exact ⟨⟨h.switches, h.placed⟩, hsound, (Keypad.press_cancelled _ key).trans h.cancelled⟩
  | release key =>
      exact ⟨⟨h.switches, h.placed⟩, hsound, (Keypad.release_cancelled _ key).trans h.cancelled⟩
  | clearCancellation => exact ⟨⟨h.switches, h.placed⟩, hsound, rfl⟩
  | tick | setDelay value | setSound value =>
      exact ⟨⟨h.switches, h.placed⟩, hsound, h.cancelled⟩

theorem Undisturbed.occur_machine {r s : Run σ} (h : r.Undisturbed)
    (hmachine : r.machine = s.machine) (e : Event) :
    (r.occur e).machine = (s.occur e.byHand).machine := by
  cases e with
  | advance => exact h.advance_machine.trans (by rw [hmachine]; rfl)
  | step | press key | release key | cancel | clearCancellation | tick | setDelay value
  | setSound value => simp only [Event.byHand, Run.occur, act, onMachine, hmachine]
  | panel action | start panel => exact hmachine

/-- An undisturbed run goes through the machines that cycles made by hand go through. -/
theorem Undisturbed.occurAll_machine {r s : Run σ} (h : r.Undisturbed)
    (hmachine : r.machine = s.machine) {events : List Event}
    (hevents : ∀ e ∈ events, e.keepsRunning = true) :
    (r.occurAll events).machine = (s.occurAll (events.map .byHand)).machine := by
  induction events generalizing r s with
  | nil => exact hmachine
  | cons e rest ih =>
      have he := hevents e List.mem_cons_self
      have hrest := fun e' he' => hevents e' (List.mem_cons_of_mem e he')
      exact ih (h.occur he) (h.occur_machine hmachine e) hrest

/-- The loop and the cycle made by hand agree, from any machine and under any panel. -/
theorem loop_agrees_with_cycles (r : Run σ) :
    (r.Proceeds → r.AgreesWithCycle) ∧
    (r.Unhindered → ∀ n, (r.occurAll (List.replicate n .advance)).machine =
      Machine.afterwards (Machine.steps n none) r.machine) ∧
    (r.Undisturbed → ∀ events : List Event, (∀ e ∈ events, e.keepsRunning = true) →
      (r.occurAll events).machine = (r.occurAll (events.map .byHand)).machine) ∧
    (r.Placed → r.LeavesOnCause ∧
      ∀ e, e ≠ .step → (r.occur e).isOver = false → (r.occur e).Placed) := by
  refine ⟨fun h => agreesWithCycle_of_follows h.follows, fun h n => h.iterations n,
    fun h events hevents => h.occurAll_machine rfl hevents, fun h => ⟨h.leavesOnCause, ?_⟩⟩
  intro e he hover
  exact h.occur he hover

/-- A loop that waits for a key in a cycle it began, with a key and a tick on the way. -/
theorem loop_agrees_with_cycles_waiting :
    let r := (loaded [0xF3, 0x0A, 0x63, 0x05]).occurAll [.advance, .advance]
    let events := [.advance, .press 9, .tick, .advance, .release 9, .advance]
    (r.WaitsIn false ∧ r.AgreesWithCycle) ∧
      (r.Undisturbed ∧ (r.occurAll events).machine =
        (r.occurAll (events.map Event.byHand)).machine) ∧
      (∀ n, (r.occurAll (List.replicate n .advance)).machine =
        Machine.afterwards (Machine.steps n none) r.machine) ∧
      (r.Placed ∧ r.LeavesOnCause) := by
  intro r events
  have hwaits : r.WaitsIn false := by
    refine ⟨by decide +kernel, by decide +kernel, by decide +kernel⟩
  have hplaced : r.Placed := .inr ⟨false, hwaits⟩
  have hunhindered : r.Unhindered := ⟨by decide +kernel, hplaced⟩
  have hsound := ((loaded_reachable [0xF3, 0x0A, 0x63, 0x05]).occurAll [.advance, .advance]).sound
  have hundisturbed : r.Undisturbed := ⟨hunhindered, hsound, by decide +kernel⟩
  clear_value r
  obtain ⟨hcycle, hiterations, hschedule, hleaves⟩ := loop_agrees_with_cycles r
  have hagrees := hcycle hunhindered.proceeds
  have hsame := hschedule hundisturbed events (by decide)
  exact ⟨⟨hwaits, hagrees⟩, ⟨hundisturbed, hsame⟩, hiterations hunhindered, hplaced,
    (hleaves hplaced).1⟩

end Run

end Chip8
