import Chip8.Proofs.KeyWaits
import Chip8.Proofs.LoopIterations

/-!
Keys that come under a pause. A paused run takes the key it waits for, but holds it back: the
program stands still until the run is resumed or a single step is asked for, and then goes on with
that key.

A wait that was itself taken up as a single step is an exception. Its cycle was begun under an
earlier pause and is not asked about the present one again, so a run that was resumed and paused
anew meanwhile lets the key through.
-/

namespace Chip8

namespace Machine

variable {σ : Type}

theorem resumed_eq_served {m : Machine σ} (h : m.heldKey = none ∨ m.keypad.pending = none)
    (x key : UInt8) : m.withoutTransit.resumed x key = m.served x key := by
  obtain ⟨_, _, _, _, _, ⟨_, _, pending, _⟩, _, _, heldKey, _, _, _⟩ := m
  cases heldKey with
  | none => rfl
  | some held =>
      obtain rfl : pending = none := h.resolve_left nofun
      rfl

end Machine

namespace Run

variable {σ : Type} [Display σ]

/-- Whether an event of one run leaves a pause in force and asks for no step under it. -/
def Event.keepsPause : Event → Bool
  | .step | .start _ | .panel .resume | .panel .stepOnce => false
  | _ => true

/-- A paused run of which nothing is asked. -/
structure Quiet (r : Run σ) : Prop where
  paused : r.panel.paused = true
  unasked : r.panel.stepRequested = false

/-- Such a run that is not inside a single step either. -/
structure Resting (r : Run σ) : Prop extends r.Quiet where
  not_stepping : r.phase ≠ .blocked true

/-- A key is on its way to a machine that waits, and the run keeps it back: the loop is inside the
wait and the keypad has caught the key, or the loop is outside. -/
structure KeepsBack (r : Run σ) (key : UInt8) : Prop extends r.Resting where
  transit : r.machine.transit = some key
  deaf : r.machine.keypad.waiting = false
  one_place : r.machine.heldKey = none ∨ r.machine.keypad.pending = none
  caught : r.phase = .blocked false → r.machine.heldKey = none

/-- A request for a step is there only under a pause, whatever is done to the run but to begin it
anew. -/
theorem occurAll_requested {r : Run σ} (h : r.panel.stepRequested = true → r.panel.paused = true)
    {events : List Event} (hevents : ∀ panel, .start panel ∉ events) :
    (r.occurAll events).panel.stepRequested = true →
      (r.occurAll events).panel.paused = true := by
  induction events generalizing r with
  | nil => exact h
  | cons e rest ih =>
      refine ih (r := r.occur e) ?_ fun panel hmem => hevents panel (List.mem_cons_of_mem e hmem)
      cases e with
      | start panel => exact absurd List.mem_cons_self (hevents panel)
      | advance =>
          intro hasked
          have hswitches := congrArg Prod.snd (advance_switches r)
          exact hswitches.trans (h (advance_requested hasked))
      | step | press key | release key | cancel | clearCancellation | tick | setDelay value
      | setSound value => exact h
      | panel action =>
          cases action with
          | pause => exact fun _ => rfl
          | resume => exact fun hasked => by cases hasked
          | stop => exact h
          | stepOnce =>
              simp only [occur, act, Panel.perform]
              split
              · next hpaused => exact fun _ => hpaused
              · exact h

omit [Display σ] in
theorem Quiet.begins {r : Run σ} (h : r.Quiet) : r.begins = false := by
  simp [Run.begins, Panel.idles, h.paused, h.unasked]

omit [Display σ] in
theorem Quiet.congr {r r' : Run σ} (h : r.Quiet)
    (hpanel : r'.panel.unpublished = r.panel.unpublished) : r'.Quiet := by
  obtain ⟨-, hpaused, hunasked⟩ := Panel.unpublished_inj hpanel
  exact ⟨hpaused.trans h.paused, hunasked.trans h.unasked⟩

theorem Quiet.advance {r : Run σ} (h : r.Quiet) : r.advance.Quiet := by
  cases hphase : r.phase with
  | ended | crashed cause =>
      rw [advance_of_isOver (by simp [isOver, hphase])]
      exact h
  | ready =>
      rcases advance_of_not_begins hphase h.begins with hsame | hended
      · rw [hsame]
        exact h
      · rw [hended]
        exact ⟨h.paused, h.unasked⟩
  | blocked stepping =>
      rw [advance_of_blocked hphase]
      exact h.congr (takeFromKeypad_unpublished r stepping)

theorem Quiet.occur {r : Run σ} (h : r.Quiet) {e : Event} (he : e.keepsPause = true) :
    (r.occur e).Quiet := by
  cases e with
  | step | start panel => cases he
  | advance => exact h.advance
  | press key | release key | cancel | clearCancellation | tick | setDelay value
  | setSound value => exact ⟨h.paused, h.unasked⟩
  | panel action =>
      cases action with
      | resume | stepOnce => cases he
      | pause => exact ⟨rfl, h.unasked⟩
      | stop => exact ⟨h.paused, h.unasked⟩

theorem Quiet.occurAll {r : Run σ} (h : r.Quiet) {events : List Event}
    (hevents : ∀ e ∈ events, e.keepsPause = true) : (r.occurAll events).Quiet := by
  induction events generalizing r with
  | nil => exact h
  | cons e rest ih =>
      have hrest := fun e' he' => hevents e' (List.mem_cons_of_mem e he')
      exact ih (h.occur (hevents e List.mem_cons_self)) hrest

/-- What a step of the loop comes to under a pause when nothing is asked for: it holds back a key
that the keypad has caught, or leaves the machine alone. -/
inductive Rested (r : Run σ) : Prop
  | still (hmachine : r.advance.machine = r.machine)
      (hphase : r.advance.phase = r.phase ∨ r.advance.phase = .ended)
  | heldBack (key : UInt8) (hphase : r.phase = .blocked false)
      (hpending : r.machine.keypad.pending = some key)
      (hadvance : r.advance = complete {r with
        machine := {r.machine with keypad.pending := none, heldKey := some key}})

theorem Resting.rested {r : Run σ} (h : r.Resting) : r.Rested := by
  cases hphase : r.phase with
  | ended | crashed cause =>
      have hsame : r.advance = r := advance_of_isOver (by simp [isOver, hphase])
      exact .still (by rw [hsame]) (.inl (by rw [hsame]))
  | ready =>
      rcases advance_of_not_begins hphase h.begins with hsame | hended
      · exact .still (by rw [hsame]) (.inl (by rw [hsame]))
      · exact .still (by rw [hended]) (.inr (by rw [hended]))
  | blocked stepping =>
      cases stepping with
      | true => exact absurd hphase h.not_stepping
      | false =>
          have hadvance := advance_of_blocked hphase
          cases hpending : r.machine.keypad.pending with
          | some key =>
              rw [takeFromKeypad_of_paused hpending h.paused] at hadvance
              exact .heldBack key hphase hpending hadvance
          | none =>
              rw [takeFromKeypad_of_none hpending] at hadvance
              refine .still (by rw [hadvance]) ?_
              rw [hadvance]
              cases r.machine.keypad.cancelled with
              | true => exact .inr rfl
              | false => exact .inl hphase.symm

theorem Resting.occur {r : Run σ} (h : r.Resting) {e : Event} (he : e.keepsPause = true) :
    (r.occur e).Resting := by
  refine ⟨h.toQuiet.occur he, ?_⟩
  cases e with
  | step | start panel => cases he
  | press key | release key | cancel | clearCancellation | panel action | tick | setDelay value
  | setSound value => exact h.not_stepping
  | advance =>
      rw [Run.occur]
      cases h.rested with
      | still _ hstays =>
          rcases hstays with hsame | hended
          · rw [hsame]
            exact h.not_stepping
          · rw [hended]
            intro hblocked
            cases hblocked
      | heldBack key _ _ hadvance =>
          rw [hadvance, complete_phase]
          intro hblocked
          cases hblocked

/-- A fresh press completes a wait that has no key yet, and the run keeps the key back. -/
theorem Resting.press {r : Run σ} (h : r.Resting) {key : UInt8}
    (hnone : r.machine.transit = none) (hcatches : r.machine.keypad.catches key = true) :
    (r.occur (.press key)).KeepsBack key := by
  have hheld := (Option.or_eq_none_iff.1 hnone).1
  have hpress := Keypad.press_of_catches hcatches
  have hpending : (r.occur (.press key)).machine.keypad.pending = some key :=
    congrArg Keypad.pending hpress
  exact {
    paused := h.paused
    unasked := h.unasked
    not_stepping := h.not_stepping
    transit := (Machine.transit_of_not_held (m := (r.occur (.press key)).machine) hheld).trans
      hpending
    deaf := congrArg Keypad.waiting hpress
    one_place := .inl hheld
    caught := fun _ => hheld }

omit [Display σ] in
/-- What leaves the places of the key and the loop alone, keeps the key back. -/
theorem KeepsBack.congr {r r' : Run σ} {key : UInt8} (h : r.KeepsBack key) (hresting : r'.Resting)
    (hwaiting : r'.machine.keypad.waiting = r.machine.keypad.waiting)
    (hpending : r'.machine.keypad.pending = r.machine.keypad.pending)
    (hheld : r'.machine.heldKey = r.machine.heldKey)
    (hphase : r'.phase = .blocked false → r.phase = .blocked false) : r'.KeepsBack key where
  toResting := hresting
  transit := by
    rw [Machine.transit, hpending, hheld]
    exact h.transit
  deaf := hwaiting.trans h.deaf
  one_place := by
    rw [hpending, hheld]
    exact h.one_place
  caught hblocked := hheld.trans (h.caught (hphase hblocked))

/-- Whatever happens under the pause, the program stands still and the key stays on its way. -/
theorem KeepsBack.occur {r : Run σ} {key : UInt8} (h : r.KeepsBack key) {e : Event}
    (he : e.keepsPause = true) :
    (r.occur e).KeepsBack key ∧ r.machine.StandsStill (r.occur e).machine := by
  have hresting := h.toResting.occur he
  cases e with
  | step | start panel => cases he
  | cancel | clearCancellation | panel action | tick | setDelay value | setSound value =>
      exact ⟨h.congr hresting rfl rfl rfl id, rfl⟩
  | press other =>
      have hpress : (r.occur (.press other)).machine.keypad = _ :=
        Keypad.press_of_not_waiting h.deaf other
      exact ⟨h.congr hresting (by rw [hpress]) (by rw [hpress]) rfl id, rfl⟩
  | release other =>
      have hrelease : (r.occur (.release other)).machine.keypad = _ :=
        Keypad.release_eq r.machine.keypad other
      exact ⟨h.congr hresting (by rw [hrelease]) (by rw [hrelease]) rfl id, rfl⟩
  | advance =>
      cases h.rested with
      | still hmachine hstays =>
          rw [Run.occur] at hresting ⊢
          rw [hmachine]
          refine ⟨h.congr hresting (by rw [hmachine]) (by rw [hmachine]) (by rw [hmachine]) ?_,
            rfl⟩
          rcases hstays with hsame | hended
          · rw [hsame]
            exact id
          · rw [hended]
            intro hblocked
            cases hblocked
      | heldBack other hphase hpending hadvance =>
          have hkey : some other = some key := by
            rw [← hpending, ← h.transit, Machine.transit_of_not_held (h.caught hphase)]
          have hmachine : (r.occur .advance).machine =
              {r.machine with keypad.pending := none, heldKey := some key} := by
            rw [Run.occur, hadvance, complete_machine, hkey]
          refine ⟨⟨hresting, ?_, ?_, ?_, ?_⟩, ?_⟩
          · rw [hmachine]
            rfl
          · rw [hmachine]
            exact h.deaf
          · rw [hmachine]
            exact .inr rfl
          · rw [Run.occur, hadvance, complete_phase]
            intro hblocked
            cases hblocked
          · rw [hmachine]
            rfl

theorem KeepsBack.occurAll {r : Run σ} {key : UInt8} (h : r.KeepsBack key) {events : List Event}
    (hevents : ∀ e ∈ events, e.keepsPause = true) :
    (r.occurAll events).KeepsBack key ∧ r.machine.StandsStill (r.occurAll events).machine := by
  induction events generalizing r with
  | nil => exact ⟨h, Machine.StandsStill.refl r.machine⟩
  | cons e rest ih =>
      obtain ⟨hnext, hstill⟩ := h.occur (hevents e List.mem_cons_self)
      obtain ⟨hlast, hrest⟩ := ih hnext fun e' he' => hevents e' (List.mem_cons_of_mem e he')
      exact ⟨hlast, hstill.trans hrest⟩

/-! The end of the pause, or a step under it, lets the key through. -/

theorem Proceeds.serves {r : Run σ} {x key : UInt8} (h : r.Proceeds)
    (hmode : r.machine.mode = .waitingForKey x) (hx : x.toNat < 16)
    (htransit : r.machine.transit = some key)
    (hplace : r.machine.heldKey = none ∨ r.machine.keypad.pending = none) :
    r.advance.machine = r.machine.served x key ∧ r.advance.phase = .ready := by
  have hfollows := h.follows
  rw [Machine.step_waiting_some hmode hx htransit, Machine.resumed_eq_served hplace] at hfollows
  exact hfollows

omit [Display σ] in
theorem begins_of_asked {r : Run σ} (hphase : r.phase = .ready)
    (hgoesOn : r.panel.stopped = false) (hasked : r.panel.stepRequested = true) :
    r.begins = true := by
  simp [begins, Panel.idles, hphase, hgoesOn, hasked]

/-- Once a step was made under a pause, the run rests again. -/
theorem advance_rests {r : Run σ} (hbegins : r.begins = true) (hpaused : r.panel.paused = true)
    (hround : r.advance.phase = .ready) : r.advance.advance = r.advance := by
  obtain ⟨hstops, hstays, hused⟩ :=
    Panel.unpublished_inj (advance_unpublished hbegins fun _ => hpaused)
  have hgoesOn : r.panel.stopped = false := by
    simp only [begins, Bool.and_eq_true, Bool.not_eq_true'] at hbegins
    exact hbegins.1.2
  refine advance_of_idles hround (hstops.trans hgoesOn) ?_
  rw [Panel.idles, hstays, hused]
  exact Bool.and_eq_true_iff.2 ⟨hpaused, rfl⟩

theorem KeepsBack.served_by_resume {r : Run σ} {x key : UInt8} (h : r.KeepsBack key)
    (hmode : r.machine.mode = .waitingForKey x) (hx : x.toNat < 16) (hover : r.isOver = false)
    (hgoesOn : r.panel.stopped = false) :
    (r.occurAll [.panel .resume, .advance]).machine = r.machine.served x key := by
  have hproceeds : (r.occur (.panel .resume)).Proceeds := by
    cases hphase : r.phase with
    | ended | crashed cause => simp [isOver, hphase] at hover
    | ready =>
        have hready : (r.occur (.panel .resume)).phase = .ready := hphase
        have hstops : (r.occur (.panel .resume)).panel.stopped = false := hgoesOn
        refine .inl ?_
        rw [begins, hready, hstops]
        rfl
    | blocked stepping =>
        cases stepping with
        | true => exact absurd hphase h.not_stepping
        | false =>
            refine .inr ⟨false, ⟨hphase, ?_, h.caught hphase⟩, rfl⟩
            intro hrunning
            have hmodes := hmode.symm.trans hrunning
            cases hmodes
  exact (hproceeds.serves hmode hx h.transit h.one_place).1

/-- The next iteration of a paused run makes the step that is asked for. Inside a wait it first
takes the loop out of there, with the key held back, and the one after makes the step. -/
theorem served_by_asked {r : Run σ} {x key : UInt8} (hpaused : r.panel.paused = true)
    (hasked : r.panel.stepRequested = true) (hgoesOn : r.panel.stopped = false)
    (hmode : r.machine.mode = .waitingForKey x) (hx : x.toNat < 16)
    (htransit : r.machine.transit = some key)
    (hplace : r.machine.heldKey = none ∨ r.machine.keypad.pending = none)
    (hphase : r.phase = .ready ∨ r.phase = .blocked false ∧ r.machine.heldKey = none) :
    r.advance.advance.machine = r.machine.served x key := by
  rcases hphase with hready | ⟨hblocked, hheld⟩
  · have hbegins := begins_of_asked hready hgoesOn hasked
    obtain ⟨hserved, hround⟩ := Proceeds.serves (.inl hbegins) hmode hx htransit hplace
    rw [advance_rests hbegins hpaused hround]
    exact hserved
  · have hpending : r.machine.keypad.pending = some key :=
      (Machine.transit_of_not_held hheld).symm.trans htransit
    let held : Run σ :=
      {r with machine := {r.machine with keypad.pending := none, heldKey := some key}}
    have hadvance : r.advance = held.complete := by
      rw [advance_of_blocked hblocked, takeFromKeypad_of_paused hpending hpaused]
    obtain ⟨hstill, -, hkept⟩ := Panel.unpublished_inj (complete_unpublished held)
    have hbegins : held.complete.begins = true :=
      begins_of_asked (complete_phase held) (hstill.trans hgoesOn) (hkept.trans hasked)
    have hwaits : held.complete.machine.mode = .waitingForKey x := by
      rw [complete_machine]
      exact hmode
    have hway : held.complete.machine.transit = some key := by
      rw [complete_machine]
      rfl
    have hempty : held.complete.machine.keypad.pending = none := by rw [complete_machine]
    obtain ⟨hserved, -⟩ := Proceeds.serves (.inl hbegins) hwaits hx hway (.inr hempty)
    rw [hadvance, hserved, complete_machine]
    rfl

theorem KeepsBack.served_by_step {r : Run σ} {x key : UInt8} (h : r.KeepsBack key)
    (hmode : r.machine.mode = .waitingForKey x) (hx : x.toNat < 16) (hover : r.isOver = false)
    (hgoesOn : r.panel.stopped = false) :
    (r.occurAll [.panel .stepOnce, .advance, .advance]).machine = r.machine.served x key := by
  have hasks : (r.occur (.panel .stepOnce)).panel = {r.panel with stepRequested := true} := by
    simp [Run.occur, act, Panel.perform, h.paused]
  refine served_by_asked (r := r.occur (.panel .stepOnce)) ?_ ?_ ?_ hmode hx h.transit
    h.one_place ?_
  · rw [hasks]
    exact h.paused
  · rw [hasks]
  · rw [hasks]
    exact hgoesOn
  · cases hphase : r.phase with
    | ended | crashed cause => simp [isOver, hphase] at hover
    | ready => exact .inl hphase
    | blocked stepping =>
        cases stepping with
        | true => exact absurd hphase h.not_stepping
        | false => exact .inr ⟨hphase, h.caught hphase⟩

/-- Inside a single step, the next iteration delivers the key, whatever the panel says. -/
theorem not_standsStill_of_stepping {r : Run σ} {x key : UInt8} (hphase : r.phase = .blocked true)
    (hmode : r.machine.mode = .waitingForKey x) (hx : x.toNat < 16)
    (hnone : r.machine.transit = none) (hcatches : r.machine.keypad.catches key = true) :
    ¬ r.machine.StandsStill (r.occurAll [.press key, .advance]).machine := by
  have hheld := (Option.or_eq_none_iff.1 hnone).1
  have hpress := Keypad.press_of_catches hcatches
  have hpending : (r.occur (.press key)).machine.keypad.pending = some key :=
    congrArg Keypad.pending hpress
  have htransit := (Machine.transit_of_not_held (m := (r.occur (.press key)).machine) hheld).trans
    hpending
  have hproceeds : (r.occur (.press key)).Proceeds := by
    refine .inr ⟨true, ⟨hphase, ?_, hheld⟩, rfl⟩
    exact fun hrunning => nomatch hmode.symm.trans hrunning
  obtain ⟨hserved, -⟩ := hproceeds.serves hmode hx htransit (.inl hheld)
  intro hstill
  have hrunning : (r.occurAll [.press key, .advance]).machine.mode = .running := by
    rw [show (r.occurAll [.press key, .advance]).machine = _ from hserved]
    rfl
  exact nomatch hrunning.symm.trans (hstill.mode_eq.trans hmode)

/-- A key that comes to a wait while the run is paused, with no step asked for since, is held back:
the program stands still until the run is resumed or a step is asked for, and the key is not lost.
The only exception is a loop that is still inside a single step of an earlier pause. -/
theorem key_held_under_pause (m : Machine σ) (before since : List Event) (x key : UInt8)
    (hbefore : ∀ panel, .start panel ∉ before) (hsince : ∀ e ∈ since, e.keepsPause = true) :
    let r := (start m .initial).occurAll before
    let s := (r.occur (.panel .pause)).occurAll since
    r.panel.paused = false → s.machine.mode = .waitingForKey x → s.machine.transit = none →
    s.machine.keypad.catches key = true →
      (s.phase ≠ .blocked true → ∀ later : List Event, (∀ e ∈ later, e.keepsPause = true) →
        let t := (s.occur (.press key)).occurAll later
        s.machine.StandsStill t.machine ∧ t.machine.transit = some key ∧
        (x.toNat < 16 → t.isOver = false → t.panel.stopped = false →
          (t.occurAll [.panel .resume, .advance]).machine = t.machine.served x key ∧
          (t.occurAll [.panel .stepOnce, .advance, .advance]).machine =
            t.machine.served x key)) ∧
      (s.phase = .blocked true → x.toNat < 16 →
        ¬ s.machine.StandsStill (s.occurAll [.press key, .advance]).machine) := by
  intro r s hgoes hmode hnone hcatches
  have hunasked := Panel.unasked (occurAll_requested (r := start m .initial) nofun hbefore) hgoes
  have hpaused : (r.occur (.panel .pause)).Quiet := ⟨rfl, hunasked⟩
  have hquiet : s.Quiet := hpaused.occurAll hsince
  constructor
  · intro hfree later hlater t
    have hresting : s.Resting := ⟨hquiet, hfree⟩
    have hkept : (s.occur (.press key)).KeepsBack key := hresting.press hnone hcatches
    obtain ⟨hback, hstill⟩ := hkept.occurAll hlater
    have hpressed : s.machine.StandsStill (s.occur (.press key)).machine := rfl
    have hstands := hpressed.trans hstill
    have hwaits := hstands.mode_eq.trans hmode
    refine ⟨hstands, hback.transit, fun hx hover hgoesOn => ⟨?_, ?_⟩⟩
    · exact hback.served_by_resume hwaits hx hover hgoesOn
    · exact hback.served_by_step hwaits hx hover hgoesOn
  · intro hphase hx
    exact not_standsStill_of_stepping hphase hmode hx hnone hcatches

/-- The loop is inside a wait when the run is paused and a key comes. Releases, other keys, another
pause and a cancellation make no difference, and the key goes into the last register when a step
is asked for. -/
theorem key_held_until_step :
    let r := (start (loaded [0xFF, 0x0A]).machine .initial).occurAll [.advance, .advance]
    let s := (r.occur (.panel .pause)).occurAll [.advance, .tick, .press 0x1F]
    let t := (s.occur (.press 4)).occurAll
      [.release 4, .press 7, .cancel, .advance, .panel .pause, .press 4, .advance]
    r.phase = .blocked false ∧ s.machine.StandsStill t.machine ∧
      (t.occurAll [.panel .stepOnce, .advance, .advance]).machine.registers.v[15] = 4 := by
  intro r s t
  have hheld := (key_held_under_pause (loaded [0xFF, 0x0A]).machine [.advance, .advance]
    [.advance, .tick, .press 0x1F] 15 4 (by simp) (by decide) (by decide +kernel)
    (by decide +kernel) (by decide +kernel) (by decide +kernel)).1
  obtain ⟨hstands, -, hserves⟩ := hheld (by decide +kernel)
    [.release 4, .press 7, .cancel, .advance, .panel .pause, .press 4, .advance] (by decide)
  obtain ⟨-, hstep⟩ := hserves (by decide) (by decide +kernel) (by decide +kernel)
  refine ⟨by decide +kernel, hstands, ?_⟩
  rw [hstep]
  decide +kernel

/-- The exception: the wait was taken up by a single step, and the run was resumed and paused again
meanwhile. The key that comes then goes through at once, though nobody resumed the run or asked
for a step since it was paused. -/
theorem key_not_held_in_single_step :
    let r := (start (loaded [0xF3, 0x0A]).machine .initial).occurAll
      [.advance, .panel .pause, .panel .stepOnce, .advance, .panel .resume]
    let s := r.occur (.panel .pause)
    let t := (s.occur (.press 5)).occurAll [.advance]
    (r.panel.paused = false ∧ s.machine.mode = .waitingForKey 3 ∧ s.machine.transit = none ∧
      s.machine.keypad.catches 5 = true) ∧
    ¬ s.machine.StandsStill t.machine ∧ t.machine.mode = .running ∧
      t.machine.registers.get 3 = 5 ∧ t.machine.registers.pc = 0x202 := by
  intro r s t
  obtain ⟨hbefore, hmode, hafter⟩ : (r.panel.paused = false ∧
      s.machine.mode = .waitingForKey 3 ∧ s.machine.transit = none ∧
      s.machine.keypad.catches 5 = true) ∧ t.machine.mode = .running ∧
      t.machine.registers.get 3 = 5 ∧ t.machine.registers.pc = 0x202 := by decide +kernel
  refine ⟨hbefore, fun hstill => ?_, hmode, hafter⟩
  exact nomatch hmode.symm.trans (hstill.mode_eq.trans hbefore.2.1)

end Run

end Chip8
