import Chip8.Proofs.KeyAgreement
import Mathlib.Data.List.Induction

/-!
What becomes of a wait for a key. While it lasts the machine stands still: only the keypad, the
timers and the place of the key change. The key on its way is at every moment the first key that
was pressed, when it was up, since the wait began. Only a cycle can end the wait, and then it is
that key which goes into the register.
-/

namespace Chip8

namespace Machine

variable {σ : Type}

/-- Whether one machine is another but for what goes on beside a program that waits: the keypad,
the key that is held back and the timers. -/
def StandsStill (m m' : Machine σ) : Prop :=
  m' = {m with keypad := m'.keypad, heldKey := m'.heldKey, timers := m'.timers}

theorem StandsStill.refl (m : Machine σ) : m.StandsStill m := rfl

theorem StandsStill.trans {m m' m'' : Machine σ} (h : m.StandsStill m')
    (h' : m'.StandsStill m'') : m.StandsStill m'' := by
  unfold StandsStill at *
  rw [h', h]

theorem StandsStill.mode_eq {m m' : Machine σ} (h : m.StandsStill m') : m'.mode = m.mode := by
  rw [h]

theorem transit_press {m : Machine σ} {x : UInt8} (h : m.KeysAgree)
    (hmode : m.mode = .waitingForKey x) (key : UInt8) :
    (m.onKeypad fun k => k.press key).transit =
      m.transit.or (if key.toNat < 16 ∧ m.keypad.isDown key = false then some key else none) := by
  unfold transit onKeypad Keypad.press
  cases h.awaits x hmode with
  | listening hw hp hh =>
      by_cases hlt : key.toNat < 16
      · cases hdown : m.keypad.isDown key <;> simp [Keypad.catches, hlt, hw, hp, hh, hdown]
      · simp [hlt, hp, hh]
  | caught k _ hw hp hh =>
      by_cases hlt : key.toNat < 16
      · simp [Keypad.catches, hlt, hw, hp, hh]
      · simp [hlt, hp, hh]
  | held k _ hw hp hh => simp [hh]

theorem transit_release (m : Machine σ) (key : UInt8) :
    (m.onKeypad fun k => k.release key).transit = m.transit := by
  unfold transit onKeypad Keypad.release
  split <;> rfl

end Machine

namespace Run

variable {σ : Type} [Display σ]

/-- What an event does to a machine that waits for the register `x`. -/
inductive Waited (r : Run σ) (x : UInt8) (e : Event) : Prop
  | still (hstill : r.machine.StandsStill (r.occur e).machine)
      (htransit : (r.occur e).machine.transit = r.machine.transit.or (r.freshPress e))
  | served (key : UInt8) (hcycle : e.isCycle = true) (htransit : r.machine.transit = some key)
      (hserved : (r.occur e).machine = r.machine.served x key)

/-- A cycle of a machine that waits serves it with the key on its way, or changes nothing. -/
theorem waited_of_step {r : Run σ} {x : UInt8} {e : Event} {c : Machine.Cycle}
    (h : r.machine.KeysAgree) (hmode : r.machine.mode = .waitingForKey x)
    (hcycle : e.isCycle = true) (hpress : r.freshPress e = none)
    (hstep : Machine.step r.machine = .ok c (r.occur e).machine) : r.Waited x e := by
  cases htransit : r.machine.transit with
  | none =>
      rw [Machine.step_waiting_none hmode htransit] at hstep
      have hsame : (r.occur e).machine = r.machine := by
        injection hstep with _ hmachine
        exact hmachine.symm
      exact .still (by rw [hsame]; rfl) (by rw [hsame, hpress, Option.or_none])
  | some key =>
      rw [Machine.step_waiting_some hmode (h.register_lt x hmode) htransit,
        h.resumed_eq hmode htransit] at hstep
      injection hstep with _ hmachine
      exact .served key hcycle htransit hmachine.symm

/-- Whatever happens to a machine that waits, it stands still or is served. -/
theorem waited {r : Run σ} {x : UInt8} (h : r.machine.KeysAgree)
    (hmode : r.machine.mode = .waitingForKey x) (e : Event) : r.Waited x e := by
  cases e with
  | step =>
      obtain ⟨c, m, hstep, -⟩ := h.step
      refine waited_of_step (c := c) h hmode rfl rfl ?_
      simp only [occur, onMachine, Machine.afterwards, hstep]
  | advance =>
      cases advance_cases h with
      | still hmachine _ =>
          exact .still (by simp only [occur, hmachine]; rfl)
            (by simp only [occur, hmachine, freshPress, Option.or_none])
      | cycle c _ hstep _ => exact waited_of_step h hmode rfl rfl hstep
      | heldBack _ key _ hpending hmachine _ =>
          refine .still (by simp only [occur, hmachine]; rfl) ?_
          cases h.awaits x hmode with
          | listening _ hp _ | held _ _ _ hp _ => rw [hpending] at hp; cases hp
          | caught _ _ _ _ hh =>
              simp [occur, hmachine, Machine.transit, hh, hpending, freshPress]
  | press key => exact .still rfl (Machine.transit_press h hmode key)
  | release key =>
      exact .still rfl ((Machine.transit_release r.machine key).trans (Option.or_none).symm)
  | cancel | clearCancellation | panel action | tick | setDelay value | setSound value
  | start panel => exact .still rfl (Option.or_none).symm

/-- A machine begins to wait only by executing the instruction for it. -/
theorem executes_of_waiting {r : Run σ} {x : UInt8} {e : Event} (h : r.machine.KeysAgree)
    (hmode : r.machine.mode = .running) (hwaits : (r.occur e).machine.mode = .waitingForKey x) :
    r.executes e = some (.awaitKey x) := by
  have hstep {c : Machine.Cycle} (hstep : Machine.step r.machine = .ok c (r.occur e).machine) :
      r.machine.upcoming = some (.awaitKey x) := by
    rw [Machine.step_running hmode] at hstep
    injection hstep with _ hmachine
    by_cases hawait : ∃ y, Instruction.decode r.machine.nextOpcode = .awaitKey y
    · obtain ⟨y, hy⟩ := hawait
      rw [← hmachine, hy] at hwaits
      cases hwaits
      simp only [Machine.upcoming, hmode, hy]
    · rw [← hmachine, Machine.executed_mode _ _ fun y hy => hawait ⟨y, hy⟩] at hwaits
      exact absurd (hmode.symm.trans hwaits) nofun
  cases e with
  | step =>
      obtain ⟨c, m, hok, -⟩ := h.step
      apply hstep (c := c)
      simp only [occur, onMachine, Machine.afterwards, hok]
  | advance =>
      cases advance_cases h with
      | still hmachine _ =>
          rw [occur, hmachine, hmode] at hwaits
          cases hwaits
      | cycle c hbegins hok _ =>
          rw [executes, if_pos (hbegins.resolve_right fun hne => hne hmode)]
          exact hstep hok
      | heldBack y _ hwaiting _ _ _ =>
          rw [hmode] at hwaiting
          cases hwaiting
  | press key | release key | cancel | clearCancellation | panel action | tick | setDelay value
  | setSound value | start panel =>
      exact absurd (hmode.symm.trans hwaits) nofun

theorem occur_of_executes {r : Run σ} {e : Event} {i : Instruction}
    (h : r.executes e = some i) :
    r.machine.mode = .running ∧ (r.occur e).machine = r.machine.fetched.executed i := by
  have hupcoming : r.machine.upcoming = some i ∧
      (r.occur e).machine = Machine.afterwards Machine.step r.machine := by
    cases e with
    | step => exact ⟨h, rfl⟩
    | advance =>
        rw [executes, ite_eq_iff] at h
        rcases h with ⟨hbegins, hupcoming⟩ | ⟨_, hnone⟩
        · exact ⟨hupcoming, (advance_follows hbegins).machine_eq⟩
        · cases hnone
    | press key | release key | cancel | clearCancellation | panel action | tick | setDelay value
    | setSound value | start panel => cases h
  obtain ⟨hupcoming, hmachine⟩ := hupcoming
  cases hmode : r.machine.mode with
  | waitingForKey x => simp [Machine.upcoming, hmode] at hupcoming
  | running =>
      simp only [Machine.upcoming, hmode, Option.some.injEq] at hupcoming
      rw [hmachine, Machine.afterwards, Machine.step_running hmode, hupcoming]
      exact ⟨rfl, rfl⟩

theorem Sound.occurAll {r : Run σ} (h : r.Sound) (events : List Event) :
    (r.occurAll events).Sound := by
  induction events generalizing r with
  | nil => exact h
  | cons e rest ih => exact ih (h.occur e)

def StandsStillThrough (w : Run σ) (events : List Event) : Prop :=
  ∀ part, part <+: events → w.machine.StandsStill (w.occurAll part).machine

/-- A wait for the register `x` is over with a cycle that comes behind some events: the machine
stood still up to there, and the cycle served it with the first key that was pressed, when it
was up, since the wait began. -/
structure ServedAfter (w : Run σ) (x : UInt8) (events : List Event) (cycle : Event)
    (key : UInt8) : Prop where
  still : w.StandsStillThrough events
  isCycle : cycle.isCycle = true
  first : (w.freshPresses events).head? = some key
  served : (w.occurAll (events ++ [cycle])).machine =
    (w.occurAll events).machine.served x key

def EndsWait (r : Run σ) (e : Event) : Prop :=
  r.machine.mode ≠ .running ∧ (r.occur e).machine.mode = .running

/-- Among some events the instruction that waits for a key is executed. -/
def Awaits (r : Run σ) (events : List Event) : Prop :=
  ∃ before e after x, events = before ++ e :: after ∧
    (r.occurAll before).executes e = some (.awaitKey x)

/-- How a wait for the register `x`, which has just begun, stands after some events. -/
inductive WaitResult (w : Run σ) (x : UInt8) (events : List Event) : Prop
  /-- It goes on, and once a key was pressed the next cycle ends it. -/
  | lasting (hstill : w.StandsStillThrough events)
      (hnext : ∀ key, (w.freshPresses events).head? = some key →
        w.ServedAfter x events .step key)
  /-- It is over, and no other wait ends before it has begun. -/
  | ended (before : List Event) (cycle : Event) (after : List Event) (key : UInt8)
      (hevents : events = before ++ cycle :: after) (hserved : w.ServedAfter x before cycle key)
      (honce : ∀ part e rest, after = part ++ e :: rest →
        ((w.occurAll (before ++ [cycle])).occurAll part).EndsWait e →
        (w.occurAll (before ++ [cycle])).Awaits part)

theorem StandsStillThrough.concat {w : Run σ} {events : List Event} {e : Event}
    (h : w.StandsStillThrough events)
    (hlast : w.machine.StandsStill (w.occurAll (events ++ [e])).machine) :
    w.StandsStillThrough (events ++ [e]) := by
  intro part hpart
  rcases List.prefix_concat_iff.1 hpart with rfl | hbefore
  · exact hlast
  · exact h part hbefore

/-- The induction behind every wait, over the events since it began: as long as it lasts, the key
on its way is the first one that was pressed, and when it is over it was served with that. -/
theorem lasting_or_served {w : Run σ} {x : UInt8} (hsound : w.Sound)
    (hmode : w.machine.mode = .waitingForKey x) (hnone : w.machine.transit = none)
    (events : List Event) :
    (w.StandsStillThrough events ∧
      (w.occurAll events).machine.transit = (w.freshPresses events).head?) ∨
    ∃ before cycle after key, events = before ++ cycle :: after ∧
      w.ServedAfter x before cycle key := by
  induction events using List.reverseRecOn with
  | nil =>
      refine .inl ⟨fun part hpart => ?_, hnone⟩
      rw [List.prefix_nil.1 hpart]
      exact Machine.StandsStill.refl _
  | append_singleton events e ih =>
      rcases ih with ⟨hstill, htransit⟩ | ⟨before, cycle, after, key, rfl, hserved⟩
      · have hnow := hstill events (List.prefix_refl events)
        have hwaits := hnow.mode_eq.trans hmode
        cases waited (hsound.occurAll events).keysAgree hwaits e with
        | still hkeeps hpress =>
            refine .inl ⟨hstill.concat ?_, ?_⟩
            · rw [occurAll_concat]
              exact hnow.trans hkeeps
            · rw [occurAll_concat, hpress, freshPresses_concat, List.head?_append, htransit,
                Option.head?_toList]
        | served key hcycle hkey hserved =>
            refine .inr ⟨events, e, [], key, rfl, hstill, hcycle, htransit.symm.trans hkey, ?_⟩
            rw [occurAll_concat]
            exact hserved
      · exact .inr ⟨before, cycle, after ++ [e], key, by simp, hserved⟩

theorem awaits_of_waiting {r : Run σ} (hsound : r.Sound) (hmode : r.machine.mode = .running)
    {events : List Event} (hwaits : (r.occurAll events).machine.mode ≠ .running) :
    r.Awaits events := by
  induction events generalizing r with
  | nil => exact absurd hmode hwaits
  | cons e rest ih =>
      cases hnext : (r.occur e).machine.mode with
      | waitingForKey x =>
          exact ⟨[], e, rest, x, rfl, executes_of_waiting hsound.keysAgree hmode hnext⟩
      | running =>
          obtain ⟨before, e', after, x, rfl, hexecutes⟩ := ih (hsound.occur e) hnext hwaits
          exact ⟨e :: before, e', after, x, rfl, hexecutes⟩

/-- A wait for a key is served exactly once, and with the right key: whatever happens after the
instruction that waits was executed, the machine stands still until a cycle delivers the first
key that was pressed, when it was up, since then. -/
theorem awaitKey_served_by_first_press {r : Run σ} (hr : r.Reachable) {e : Event} {x : UInt8}
    (he : r.executes e = some (.awaitKey x)) (events : List Event) :
    x.toNat < 16 ∧ (r.occur e).machine = Machine.beginWait x r.machine.fetched ∧
      (r.occur e).WaitResult x events := by
  obtain ⟨hmode, hmachine⟩ := occur_of_executes he
  rw [Machine.executed_awaitKey] at hmachine
  have hsound := hr.sound.occur e
  have hwaits : (r.occur e).machine.mode = .waitingForKey x := by rw [hmachine]; rfl
  have hheld := (hr.sound.keysAgree.idle hmode).2.2
  have hnone : (r.occur e).machine.transit = none := by
    rw [hmachine, Machine.transit]
    exact (congrArg (Option.or · none) hheld)
  refine ⟨hsound.keysAgree.register_lt x hwaits, hmachine, ?_⟩
  rcases lasting_or_served hsound hwaits hnone events with
    ⟨hstill, htransit⟩ | ⟨before, cycle, after, key, hevents, hserved⟩
  · refine .lasting hstill fun key hkey => ⟨hstill, rfl, hkey, ?_⟩
    have hnow := (hstill events (List.prefix_refl events)).mode_eq.trans hwaits
    have hagree := (hsound.occurAll events).keysAgree
    have hway := htransit.trans hkey
    rw [occurAll_concat, occur, onMachine]
    simp only [Machine.afterwards,
      Machine.step_waiting_some hnow (hagree.register_lt x hnow) hway,
      hagree.resumed_eq hnow hway]
  · refine .ended before cycle after key hevents hserved fun part e' rest _ hends => ?_
    refine awaits_of_waiting (hsound.occurAll _) ?_ hends.1
    rw [hserved.served]
    rfl

/-- The loop executes the instruction, and then meets a key that the keypad does not have, a
release, a pause, two presses and a repeat: the first press is what the register gets. -/
theorem awaitKey_served_by_four :
    let r := loaded [0xF3, 0x0A]
    let events := [.press 0x1F, .release 4, .advance, .panel .pause, .press 4, .advance, .press 7,
      .press 4, .panel .resume, .advance, .advance]
    (r.occur .advance).WaitResult 3 events ∧
      ((r.occur .advance).occurAll events).machine.registers.v[3] = 4 := by
  intro r events
  have hexecutes : r.executes .advance = some (.awaitKey 3) := by decide +kernel
  refine ⟨?_, by decide +kernel⟩
  exact (awaitKey_served_by_first_press (loaded_reachable _) hexecutes events).2.2

end Run

end Chip8
