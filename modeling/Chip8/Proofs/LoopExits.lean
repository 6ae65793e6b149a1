import Chip8.Proofs.KeyAgreement

/-!
When the loop is left. A step of the loop brings it round, or finds that it was told to stop, or
that the machine waits for a key and none is on its way. In the last case the loop is blocked,
and left when the keypad is cancelled; nothing else ends it.
-/

namespace Chip8

/-- The machine waits for a key and none is on its way. -/
def Machine.Starved {σ : Type} (m : Machine σ) : Prop :=
  m.mode ≠ .running ∧ m.transit = none

theorem Machine.step_starved {σ : Type} [Display σ] {m : Machine σ} :
    m.Starved ↔ step m = .ok .waiting m := by
  constructor
  · rintro ⟨hmode, htransit⟩
    cases hwaits : m.mode with
    | running => exact absurd hwaits hmode
    | waitingForKey x => exact step_waiting_none hwaits htransit
  · intro h
    exact (eq_of_step_waiting h).2

namespace Run

variable {σ : Type} [Display σ]

/-- The cycle in which the loop is blocked waits for a key, and none was held back. -/
def WaitsIn (r : Run σ) (stepping : Bool) : Prop :=
  r.phase = .blocked stepping ∧ r.machine.mode ≠ .running ∧ r.machine.heldKey = none

/-- Where the loop can stand between two steps: at its top, or in a wait for a key. -/
def Placed (r : Run σ) : Prop :=
  r.phase = .ready ∨ ∃ stepping, r.WaitsIn stepping

/-- The loop is at its top again, or has broken down. -/
def CameRound (r : Run σ) : Prop :=
  r.phase = .ready ∨ ∃ cause, r.phase = .crashed cause

omit [Display σ] in
theorem CameRound.phase_ne {r : Run σ} (h : r.CameRound) : r.phase ≠ .ended := by
  intro hended
  rcases h with hready | ⟨cause, hcrashed⟩
  · cases hready.symm.trans hended
  · cases hcrashed.symm.trans hended

omit [Display σ] in
theorem receive_cameRound (r : Run σ) (stepping : Bool) (key : UInt8) :
    (r.receive stepping key).CameRound := by
  unfold receive
  split
  · exact .inl (complete_phase _)
  · split
    · exact .inl (complete_phase _)
    · exact .inr ⟨_, rfl⟩

omit [Display σ] in
theorem takeFromKeypad_cameRound {r : Run σ} (h : r.machine.keypad.pending ≠ none)
    (stepping : Bool) : (r.takeFromKeypad stepping).CameRound := by
  obtain ⟨key, hkey⟩ := Option.ne_none_iff_exists'.1 h
  rw [takeFromKeypad_of_some hkey]
  exact receive_cameRound _ stepping key

/-- A cycle that is begun without a key that it wants blocks the loop, or leaves it when the
keypad is cancelled. -/
theorem begin_of_starved {r : Run σ} (h : r.machine.Starved) (stepping : Bool) :
    r.begin .silent stepping =
      {r with phase := if r.machine.keypad.cancelled then .ended else .blocked stepping} := by
  obtain ⟨hmode, htransit⟩ := h
  obtain ⟨hheld, hpending⟩ := Option.or_eq_none_iff.1 htransit
  unfold begin
  cases hwaits : r.machine.mode with
  | running => exact absurd hwaits hmode
  | waitingForKey x =>
      simp only [hheld]
      exact takeFromKeypad_of_none hpending stepping

theorem advance_of_starved {r : Run σ} (hbegins : r.begins = true) (hstarved : r.machine.Starved)
    (hcancelled : r.machine.keypad.cancelled = false) :
    r.advance.machine = r.machine ∧ r.advance.phase = .blocked r.panel.paused := by
  rw [advance_eq_begin hbegins]
  have hbegin := begin_of_starved
    (r := {r with panel := if r.panel.paused then r.panel.takeStep else r.panel})
    hstarved r.panel.paused
  rw [hbegin, hcancelled]
  exact ⟨rfl, rfl⟩

theorem begin_cameRound {r : Run σ} (h : ¬ r.machine.Starved) (stepping : Bool) :
    (r.begin .silent stepping).CameRound := by
  unfold begin
  cases hmode : r.machine.mode with
  | running =>
      have hfollows := cycle_follows hmode
      rw [Machine.step_running hmode] at hfollows
      exact .inl hfollows.2
  | waitingForKey x =>
      cases hheld : r.machine.heldKey with
      | some key => exact receive_cameRound _ stepping key
      | none =>
          refine takeFromKeypad_cameRound (fun hpending => h ⟨?_, ?_⟩) stepping
          · rw [hmode]
            nofun
          · exact (Machine.transit_of_not_held hheld).trans hpending

/-- The next step of the loop begins a cycle, or looks again for the key it is blocked on. -/
def TakesUp (r : Run σ) : Prop :=
  r.begins = true ∨ ∃ stepping, r.phase = .blocked stepping

/-- The loop gives up: a cycle that it takes up wants a key of a cancelled keypad. -/
def GivesUp (r : Run σ) : Prop :=
  r.TakesUp ∧ r.machine.Starved ∧ r.machine.keypad.cancelled = true

/-- The loop is at its top and told to stop. -/
def Stops (r : Run σ) : Prop :=
  r.phase = .ready ∧ r.panel.stopped = true

inductive Moved (r : Run σ) : Prop
  | cameRound (hround : r.advance.CameRound) (hstops : ¬ r.Stops) (hgivesUp : ¬ r.GivesUp)
  | stopped (hstops : r.Stops) (hadvance : r.advance = {r with phase := .ended})
  | starved (stepping : Bool) (hstops : ¬ r.Stops) (htakes : r.TakesUp)
      (hstarved : r.machine.Starved) (hmachine : r.advance.machine = r.machine)
      (hphase : r.advance.phase =
        if r.machine.keypad.cancelled then .ended else .blocked stepping)

theorem moved_of_begins {r : Run σ} (h : r.begins = true) : r.Moved := by
  have hstops : ¬ r.Stops := by
    rintro ⟨-, hstopped⟩
    simp [begins, hstopped] at h
  obtain ⟨panel, stepping, hadvance, -⟩ := advance_of_begins h
  by_cases hstarved : r.machine.Starved
  · have hbegin := begin_of_starved (r := {r with panel}) hstarved stepping
    refine .starved stepping hstops (.inl h) hstarved ?_ ?_
    · rw [hadvance, hbegin]
    · rw [hadvance, hbegin]
  · have hround : r.advance.CameRound := by
      rw [hadvance]
      exact begin_cameRound (r := {r with panel}) hstarved stepping
    refine .cameRound hround hstops ?_
    rintro ⟨-, hstarves, -⟩
    exact hstarved hstarves

theorem moved_of_waitsIn {r : Run σ} {stepping : Bool} (h : r.WaitsIn stepping) : r.Moved := by
  obtain ⟨hphase, hmode, hheld⟩ := h
  have hstops : ¬ r.Stops := by
    rintro ⟨hready, -⟩
    simp [hphase] at hready
  have hadvance := advance_of_blocked hphase
  have htransit := Machine.transit_of_not_held hheld
  cases hpending : r.machine.keypad.pending with
  | none =>
      rw [takeFromKeypad_of_none hpending] at hadvance
      exact .starved stepping hstops (.inr ⟨stepping, hphase⟩)
        ⟨hmode, htransit.trans hpending⟩ (by rw [hadvance]) (by rw [hadvance])
  | some key =>
      have hround : r.advance.CameRound := by
        rw [hadvance]
        refine takeFromKeypad_cameRound ?_ stepping
        rw [hpending]
        exact Option.some_ne_none key
      refine .cameRound hround hstops ?_
      rintro ⟨-, ⟨-, hnone⟩, -⟩
      rw [htransit, hpending] at hnone
      cases hnone

/-- A step of the loop brings it round, leaves it because it was told to stop, or finds that the
machine is starved. -/
theorem Placed.moved {r : Run σ} (h : r.Placed) : r.Moved := by
  rcases h with hready | ⟨stepping, hwaits⟩
  · cases hbegins : r.begins with
    | true => exact moved_of_begins hbegins
    | false =>
        cases hstopped : r.panel.stopped with
        | true => exact .stopped ⟨hready, hstopped⟩ (advance_of_stopped hready hstopped)
        | false =>
            have hidles : r.panel.idles = true := by
              simpa [begins, hready, hstopped] using hbegins
            have hsame : r.advance = r := advance_of_idles hready hstopped hidles
            refine .cameRound (.inl (by rw [hsame, hready])) ?_ ?_
            · rintro ⟨_, hstop⟩
              rw [hstopped] at hstop
              cases hstop
            · rintro ⟨hbegin | ⟨stepping, hblocked⟩, _⟩
              · rw [hbegins] at hbegin
                cases hbegin
              · rw [hready] at hblocked
                cases hblocked
  · exact moved_of_waitsIn hwaits

/-- The loop is left when it is told to stop or gives up, and only then. -/
theorem Placed.ended_iff {r : Run σ} (h : r.Placed) :
    r.advance.phase = .ended ↔ r.Stops ∨ r.GivesUp := by
  constructor
  · intro hended
    cases h.moved with
    | cameRound hround _ _ => exact absurd hended hround.phase_ne
    | stopped hstops _ => exact .inl hstops
    | starved stepping _ htakes hstarved _ hphase =>
        cases hcancelled : r.machine.keypad.cancelled with
        | false => simp [hphase, hcancelled] at hended
        | true => exact .inr ⟨htakes, hstarved, hcancelled⟩
  · intro hcause
    cases h.moved with
    | cameRound _ hstops hgivesUp => exact absurd hcause (not_or.2 ⟨hstops, hgivesUp⟩)
    | stopped _ hadvance => rw [hadvance]
    | starved stepping hstops _ _ _ hphase =>
        obtain ⟨_, _, hcancelled⟩ := hcause.resolve_left hstops
        rw [hphase, hcancelled]
        rfl

/-- What giving up leaves: the same machine, with its wait still armed where the machine agrees
with its keypad. -/
theorem GivesUp.machine_eq {r : Run σ} (h : r.GivesUp) (hplaced : r.Placed) :
    r.advance.machine = r.machine ∧ (r.machine.KeysAgree → r.machine.keypad.waiting = true) := by
  constructor
  · cases hplaced.moved with
    | cameRound _ _ hgivesUp => exact absurd h hgivesUp
    | stopped _ hadvance => rw [hadvance]
    | starved _ _ _ _ hmachine _ => exact hmachine
  · intro hagree
    obtain ⟨_, ⟨hmode, htransit⟩, _⟩ := h
    cases hwaits : r.machine.mode with
    | running => exact absurd hwaits hmode
    | waitingForKey x => exact ((hagree.awaits x hwaits).transit_none htransit).1

/-- Nothing but a cycle made by hand takes the loop away from where it can stand. -/
theorem Placed.occur {r : Run σ} (h : r.Placed) {e : Event} (he : e ≠ .step)
    (hover : (r.occur e).isOver = false) : (r.occur e).Placed := by
  cases e with
  | step => exact absurd rfl he
  | start panel => exact .inl rfl
  | press key | release key | cancel | clearCancellation | panel action | tick | setDelay value
  | setSound value => exact h
  | advance =>
      cases h.moved with
      | cameRound hround _ _ =>
          rcases hround with hready | ⟨cause, hcrashed⟩
          · exact .inl hready
          · simp [Run.occur, isOver, hcrashed] at hover
      | stopped _ hadvance => simp [Run.occur, isOver, hadvance] at hover
      | starved stepping _ _ hstarved hmachine hphase =>
          cases hcancelled : r.machine.keypad.cancelled with
          | true => simp [Run.occur, isOver, hphase, hcancelled] at hover
          | false =>
              obtain ⟨hmode, htransit⟩ := hstarved
              refine .inr ⟨stepping, ?_, ?_, ?_⟩
              · simp [Run.occur, hphase, hcancelled]
              · rwa [Run.occur, hmachine]
              · rw [Run.occur, hmachine]
                exact (Option.or_eq_none_iff.1 htransit).1

/-- How the loop is left. Being told to stop it does nothing more. When it gives up, the machine
is as it was, and its wait still armed. -/
structure LeavesOnCause (r : Run σ) : Prop where
  ended_iff : r.advance.phase = .ended ↔ r.Stops ∨ r.GivesUp
  stops : r.Stops → r.advance = {r with phase := .ended}
  givesUp : r.GivesUp → r.advance.machine = r.machine ∧
    (r.machine.KeysAgree → r.machine.keypad.waiting = true)

theorem Placed.leavesOnCause {r : Run σ} (h : r.Placed) : r.LeavesOnCause where
  ended_iff := h.ended_iff
  stops hstops := by
    obtain ⟨hphase, hstopped⟩ := hstops
    exact advance_of_stopped hphase hstopped
  givesUp hgivesUp := hgivesUp.machine_eq h

end Run

end Chip8
