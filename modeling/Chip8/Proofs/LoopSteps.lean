import Chip8.Proofs.Histories

/-!
A step of the loop beside a cycle of the machine. A step that begins a cycle, and one that takes
up a cycle that waits for a key, come to what a cycle made by hand comes to, unless a key is held
back because the run was paused meanwhile.
-/

namespace Chip8.Run

variable {σ : Type}

/-- Whether a run stands where the outcome of a cycle takes it. After a cycle that found no key
the loop is blocked in it, or left. -/
def Follows (r : Run σ) : EStateM.Result Fault (Machine σ) Machine.Cycle → Prop
  | .ok .waiting m => r.machine = m ∧ (r.phase = .ended ∨ ∃ stepping, r.phase = .blocked stepping)
  | .ok (.executed _) m | .ok (.resumed _) m => r.machine = m ∧ r.phase = .ready
  | .error fault m => r.machine = m ∧ r.phase = .crashed (.fault fault)

theorem Follows.machine_eq {r : Run σ} {x : Machine.Exec σ Machine.Cycle} {m : Machine σ}
    (h : r.Follows (x m)) : r.machine = Machine.afterwards x m := by
  unfold Machine.afterwards
  split
  · next cycle m' heq =>
      rw [heq] at h
      cases cycle <;> exact h.1
  · next fault m' heq =>
      rw [heq] at h
      exact h.1

theorem Follows.ok {r : Run σ} {c : Machine.Cycle} {m : Machine σ} (h : r.Follows (.ok c m)) :
    r.machine = m ∧ ∀ cause, r.phase ≠ .crashed cause := by
  cases c with
  | waiting =>
      obtain ⟨hm, hended | ⟨stepping, hblocked⟩⟩ := h
      · exact ⟨hm, fun cause => by rw [hended]; nofun⟩
      · exact ⟨hm, fun cause => by rw [hblocked]; nofun⟩
  | executed i | resumed key => exact ⟨h.1, fun cause => by rw [h.2]; nofun⟩

theorem complete_machine (r : Run σ) : r.complete.machine = r.machine := by
  unfold complete
  dsimp only
  split <;> rfl

theorem complete_phase (r : Run σ) : r.complete.phase = .ready := by
  unfold complete
  dsimp only
  split <;> rfl

theorem complete_refreshes (r : Run σ) : r.complete.refreshes = r.refreshes := by
  unfold complete
  dsimp only
  split <;> rfl

/-- A key that is not held back is delivered as a cycle made by hand delivers it. -/
theorem receive_follows (r : Run σ) (stepping : Bool) (key : UInt8)
    (hgoes : (!stepping && r.panel.paused) = false) :
    (r.receive stepping key).Follows
      (match Machine.deliver key r.machine with
        | .ok _ m => .ok (.resumed key) m
        | .error fault m => .error fault m) := by
  unfold receive
  rw [hgoes]
  simp only [Bool.false_eq_true, if_false]
  cases Machine.deliver key r.machine with
  | ok _ m => exact ⟨complete_machine _, complete_phase _⟩
  | error fault m => exact ⟨rfl, rfl⟩

/-- Without a caught key the loop blocks, or is left when the keypad is cancelled. -/
theorem takeFromKeypad_of_none {r : Run σ} (hpending : r.machine.keypad.pending = none)
    (stepping : Bool) : r.takeFromKeypad stepping =
      {r with phase := if r.machine.keypad.cancelled then .ended else .blocked stepping} := by
  unfold takeFromKeypad
  simp only [Keypad.blocks, Keypad.take, hpending, Option.isNone_none, Bool.true_and]
  cases r.machine.keypad.cancelled <;> rfl

theorem takeFromKeypad_of_some {r : Run σ} {key : UInt8}
    (hpending : r.machine.keypad.pending = some key) (stepping : Bool) :
    r.takeFromKeypad stepping =
      receive {r with machine.keypad.pending := none} stepping key := by
  simp [takeFromKeypad, Keypad.blocks, Keypad.take, hpending]

theorem takeFromKeypad_of_paused {r : Run σ} {key : UInt8}
    (hpending : r.machine.keypad.pending = some key) (hpaused : r.panel.paused = true) :
    r.takeFromKeypad false = complete {r with
      machine := {r.machine with keypad.pending := none, heldKey := some key}} := by
  rw [takeFromKeypad_of_some hpending]
  simp [receive, hpaused]

/-- Without a key to hold back, the loop takes one from the keypad as a cycle does. -/
theorem takeFromKeypad_follows [Display σ] {r : Run σ} {x : UInt8} {stepping : Bool}
    (hmode : r.machine.mode = .waitingForKey x) (hheld : r.machine.heldKey = none)
    (hgoes : (!stepping && r.panel.paused) = false) :
    (r.takeFromKeypad stepping).Follows (Machine.step r.machine) := by
  have htransit := Machine.transit_of_not_held hheld
  cases hpending : r.machine.keypad.pending with
  | none =>
      rw [Machine.step_waiting_none hmode (htransit.trans hpending),
        takeFromKeypad_of_none hpending]
      cases r.machine.keypad.cancelled with
      | true => exact ⟨rfl, .inl rfl⟩
      | false => exact ⟨rfl, .inr ⟨stepping, rfl⟩⟩
  | some key =>
      have htaken : r.machine.withoutTransit = {r.machine with keypad.pending := none} := by
        simp only [Machine.withoutTransit, hheld]
      rw [Machine.step_waiting hmode (htransit.trans hpending), htaken,
        takeFromKeypad_of_some hpending]
      exact receive_follows {r with machine.keypad.pending := none} stepping key hgoes

theorem cycle_follows [Display σ] {r : Run σ} (hmode : r.machine.mode = .running) :
    (r.cycle .silent).Follows (Machine.step r.machine) := by
  unfold cycle
  rw [Machine.step_running hmode]
  dsimp only
  split <;> exact ⟨complete_machine _, complete_phase _⟩

theorem begin_of_running [Display σ] {r : Run σ} (watcher : Watcher) (stepping : Bool)
    (hmode : r.machine.mode = .running) : r.begin watcher stepping = r.cycle watcher := by
  simp only [begin, hmode]

theorem begin_of_held [Display σ] {r : Run σ} {x key : UInt8} (watcher : Watcher)
    (stepping : Bool) (hmode : r.machine.mode = .waitingForKey x)
    (hheld : r.machine.heldKey = some key) :
    r.begin watcher stepping = receive {r with machine.heldKey := none} stepping key := by
  simp only [begin, hmode, hheld]

theorem begin_of_not_held [Display σ] {r : Run σ} {x : UInt8} (watcher : Watcher)
    (stepping : Bool) (hmode : r.machine.mode = .waitingForKey x)
    (hheld : r.machine.heldKey = none) :
    r.begin watcher stepping = r.takeFromKeypad stepping := by
  simp only [begin, hmode, hheld]

/-- A cycle that the loop begins comes to what a cycle made by hand comes to: no key is held
back in it, because the panel says the same at its begin and at its end. -/
theorem begin_follows [Display σ] (r : Run σ) (stepping : Bool)
    (hgoes : (!stepping && r.panel.paused) = false) :
    (r.begin .silent stepping).Follows (Machine.step r.machine) := by
  unfold begin
  cases hmode : r.machine.mode with
  | running => exact cycle_follows hmode
  | waitingForKey x =>
      cases hheld : r.machine.heldKey with
      | none => exact takeFromKeypad_follows hmode hheld hgoes
      | some key =>
          have htransit := Machine.transit_of_held hheld
          have htaken : r.machine.withoutTransit = {r.machine with heldKey := none} := by
            simp only [Machine.withoutTransit, hheld]
          rw [Machine.step_waiting hmode htransit, htaken]
          exact receive_follows _ stepping key hgoes

/-- A step that begins a cycle does so under the panel as it was, or with the step it asked for
taken up. -/
theorem advanceWith_eq_begin [Display σ] {r : Run σ} (watcher : Watcher) (h : r.begins = true) :
    r.advanceWith watcher = begin watcher
      {r with panel := if r.panel.paused then r.panel.takeStep else r.panel} r.panel.paused := by
  obtain ⟨m, panel, phase, refreshes⟩ := r
  simp only [begins, Bool.and_eq_true, beq_iff_eq, Bool.not_eq_true'] at h
  obtain ⟨⟨rfl, hstopped⟩, hidles⟩ := h
  simp only [advanceWith, hstopped, hidles, Bool.false_eq_true, if_false]
  cases panel.paused <;> rfl

theorem advance_eq_begin [Display σ] {r : Run σ} (h : r.begins = true) :
    r.advance = begin .silent
      {r with panel := if r.panel.paused then r.panel.takeStep else r.panel} r.panel.paused :=
  advanceWith_eq_begin .silent h

theorem advance_of_begins [Display σ] {r : Run σ} (h : r.begins = true) :
    ∃ panel stepping, r.advance = begin .silent {r with panel} stepping ∧
      (!stepping && panel.paused) = false := by
  refine ⟨_, _, advance_eq_begin h, ?_⟩
  cases hpaused : r.panel.paused with
  | false => simp [hpaused]
  | true => rfl

theorem advance_follows [Display σ] {r : Run σ} (h : r.begins = true) :
    r.advance.Follows (Machine.step r.machine) := by
  obtain ⟨panel, stepping, hadvance, hgoes⟩ := advance_of_begins h
  rw [hadvance]
  exact begin_follows {r with panel} stepping hgoes

/-- At the top, a step that begins no cycle changes nothing, or leaves the loop. -/
theorem advanceWith_of_not_begins [Display σ] {r : Run σ} (watcher : Watcher)
    (hphase : r.phase = .ready) (h : r.begins = false) :
    r.advanceWith watcher = r ∨ r.advanceWith watcher = {r with phase := .ended} := by
  simp only [begins, hphase, beq_self_eq_true, Bool.true_and, Bool.and_eq_false_iff,
    Bool.not_eq_false'] at h
  unfold advanceWith
  rw [hphase]
  rcases h with hstopped | hidles
  · simp [hstopped]
  · cases r.panel.stopped <;> simp [hidles]

/-- What a step of the loop does: it begins a cycle, takes up one that waits for a key, leaves the
loop, or changes nothing. -/
inductive Stepped [Display σ] (watcher : Watcher) (r : Run σ) : Prop
  | begun (panel : Panel) (stepping : Bool) (hbegins : r.begins = true)
      (hstep : r.advanceWith watcher = begin watcher {r with panel} stepping)
  | takenUp (stepping : Bool) (hbegins : r.begins = false) (hphase : r.phase = .blocked stepping)
      (hstep : r.advanceWith watcher = r.takeFromKeypad stepping)
  | left (hbegins : r.begins = false) (hstep : r.advanceWith watcher = {r with phase := .ended})
  | still (hbegins : r.begins = false) (hstep : r.advanceWith watcher = r)

theorem stepped [Display σ] (watcher : Watcher) (r : Run σ) : r.Stepped watcher := by
  cases hbegins : r.begins with
  | true => exact .begun _ _ hbegins (advanceWith_eq_begin watcher hbegins)
  | false =>
      cases hphase : r.phase with
      | ready =>
          obtain hstill | hleft := advanceWith_of_not_begins watcher hphase hbegins
          · exact .still hbegins hstill
          · exact .left hbegins hleft
      | blocked stepping =>
          exact .takenUp stepping hbegins hphase (by simp only [advanceWith, hphase])
      | ended | crashed cause => exact .still hbegins (by simp only [advanceWith, hphase])

theorem advance_of_not_begins [Display σ] {r : Run σ} (hphase : r.phase = .ready)
    (h : r.begins = false) : r.advance = r ∨ r.advance = {r with phase := .ended} :=
  advanceWith_of_not_begins .silent hphase h

theorem advance_of_blocked [Display σ] {r : Run σ} {stepping : Bool}
    (hphase : r.phase = .blocked stepping) : r.advance = r.takeFromKeypad stepping := by
  simp only [advance, advanceWith, hphase]

theorem advance_of_blocks [Display σ] {r : Run σ} {stepping : Bool}
    (hphase : r.phase = .blocked stepping) (hblocks : r.machine.keypad.blocks = true) :
    r.advance = r := by
  rw [advance_of_blocked hphase]
  unfold takeFromKeypad
  rw [if_pos hblocks, ← hphase]

theorem advance_of_idles [Display σ] {r : Run σ} (hphase : r.phase = .ready)
    (hstopped : r.panel.stopped = false) (hidles : r.panel.idles = true) : r.advance = r := by
  simp [advance, advanceWith, hphase, hstopped, hidles]

theorem advance_of_stopped [Display σ] {r : Run σ} (hphase : r.phase = .ready)
    (hstopped : r.panel.stopped = true) : r.advance = {r with phase := .ended} := by
  simp [advance, advanceWith, hphase, hstopped]

theorem advance_of_isOver [Display σ] {r : Run σ} (h : r.isOver = true) : r.advance = r := by
  unfold advance advanceWith
  unfold isOver at h
  split <;> simp_all

/-! Of the panel the loop by itself moves only what was published, and the request for a step
when it takes it up. -/

def Panel.switches (p : Panel) : Bool × Bool :=
  (p.stopped, p.paused)

def Panel.unpublished (p : Panel) : Panel :=
  {p with published := none}

theorem Panel.unpublished_inj {p p' : Panel} (h : p.unpublished = p'.unpublished) :
    p.stopped = p'.stopped ∧ p.paused = p'.paused ∧ p.stepRequested = p'.stepRequested := by
  simpa [unpublished] using h

/-- What is done at the panel has nothing to do with what was published. -/
theorem Panel.perform_unpublished (p : Panel) (action : Panel.Action) :
    (p.perform action).unpublished = p.unpublished.perform action := by
  cases action with
  | pause | resume | stop => rfl
  | stepOnce => cases hpaused : p.paused <;> simp [perform, unpublished, hpaused]

theorem Panel.perform_published (p : Panel) (action : Panel.Action) :
    (p.perform action).published = p.published := by
  cases action with
  | pause | resume | stop => rfl
  | stepOnce => cases hpaused : p.paused <;> simp [perform, hpaused]

theorem Panel.switches_congr {p p' : Panel} (h : p.unpublished = p'.unpublished) :
    p.switches = p'.switches := by
  obtain ⟨hstopped, hpaused, -⟩ := unpublished_inj h
  rw [switches, switches, hstopped, hpaused]

theorem Panel.unasked {p : Panel} (hrequested : p.stepRequested = true → p.paused = true)
    (hpaused : p.paused = false) : p.stepRequested = false := by
  cases hasked : p.stepRequested with
  | false => rfl
  | true => exact (hrequested hasked).symm.trans hpaused

theorem complete_unpublished (r : Run σ) :
    r.complete.panel.unpublished = r.panel.unpublished := by
  unfold complete
  dsimp only
  split <;> rfl

theorem receive_unpublished (r : Run σ) (stepping : Bool) (key : UInt8) :
    (r.receive stepping key).panel.unpublished = r.panel.unpublished := by
  unfold receive
  split
  · exact complete_unpublished _
  · split
    · exact complete_unpublished _
    · rfl

theorem takeFromKeypad_unpublished (r : Run σ) (stepping : Bool) :
    (r.takeFromKeypad stepping).panel.unpublished = r.panel.unpublished := by
  unfold takeFromKeypad
  split
  · rfl
  · split
    · exact receive_unpublished _ stepping _
    · rfl

theorem begin_unpublished [Display σ] (r : Run σ) (stepping : Bool) :
    (r.begin .silent stepping).panel.unpublished = r.panel.unpublished := by
  unfold begin
  cases hmode : r.machine.mode with
  | waitingForKey x =>
      cases r.machine.heldKey with
      | some key => exact receive_unpublished _ stepping key
      | none => exact takeFromKeypad_unpublished r stepping
  | running =>
      dsimp only
      unfold cycle
      rw [Machine.step_running hmode]
      dsimp only
      split <;> exact complete_unpublished _

/-- A step that begins a cycle comes back with the request used up, if there was one. -/
theorem advance_unpublished [Display σ] {r : Run σ} (h : r.begins = true)
    (hrequested : r.panel.stepRequested = true → r.panel.paused = true) :
    r.advance.panel.unpublished = r.panel.takeStep.unpublished := by
  have hpanel : (if r.panel.paused then r.panel.takeStep else r.panel) = r.panel.takeStep := by
    split
    · rfl
    · next hpaused =>
        have hnone := Panel.unasked hrequested (eq_false_of_ne_true hpaused)
        simp only [Panel.takeStep, ← hnone]
  rw [advance_eq_begin h, hpanel]
  exact begin_unpublished _ _

theorem advance_switches [Display σ] (r : Run σ) :
    r.advance.panel.switches = r.panel.switches := by
  unfold advance advanceWith
  split
  · rfl
  · rfl
  · exact Panel.switches_congr (takeFromKeypad_unpublished r _)
  · split
    · rfl
    · split
      · rfl
      · split
        · have hbegin := begin_unpublished {r with panel := r.panel.takeStep} true
          exact (Panel.switches_congr hbegin).trans rfl
        · exact Panel.switches_congr (begin_unpublished r false)

theorem advance_requested [Display σ] {r : Run σ} (h : r.advance.panel.stepRequested = true) :
    r.panel.stepRequested = true := by
  unfold advance advanceWith at h
  split at h
  · exact h
  · exact h
  · obtain ⟨-, -, hrequest⟩ := Panel.unpublished_inj (takeFromKeypad_unpublished r _)
    exact hrequest.symm.trans h
  · split at h
    · exact h
    · split at h
      · exact h
      · split at h
        · obtain ⟨-, -, hrequest⟩ :=
            Panel.unpublished_inj (begin_unpublished {r with panel := r.panel.takeStep} true)
          cases hrequest.symm.trans h
        · obtain ⟨-, -, hrequest⟩ := Panel.unpublished_inj (begin_unpublished r false)
          exact hrequest.symm.trans h

end Chip8.Run
