import Chip8.Proofs.LoopExits
import Chip8.Run.Narration

/-!
Single steps. The iterations of a paused run make no more cycles than were asked for while it was
paused. The cycles are counted by what the loop has to say: each one says that an instruction is
fetched or that a key is delivered. An iteration that waits for a key is one step all the same, so
while it does only the panel is acted on here.
-/

namespace Chip8

def Notice.marksCycle : Notice → Bool
  | .fetched .. | .deliveredKey .. => true
  | _ => false

namespace Run

variable {σ : Type} [Display σ]

/-- The cycles that the loop makes by an event. -/
def cyclesMade (r : Run σ) : Event → Nat
  | .advance => (r.advanceNotices .silent).countP Notice.marksCycle
  | _ => 0

def cyclesIn (r : Run σ) : List Event → Nat
  | [] => 0
  | e :: rest => r.cyclesMade e + (r.occur e).cyclesIn rest

/-- Whether an event keeps the iterations of one run whole. The loop and its panel always do;
keys and ticks have to come between two iterations. -/
def leavesWhole (r : Run σ) : Event → Bool
  | .advance | .panel _ => true
  | .step | .start _ => false
  | _ => match r.phase with
    | .blocked _ => false
    | _ => true

def whole (r : Run σ) : List Event → Bool
  | [] => true
  | e :: rest => r.leavesWhole e && (r.occur e).whole rest

/-- Whether no iteration begins a cycle, so that none uses up a request. -/
def idlesThrough (r : Run σ) : List Event → Bool
  | [] => true
  | e :: rest => !(e == .advance && r.begins) && (r.occur e).idlesThrough rest

/-- What holds between the iterations of a run that keeps them whole. -/
structure Steady (r : Run σ) : Prop where
  requested : r.panel.stepRequested = true → r.panel.paused = true
  blocks : ∀ stepping, r.phase = .blocked stepping → r.machine.keypad.blocks = true

omit [Display σ] in
theorem instructionNotices_unmarked (m : Machine σ) (i : Instruction) :
    (m.instructionNotices i).countP Notice.marksCycle = 0 := by
  cases i with
  | ret | call address =>
      simp only [Machine.instructionNotices]
      split <;> rfl
  | _ => rfl

theorem advanceNotices_of_begins {r : Run σ} (h : r.begins = true) :
    r.advanceNotices .silent = r.beginNotices .silent r.panel.paused := by
  simp only [begins, Bool.and_eq_true, beq_iff_eq, Bool.not_eq_true'] at h
  obtain ⟨⟨hphase, hstopped⟩, hidles⟩ := h
  simp [advanceNotices, hphase, hstopped, hidles]

theorem cyclesMade_of_starved {r : Run σ} (h : r.begins = true) (hstarved : r.machine.Starved) :
    r.cyclesMade .advance = 0 := by
  obtain ⟨hmode, htransit⟩ := hstarved
  obtain ⟨hheld, hpending⟩ := Option.or_eq_none_iff.1 htransit
  unfold cyclesMade
  rw [advanceNotices_of_begins h]
  unfold beginNotices
  cases hwaits : r.machine.mode with
  | running => exact absurd hwaits hmode
  | waitingForKey x =>
      simp only [hheld, takeFromKeypadNotices, hpending]
      split <;> rfl

theorem cyclesMade_of_not_starved {r : Run σ} (h : r.begins = true)
    (hstarved : ¬ r.machine.Starved) : r.cyclesMade .advance = 1 := by
  have hreceive : ∀ x key, r.machine.mode = .waitingForKey x →
      (r.receiveNotices r.panel.paused key).countP Notice.marksCycle = 1 := by
    intro x key hwaits
    simp [receiveNotices, Machine.deliverNotices, hwaits, Notice.marksCycle]
  unfold cyclesMade
  rw [advanceNotices_of_begins h]
  unfold beginNotices
  cases hmode : r.machine.mode with
  | running =>
      have hunmarked := instructionNotices_unmarked r.machine (.decode r.machine.nextOpcode)
      have hsaid : r.cycleNotices .silent = r.machine.stepNotices := by
        simp [cycleNotices, Machine.step_running hmode, Watcher.silent, actionsNotices]
      have hfetched : r.machine.stepNotices = .fetched r.machine.registers.pc r.machine.nextOpcode
          :: r.machine.instructionNotices (.decode r.machine.nextOpcode) := by
        simp only [Machine.stepNotices, hmode]
      dsimp only
      rw [hsaid, hfetched, List.countP_cons_of_pos rfl, hunmarked]
  | waitingForKey x =>
      cases hheld : r.machine.heldKey with
      | some key => exact hreceive x key hmode
      | none =>
          have htransit := Machine.transit_of_not_held hheld
          cases hpending : r.machine.keypad.pending with
          | none =>
              refine absurd ⟨?_, htransit.trans hpending⟩ hstarved
              rw [hmode]
              nofun
          | some key =>
              simp only [takeFromKeypadNotices, Keypad.blocks, hpending]
              exact hreceive x key hmode

/-- An iteration that begins no cycle says nothing and does nothing, but may leave the loop. -/
theorem Steady.of_not_begins {r : Run σ} (h : r.Steady) (hbegins : r.begins = false) :
    r.cyclesMade .advance = 0 ∧ (r.advance = r ∨ r.advance = {r with phase := .ended}) := by
  unfold cyclesMade
  cases hphase : r.phase with
  | ended | crashed cause =>
      have hsame : r.advance = r := advance_of_isOver (by simp [isOver, hphase])
      refine ⟨?_, .inl hsame⟩
      simp only [advanceNotices, hphase]
      rfl
  | blocked stepping =>
      have hblocks := h.blocks stepping hphase
      refine ⟨?_, .inl (advance_of_blocks hphase hblocks)⟩
      simp only [advanceNotices, hphase, takeFromKeypadNotices, hblocks, if_true]
      rfl
  | ready =>
      refine ⟨?_, advance_of_not_begins hphase hbegins⟩
      have hquiet : (r.panel.stopped || r.panel.idles) = true := by
        simpa [begins, hphase, ← Bool.not_or] using hbegins
      simp only [advanceNotices, hphase, hquiet, if_true]
      rfl

theorem Steady.advance {r : Run σ} (h : r.Steady) : r.advance.Steady := by
  cases hbegins : r.begins with
  | false =>
      obtain ⟨-, hsame | hended⟩ := h.of_not_begins hbegins
      · rw [hsame]
        exact h
      · rw [hended]
        exact ⟨h.requested, nofun⟩
  | true =>
      obtain ⟨-, -, hused⟩ :=
        Panel.unpublished_inj (advance_unpublished hbegins h.requested)
      refine ⟨fun hasked => ?_, fun stepping hphase => ?_⟩
      · rw [hused] at hasked
        cases hasked
      · cases moved_of_begins hbegins with
        | cameRound hround _ _ =>
            rcases hround with hready | ⟨cause, hcrashed⟩
            · cases hready.symm.trans hphase
            · cases hcrashed.symm.trans hphase
        | stopped _ hended => simp [hended] at hphase
        | starved _ _ _ hstarved hmachine hplace =>
            obtain ⟨-, hpending⟩ := Option.or_eq_none_iff.1 hstarved.2
            rw [hmachine]
            cases hcancelled : r.machine.keypad.cancelled with
            | true => simp [hplace, hcancelled] at hphase
            | false => simp [Keypad.blocks, hpending, hcancelled]

theorem Steady.occur {r : Run σ} (h : r.Steady) {e : Event} (he : r.leavesWhole e = true) :
    (r.occur e).Steady := by
  cases e with
  | advance => exact h.advance
  | step | start panel => cases he
  | panel action =>
      refine ⟨?_, h.blocks⟩
      cases action with
      | pause => exact fun _ => rfl
      | resume => exact nofun
      | stop => exact h.requested
      | stepOnce =>
          simp only [Run.occur, act, Panel.perform]
          split
          · next hpaused => exact fun _ => hpaused
          · exact h.requested
  | press key | release key | cancel | clearCancellation | tick | setDelay value
  | setSound value =>
      refine ⟨h.requested, fun stepping hphase => ?_⟩
      have hblocked : r.phase = .blocked stepping := hphase
      simp [leavesWhole, hblocked] at he

theorem Steady.occurAll {r : Run σ} (h : r.Steady) {events : List Event}
    (hwhole : r.whole events = true) : (r.occurAll events).Steady := by
  induction events generalizing r with
  | nil => exact h
  | cons e rest ih =>
      obtain ⟨he, hrest⟩ := Bool.and_eq_true_iff.1 hwhole
      exact ih (h.occur he) hrest

/-- Under a pause a cycle is paid for by the request that it uses up. -/
theorem Steady.cyclesMade_le {r : Run σ} (h : r.Steady) (hpaused : r.panel.paused = true)
    {e : Event} (he : r.leavesWhole e = true) (hresume : e ≠ .panel .resume) :
    (r.occur e).panel.paused = true ∧
    r.cyclesMade e + (r.occur e).panel.stepRequested.toNat ≤
      r.panel.stepRequested.toNat + [e].count (.panel .stepOnce) := by
  cases e with
  | step | start panel => cases he
  | press key | release key | cancel | clearCancellation | tick | setDelay value
  | setSound value => exact ⟨hpaused, by simp [cyclesMade, Run.occur, act, onMachine]⟩
  | panel action =>
      cases action with
      | resume => exact absurd rfl hresume
      | pause => exact ⟨rfl, by simp [cyclesMade, Run.occur, act, Panel.perform]⟩
      | stop => exact ⟨hpaused, by simp [cyclesMade, Run.occur, act, Panel.perform]⟩
      | stepOnce =>
          have hasks : r.panel.perform .stepOnce = {r.panel with stepRequested := true} := by
            simp [Panel.perform, hpaused]
          simp only [Run.occur, act, hasks]
          refine ⟨hpaused, ?_⟩
          simp [cyclesMade]
  | advance =>
      cases hbegins : r.begins with
      | false =>
          obtain ⟨hnone, hsame | hended⟩ := h.of_not_begins hbegins
          · simp [Run.occur, hsame, hnone, hpaused]
          · simp [Run.occur, hended, hnone, hpaused]
      | true =>
          obtain ⟨-, hstays, hused⟩ :=
            Panel.unpublished_inj (advance_unpublished hbegins h.requested)
          have hasked : r.panel.stepRequested = true := by
            simp only [begins, Panel.idles, hpaused, Bool.true_and, Bool.not_not,
              Bool.and_eq_true] at hbegins
            exact hbegins.2
          have hone : r.cyclesMade .advance ≤ 1 := by
            by_cases hstarved : r.machine.Starved
            · rw [cyclesMade_of_starved hbegins hstarved]
              exact Nat.zero_le 1
            · exact Nat.le_of_eq (cyclesMade_of_not_starved hbegins hstarved)
          refine ⟨hstays.trans hpaused, ?_⟩
          simp only [Run.occur, hused, hasked]
          exact hone

theorem Steady.cyclesIn_le {r : Run σ} (h : r.Steady) (hpaused : r.panel.paused = true)
    {period : List Event} (hwhole : r.whole period = true)
    (hresume : .panel .resume ∉ period) :
    r.cyclesIn period ≤ r.panel.stepRequested.toNat + period.count (.panel .stepOnce) := by
  induction period generalizing r with
  | nil => exact Nat.zero_le _
  | cons e rest ih =>
      rw [List.mem_cons, not_or] at hresume
      obtain ⟨he, hrest⟩ := Bool.and_eq_true_iff.1 hwhole
      obtain ⟨hstays, hpaid⟩ := h.cyclesMade_le hpaused he (Ne.symm hresume.1)
      have hlater := ih (h.occur he) hstays hrest hresume.2
      change _ ≤ _ + ([e] ++ rest).count (.panel .stepOnce)
      rw [List.count_append]
      simp only [cyclesIn]
      omega

/-! A step that is asked for under a pause is made by the next iteration. -/

structure Asked (r : Run σ) : Prop where
  ready : r.phase = .ready
  goesOn : r.panel.stopped = false
  paused : r.panel.paused = true
  requested : r.panel.stepRequested = true

omit [Display σ] in
theorem Asked.begins {r : Run σ} (h : r.Asked) : r.begins = true := by
  simp [Run.begins, Panel.idles, h.ready, h.goesOn, h.paused, h.requested]

theorem Asked.occur {r : Run σ} (h : r.Asked) {e : Event} (he : r.leavesWhole e = true)
    (hadvance : e ≠ .advance) (hresume : e ≠ .panel .resume) (hstop : e ≠ .panel .stop) :
    (r.occur e).Asked := by
  obtain ⟨hready, hgoesOn, hpaused, hrequested⟩ := h
  cases e with
  | advance => exact absurd rfl hadvance
  | step | start panel => cases he
  | press key | release key | cancel | clearCancellation | tick | setDelay value
  | setSound value => exact ⟨hready, hgoesOn, hpaused, hrequested⟩
  | panel action =>
      cases action with
      | resume => exact absurd rfl hresume
      | stop => exact absurd rfl hstop
      | pause => exact ⟨hready, hgoesOn, rfl, hrequested⟩
      | stepOnce =>
          simp only [Run.occur, act, Panel.perform, hpaused, if_true]
          exact ⟨hready, hgoesOn, rfl, rfl⟩

theorem Asked.occurAll {r : Run σ} (h : r.Asked) {events : List Event}
    (hwhole : r.whole events = true) (hadvance : .advance ∉ events)
    (hresume : .panel .resume ∉ events) (hstop : .panel .stop ∉ events) :
    (r.occurAll events).Asked := by
  induction events generalizing r with
  | nil => exact h
  | cons e rest ih =>
      rw [List.mem_cons, not_or] at hadvance hresume hstop
      obtain ⟨he, hrest⟩ := Bool.and_eq_true_iff.1 hwhole
      have hnext := h.occur he (Ne.symm hadvance.1) (Ne.symm hresume.1) (Ne.symm hstop.1)
      exact ih hnext hrest hadvance.2 hresume.2 hstop.2

/-! A step that nobody took up does not outlast the pause it was asked for in. -/

def asking (r : Run σ) : Run σ :=
  {r with panel.stepRequested := true}

theorem asking_advance {r : Run σ} (h : r.Steady) (hbegins : r.asking.begins = false) :
    r.asking.advance = r.advance.asking := by
  cases hphase : r.phase with
  | ended | crashed cause =>
      have hsame : r.advance = r := advance_of_isOver (by simp [isOver, hphase])
      have hasking : r.asking.advance = r.asking :=
        advance_of_isOver (by simp [isOver, asking, hphase])
      rw [hsame, hasking]
  | blocked stepping =>
      have hblocks := h.blocks stepping hphase
      rw [advance_of_blocks hphase hblocks]
      exact advance_of_blocks (r := r.asking) hphase hblocks
  | ready =>
      have hstopped : r.panel.stopped = true := by
        simpa [begins, asking, hphase, Panel.idles] using hbegins
      simp [advance, advanceWith, asking, hphase, hstopped]

/-- Every event but an iteration that takes the request up keeps two runs apart by no more than
the request, and the end of the pause makes them equal. -/
theorem asking_dropped {r : Run σ} (h : r.Steady) {events : List Event}
    (hwhole : r.whole events = true) (hidles : r.asking.idlesThrough events = true) :
    r.asking.occurAll (events ++ [.panel .resume]) = r.occurAll (events ++ [.panel .resume]) := by
  induction events generalizing r with
  | nil => rfl
  | cons e rest ih =>
      obtain ⟨he, hwhole⟩ := Bool.and_eq_true_iff.1 hwhole
      obtain ⟨hidle, hidles⟩ := Bool.and_eq_true_iff.1 hidles
      have hoccur : r.asking.occur e = (r.occur e).asking ∨ r.asking.occur e = r.occur e := by
        cases e with
        | step | start panel => cases he
        | press key | release key | cancel | clearCancellation | tick | setDelay value
        | setSound value => exact .inl rfl
        | advance =>
            refine .inl (asking_advance h ?_)
            simpa using hidle
        | panel action =>
            cases action with
            | pause | stop => exact .inl rfl
            | resume => exact .inr rfl
            | stepOnce =>
                refine .inl ?_
                cases hpaused : r.panel.paused with
                | true | false => simp [Run.occur, act, Panel.perform, asking, hpaused]
      change (r.asking.occur e).occurAll (rest ++ [.panel .resume]) =
        (r.occur e).occurAll (rest ++ [.panel .resume])
      rcases hoccur with hasking | hsame
      · rw [hasking] at hidles ⊢
        exact ih (h.occur he) hwhole hidles
      · rw [hsame]

theorem stopped_occur {r : Run σ} (hstopped : r.panel.stopped = true) {e : Event}
    (he : r.leavesWhole e = true) : (r.occur e).panel.stopped = true := by
  cases e with
  | step | start panel => cases he
  | press key | release key | cancel | clearCancellation | tick | setDelay value
  | setSound value => exact hstopped
  | advance => exact (congrArg Prod.fst (advance_switches r)).trans hstopped
  | panel action =>
      cases action with
      | pause | resume => exact hstopped
      | stop => rfl
      | stepOnce =>
          simp only [Run.occur, act, Panel.perform]
          split <;> exact hstopped

theorem stopped_occurAll {r : Run σ} (hstopped : r.panel.stopped = true) {events : List Event}
    (hwhole : r.whole events = true) : (r.occurAll events).panel.stopped = true := by
  induction events generalizing r with
  | nil => exact hstopped
  | cons e rest ih =>
      obtain ⟨he, hrest⟩ := Bool.and_eq_true_iff.1 hwhole
      exact ih (stopped_occur hstopped he) hrest

/-- How a run goes on from where it stands, as long as its iterations stay whole. -/
structure StepsOnRequest (r : Run σ) : Prop where
  /-- An iteration makes one cycle, or none and leaves the machine as it was. -/
  atMostOne : r.cyclesMade .advance = 0 ∧ r.advance.machine = r.machine ∨
    r.cyclesMade .advance = 1 ∧ ¬ r.machine.Starved ∧
      r.advance.machine = Machine.afterwards Machine.step r.machine
  /-- A pause that begins now lets through no more cycles than are asked for until it ends. -/
  bounded : r.panel.paused = false → ∀ period,
    (r.occur (.panel .pause)).whole period = true → .panel .resume ∉ period →
      (r.occur (.panel .pause)).cyclesIn period ≤ period.count (.panel .stepOnce)
  /-- A step that is asked for now is made by the next iteration, just once, unless the machine
  starves; asking again before does not matter. -/
  served : r.phase = .ready → r.panel.paused = true → r.panel.stopped = false → ∀ between,
    (r.occur (.panel .stepOnce)).whole between = true → .advance ∉ between →
    .panel .resume ∉ between → .panel .stop ∉ between →
      let s := (r.occur (.panel .stepOnce)).occurAll between
      (¬ s.machine.Starved → s.cyclesMade .advance = 1) ∧
      (s.machine.Starved → s.cyclesMade .advance = 0) ∧
      s.advance.panel.paused = true ∧ s.advance.panel.stepRequested = false
  idle : r.panel.paused = true → r.panel.stepRequested = false →
    r.advance.machine = r.machine
  ignored : r.panel.paused = false → r.occur (.panel .stepOnce) = r
  /-- A step that is asked for now and not taken up makes no difference once the pause ends. -/
  dropped : ∀ events, r.whole events = true →
    (r.occur (.panel .stepOnce)).idlesThrough events = true →
      (r.occur (.panel .stepOnce)).occurAll (events ++ [.panel .resume]) =
        r.occurAll (events ++ [.panel .resume])
  stopped : r.panel.stopped = true → ∀ later, r.whole later = true →
    let s := r.occurAll later
    s.cyclesMade .advance = 0 ∧ s.advance.machine = s.machine ∧ s.advance.panel = s.panel

theorem Steady.quiet {r : Run σ} (h : r.Steady) (hbegins : r.begins = false) :
    r.cyclesMade .advance = 0 ∧ r.advance.machine = r.machine ∧ r.advance.panel = r.panel := by
  obtain ⟨hnone, hsame | hended⟩ := h.of_not_begins hbegins
  · rw [hsame]
    exact ⟨hnone, rfl, rfl⟩
  · rw [hended]
    exact ⟨hnone, rfl, rfl⟩

theorem Steady.stepsOnRequest {r : Run σ} (h : r.Steady) : r.StepsOnRequest where
  atMostOne := by
    cases hbegins : r.begins with
    | false =>
        obtain ⟨hnone, hmachine, -⟩ := h.quiet hbegins
        exact .inl ⟨hnone, hmachine⟩
    | true =>
        have hmachine := (advance_follows hbegins).machine_eq
        by_cases hstarved : r.machine.Starved
        · refine .inl ⟨cyclesMade_of_starved hbegins hstarved, ?_⟩
          rw [hmachine, Machine.afterwards, Machine.step_starved.1 hstarved]
        · exact .inr ⟨cyclesMade_of_not_starved hbegins hstarved, hstarved, hmachine⟩
  bounded := by
    intro hpaused period hwhole hresume
    have hunasked := Panel.unasked h.requested hpaused
    have hperiod := (h.occur (e := .panel .pause) rfl).cyclesIn_le rfl hwhole hresume
    simpa [Run.occur, act, Panel.perform, hunasked] using hperiod
  served := by
    intro hready hpaused hgoesOn between hwhole hadvance hresume hstop s
    have hasks : (r.occur (.panel .stepOnce)).Asked := by
      simp only [Run.occur, act, Panel.perform, hpaused, if_true]
      exact ⟨hready, hgoesOn, rfl, rfl⟩
    have hasked : s.Asked := hasks.occurAll hwhole hadvance hresume hstop
    have hsteady : s.Steady := (h.occur (e := .panel .stepOnce) rfl).occurAll hwhole
    obtain ⟨-, hstays, hused⟩ :=
      Panel.unpublished_inj (advance_unpublished hasked.begins hsteady.requested)
    exact ⟨cyclesMade_of_not_starved hasked.begins, cyclesMade_of_starved hasked.begins,
      hstays.trans hasked.paused, hused⟩
  idle := by
    intro hpaused hunasked
    have hbegins : r.begins = false := by simp [begins, Panel.idles, hpaused, hunasked]
    exact (h.quiet hbegins).2.1
  ignored := by
    intro hpaused
    simp [Run.occur, act, Panel.perform, hpaused]
  dropped := by
    intro events hwhole hidles
    cases hpaused : r.panel.paused with
    | false =>
        have hignored : r.occur (.panel .stepOnce) = r := by
          simp [Run.occur, act, Panel.perform, hpaused]
        rw [hignored]
    | true =>
        have hasking : r.occur (.panel .stepOnce) = r.asking := by
          simp [Run.occur, act, Panel.perform, hpaused, asking]
        rw [hasking] at hidles ⊢
        exact asking_dropped h hwhole hidles
  stopped := by
    intro hstopped later hwhole s
    have hstays : s.panel.stopped = true := stopped_occurAll hstopped hwhole
    have hbegins : s.begins = false := by simp [begins, hstays]
    exact (h.occurAll hwhole).quiet hbegins

/-- Wherever a run of any machine stands that nobody acted on but through its panel, and at the
keypad and the timers between two iterations: single steps never run more than was asked for. -/
theorem single_steps (m : Machine σ) (events : List Event)
    (hwhole : (start m .initial).whole events = true) :
    ((start m .initial).occurAll events).StepsOnRequest := by
  have hstart : (start m .initial).Steady := ⟨nofun, nofun⟩
  exact (hstart.occurAll hwhole).stepsOnRequest

/-- Three steps are asked for under a pause, two of them at once, and one before it: the pause
lets through two cycles. -/
theorem single_steps_two_of_three :
    let m := (loaded [0x60, 0x01, 0x70, 0x02, 0x70, 0x04]).machine
    let events : List Event := [.panel .stepOnce, .advance]
    let period : List Event := [.advance, .panel .stepOnce, .panel .stepOnce, .tick, .advance,
      .advance, .panel .pause, .panel .stepOnce, .advance, .advance]
    let r := ((start m .initial).occurAll events).occur (.panel .pause)
    r.cyclesIn period = 2 ∧ r.cyclesIn period ≤ period.count (.panel .stepOnce) := by
  intro m events period r
  have hsteps : ((start m .initial).occurAll events).StepsOnRequest := single_steps m events rfl
  refine ⟨by decide +kernel, ?_⟩
  exact hsteps.bounded (by decide +kernel) period (by decide +kernel) (by decide)

end Run

end Chip8
