import Chip8.Proofs.FramesShown
import Chip8.Run.Rest

/-!
What a run publishes. Whether it publishes, how long it pauses between two cycles and how often its
timers are meant to tick are settings that no machine ever looks at: runs that differ in them stay
the same in everything else. A run that publishes does so at the end of each iteration that it
completes, and only then, so what it published last shows the machine as that iteration left it.
-/

namespace Chip8

/-- Other settings in all that is no business of the program. -/
def Settings.tuned (s : Settings) (cycleDelay timerFrequency : Nat) (debug : Bool) : Settings :=
  {s with cycleDelay, timerFrequency, debug}

def Machine.tuned {σ : Type} (m : Machine σ) (cycleDelay timerFrequency : Nat) (debug : Bool) :
    Machine σ :=
  {m with settings := m.settings.tuned cycleDelay timerFrequency debug}

/-- Two machines, the second of which is the first one tuned. -/
def Likeness.tuned (σ : Type) [Display σ] (cycleDelay timerFrequency : Nat) (debug : Bool) :
    Likeness σ σ where
  display d e := e = d
  sound := Eq
  settings a b := b = a.tuned cycleDelay timerFrequency debug
  display_refresh frame h := by rw [h]
  sound_refl _ := rfl
  sound_countDown h := by rw [h]
  movesIndex_eq h := by rw [h, Settings.tuned]

theorem Machine.Like.eq_tuned {σ : Type} [Display σ] {cycleDelay timerFrequency : Nat}
    {debug : Bool} {m m' : Machine σ} (h : m.Like (.tuned σ cycleDelay timerFrequency debug) m') :
    m' = m.tuned cycleDelay timerFrequency debug := by
  have hsound : m.timers.sound = m'.timers.sound := h.sound
  have htimers : m.timers = m'.timers := by
    change Timers.mk m.timers.delay m.timers.sound = m'.timers
    rw [h.delay, hsound]
  have hsettings : m'.settings = m.settings.tuned cycleDelay timerFrequency debug := h.settings
  have hdisplay : m'.display = m.display := h.display
  simp only [tuned, h.memory, h.registers, h.stack, h.screen, htimers, h.keypad, h.random, h.mode,
    h.heldKey, h.lastOpcode, ← hsettings, ← hdisplay]

namespace Run

section

variable {σ : Type}

def tuned (r : Run σ) (cycleDelay timerFrequency : Nat) (debug : Bool) : Run σ :=
  r.onMachine fun m => m.tuned cycleDelay timerFrequency debug

/-- The run apart from what it published. -/
def unpublished (r : Run σ) : Run σ :=
  {r with panel := r.panel.unpublished}

/-- The key that the next step of the loop takes for the cycle it begins or is blocked in, if there
is one to take. -/
def incoming (r : Run σ) : Option UInt8 :=
  match r.phase with
  | .blocked _ => r.machine.keypad.pending
  | _ => if r.begins && r.machine.mode != .running then r.machine.transit else none

/-- Whether a request begins no new run. -/
def Request.goesOn : Request → Bool
  | .start _ => false
  | _ => true

end

variable {σ : Type} [Display σ]

/-! The settings that only concern the player. -/

theorem like_tuned (r : Run σ) (cycleDelay timerFrequency : Nat) (debug : Bool) :
    Like (.tuned σ cycleDelay timerFrequency debug) r
      (r.tuned cycleDelay timerFrequency debug) where
  machine := ⟨rfl, rfl, rfl, rfl, rfl, rfl, rfl, rfl, rfl, rfl, rfl, rfl, rfl⟩
  panel := rfl
  phase := rfl
  refreshes := rfl
  published _ := by
    unfold tuned onMachine
    cases r.panel.published with
    | none => exact .none
    | some o => exact .some ⟨rfl, rfl⟩

theorem Like.unpublished_tuned {r s : Run σ} {cycleDelay timerFrequency : Nat} {debug : Bool}
    (h : Like (.tuned σ cycleDelay timerFrequency debug) r s) :
    s.unpublished = (r.tuned cycleDelay timerFrequency debug).unpublished := by
  simp only [unpublished, tuned, onMachine, h.machine.eq_tuned, h.panel, h.phase, h.refreshes]

/-- A run that is tuned first comes to stand where the tuned run does, apart from what it
published. -/
theorem fulfilAll_tuned (r : Run σ) (cycleDelay timerFrequency : Nat) (debug : Bool)
    (requests : List Request) :
    ((r.tuned cycleDelay timerFrequency debug).fulfilAll requests).unpublished =
      ((r.fulfilAll requests).tuned cycleDelay timerFrequency debug).unpublished := by
  have hlike := r.like_tuned cycleDelay timerFrequency debug
  exact (hlike.fulfilAll requests).unpublished_tuned

omit [Display σ] in
theorem framesShown_tuned (r : Run σ) (cycleDelay timerFrequency : Nat) (debug : Bool)
    (requests : List Request) :
    (r.tuned cycleDelay timerFrequency debug).framesShown requests = r.framesShown requests := by
  have hlike := (r.withDisplay ([] : List Screen)).like_tuned cycleDelay timerFrequency debug
  have hframes := (hlike.fulfilAll requests).machine.display
  exact congrArg List.reverse hframes

/-- No request changes whether a run publishes: it goes on as if it were tuned to what it is. -/
theorem fulfil_debug (r : Run σ) (q : Request) :
    (r.fulfil q).machine.settings.debug = r.machine.settings.debug := by
  have hself : r.tuned r.machine.settings.cycleDelay r.machine.settings.timerFrequency
      r.machine.settings.debug = r := rfl
  have hlike := r.like_tuned r.machine.settings.cycleDelay r.machine.settings.timerFrequency
    r.machine.settings.debug
  rw [hself] at hlike
  have hsame := (hlike.fulfil q).machine.eq_tuned
  rw [hsame]
  rfl

/-! The end of an iteration. -/

/-- Whether the next step of the loop completes an iteration: it executes an instruction, or it
takes a key and delivers it or holds it back. With a key for a register that the machine does not
have it does neither, but breaks down. -/
def completes (r : Run σ) (meanwhile : List Action) : Bool :=
  (r.executes .advance).isSome ||
    r.incoming.isSome && (r.fulfil (.advance meanwhile)).phase == .ready

/-- What the machine shows at the end of each iteration that is completed. -/
def readings (r : Run σ) : List Request → List Readout
  | [] => []
  | .advance meanwhile :: rest =>
      let after := r.fulfil (.advance meanwhile)
      if r.completes meanwhile then after.machine.readout :: after.readings rest
      else after.readings rest
  | q :: rest => (r.fulfil q).readings rest

/-- Between two stands of a run something is published just if the second is at the top of the
loop, and then it is what the machine shows there. -/
def Reports (r r' : Run σ) : Prop :=
  r'.panel.published =
    if r.machine.settings.debug && r'.phase == .ready then some r'.machine.readout
    else r.panel.published

omit [Display σ] in
theorem complete_reports {r r' : Run σ}
    (hdebug : r'.machine.settings.debug = r.machine.settings.debug)
    (hpublished : r'.panel.published = r.panel.published) : r.Reports r'.complete := by
  unfold Reports
  rw [complete_machine, complete_phase, ← hdebug, ← hpublished]
  cases hpublishes : r'.machine.settings.debug with
  | true => simp [complete, Panel.publish, hpublishes]
  | false => simp [complete, hpublishes]

omit [Display σ] in
/-- A run that is not at the top of the loop and published nothing has nothing to report. -/
theorem reports_of_phase {r r' : Run σ} (hphase : (r'.phase == .ready) = false)
    (hpublished : r'.panel.published = r.panel.published) : r.Reports r' := by
  unfold Reports
  rw [hphase, Bool.and_false, hpublished]
  rfl

omit [Display σ] in
theorem receive_reports (r : Run σ) (stepping : Bool) (key : UInt8) :
    r.Reports (r.receive stepping key) := by
  unfold receive
  split
  · exact complete_reports rfl rfl
  · cases hmode : r.machine.mode with
    | running =>
        rw [Machine.deliver_of_running hmode]
        exact complete_reports rfl rfl
    | waitingForKey x =>
        by_cases hx : x.toNat < 16
        · rw [Machine.deliver_of_lt hmode hx]
          exact complete_reports rfl rfl
        · rw [Machine.deliver_of_le hmode hx]
          exact reports_of_phase rfl rfl

omit [Display σ] in
theorem takeFromKeypad_reports (r : Run σ) (stepping : Bool) :
    r.Reports (r.takeFromKeypad stepping) := by
  cases hpending : r.machine.keypad.pending with
  | none =>
      rw [takeFromKeypad_of_none hpending]
      cases r.machine.keypad.cancelled <;> exact reports_of_phase rfl rfl
  | some key =>
      rw [takeFromKeypad_of_some hpending]
      exact receive_reports {r with machine.keypad.pending := none} stepping key

omit [Display σ] in
theorem settings_unkeyed : Machine.Unkeyed fun m : Machine σ => m.settings :=
  ⟨fun _ _ => rfl, fun _ _ => rfl, fun _ _ _ => rfl⟩

omit [Display σ] in
theorem actAll_published (r : Run σ) (actions : List Action) :
    (r.actAll actions).panel.published = r.panel.published := by
  induction actions generalizing r with
  | nil => rfl
  | cons action rest ih =>
      have hrest := ih (r.act action)
      cases action with
      | panel action => exact hrest.trans (Panel.perform_published _ _)
      | keypad command => exact hrest

theorem cycle_reports {r : Run σ} (hmode : r.machine.mode = .running) (meanwhile : List Action) :
    r.Reports (r.cycle fun _ => .acts meanwhile) ∧
      (r.cycle fun _ => .acts meanwhile).phase = .ready := by
  have hsettings : (r.machine.fetched.executed (.decode r.machine.nextOpcode)).settings =
      r.machine.settings := by
    rw [Machine.executed_untouched]
    rfl
  have hdebug := congrArg Settings.debug hsettings
  unfold cycle
  rw [Machine.step_running hmode]
  dsimp only
  split
  · let shown := {r with
      machine := r.machine.fetched.executed (.decode r.machine.nextOpcode)
      refreshes := r.refreshes + 1}
    have hacted := congrArg Settings.debug (actAll_unkeyed settings_unkeyed shown meanwhile)
    exact ⟨complete_reports (hacted.trans hdebug) (actAll_published shown meanwhile),
      complete_phase _⟩
  · exact ⟨complete_reports hdebug rfl, complete_phase _⟩

theorem begin_reports (r : Run σ) (meanwhile : List Action) (stepping : Bool) :
    r.Reports (r.begin (fun _ => .acts meanwhile) stepping) := by
  unfold begin
  cases hmode : r.machine.mode with
  | running => exact (cycle_reports hmode meanwhile).1
  | waitingForKey x =>
      cases r.machine.heldKey with
      | some key => exact receive_reports {r with machine.heldKey := none} stepping key
      | none => exact takeFromKeypad_reports r stepping

/-- A step of a run that does not rest publishes something just if it comes back to the top. -/
theorem advance_reports {r : Run σ} (meanwhile : List Action) (hrests : r.resting = false) :
    r.Reports (r.fulfil (.advance meanwhile)) := by
  simp only [fulfil]
  cases hphase : r.phase with
  | ended | crashed cause => simp [resting, hphase] at hrests
  | blocked stepping =>
      simp only [advanceWith, hphase]
      exact takeFromKeypad_reports r stepping
  | ready =>
      cases hbegins : r.begins with
      | true =>
          rw [advanceWith_eq_begin _ hbegins]
          have hbegun := begin_reports {r with
            panel := if r.panel.paused then r.panel.takeStep else r.panel} meanwhile r.panel.paused
          have hpanel : (if r.panel.paused then r.panel.takeStep else r.panel).published =
              r.panel.published := by
            split <;> rfl
          unfold Reports at hbegun ⊢
          rw [hbegun]
          dsimp only
          rw [hpanel]
      | false =>
          have hstopped : r.panel.stopped = true := by
            simp only [resting, hphase] at hrests
            simp only [begins, hphase, beq_self_eq_true, Bool.true_and] at hbegins
            cases hstopped : r.panel.stopped with
            | true => rfl
            | false => simp_all
          simp only [advanceWith, hphase, hstopped, if_true]
          exact reports_of_phase rfl rfl

omit [Display σ] in
/-- A step that finds no key does not come back to the top of the loop. -/
theorem takeFromKeypad_phase_ne {r : Run σ} (hpending : r.machine.keypad.pending = none)
    (stepping : Bool) : (r.takeFromKeypad stepping).phase ≠ .ready := by
  rw [takeFromKeypad_of_none hpending]
  cases r.machine.keypad.cancelled <;> simp

theorem begin_of_upcoming {r : Run σ} (h : r.machine.upcoming.isSome = true)
    (meanwhile : List Action) (stepping : Bool) :
    (r.begin (fun _ => .acts meanwhile) stepping).phase = .ready := by
  unfold begin
  cases hmode : r.machine.mode with
  | running => exact (cycle_reports hmode meanwhile).2
  | waitingForKey x => simp [Machine.upcoming, hmode] at h

/-- A cycle that comes back to the top of the loop executed an instruction or took a key. -/
theorem begin_comesBack {r : Run σ} {meanwhile : List Action} {stepping : Bool}
    (h : (r.begin (fun _ => .acts meanwhile) stepping).phase = .ready) :
    r.machine.upcoming.isSome = true ∨
      r.machine.mode ≠ .running ∧ r.machine.transit.isSome = true := by
  unfold begin at h
  cases hmode : r.machine.mode with
  | running =>
      left
      simp only [Machine.upcoming, hmode, Option.isSome_some]
  | waitingForKey x =>
      right
      have hnotRunning : Mode.waitingForKey x ≠ .running := by
        intro hrunning
        cases hrunning
      refine ⟨hnotRunning, ?_⟩
      simp only [hmode] at h
      cases hheld : r.machine.heldKey with
      | some key => simp only [Machine.transit, hheld, Option.some_or, Option.isSome_some]
      | none =>
          simp only [hheld] at h
          rw [Machine.transit_of_not_held hheld]
          cases hpending : r.machine.keypad.pending with
          | some key => rfl
          | none => exact absurd h (takeFromKeypad_phase_ne hpending stepping)

/-- An iteration is completed just if it neither idles nor blocks nor ends the run. -/
theorem completes_iff (r : Run σ) (meanwhile : List Action) :
    r.completes meanwhile = true ↔
      r.resting = false ∧ (r.fulfil (.advance meanwhile)).phase = .ready := by
  simp only [completes, fulfil]
  cases hphase : r.phase with
  | ended | crashed cause => simp [executes, begins, incoming, resting, hphase]
  | blocked stepping =>
      simp only [executes, begins, incoming, resting, advanceWith, hphase, Keypad.blocks]
      cases hpending : r.machine.keypad.pending with
      | none => simp [takeFromKeypad_phase_ne hpending]
      | some key => simp
  | ready =>
      cases hbegins : r.begins with
      | false =>
          simp only [begins, hphase, beq_self_eq_true, Bool.true_and] at hbegins
          cases hstopped : r.panel.stopped with
          | true => simp [executes, begins, incoming, advanceWith, hphase, hstopped]
          | false => simp_all [executes, begins, incoming, resting]
      | true =>
          have hrests : r.resting = false := by
            simp only [begins, hphase, beq_self_eq_true, Bool.true_and] at hbegins
            simp_all [resting]
          have hexecutes : r.executes .advance = r.machine.upcoming := by
            simp only [executes, hbegins, if_true]
          have hincoming : r.incoming.isSome = true ↔
              r.machine.mode ≠ .running ∧ r.machine.transit.isSome = true := by
            cases hmode : r.machine.mode <;> simp [incoming, hphase, hbegins, hmode]
          rw [advanceWith_eq_begin _ hbegins, Bool.or_eq_true, Bool.and_eq_true, hexecutes,
            hincoming, hrests, beq_iff_eq]
          constructor
          · rintro (hupcoming | ⟨-, hready⟩)
            · refine ⟨rfl, ?_⟩
              apply begin_of_upcoming
              exact hupcoming
            · exact ⟨rfl, hready⟩
          · rintro ⟨-, hready⟩
            obtain hupcoming | htakes := begin_comesBack hready
            · exact .inl hupcoming
            · exact .inr ⟨htakes, hready⟩

/-- What is published changes with an iteration that is completed, and at no other time. -/
theorem fulfil_published (r : Run σ) {q : Request} (hgoesOn : q.goesOn = true) :
    (r.fulfil q).panel.published =
      if r.machine.settings.debug then (r.readings [q]).getLast?.or r.panel.published
      else r.panel.published := by
  cases q with
  | start panel => cases hgoesOn
  | act action =>
      cases action with
      | keypad command => simp [readings, fulfil, act]
      | panel action => simp [readings, fulfil, act, Panel.perform_published]
  | step | tick | setDelay value | setSound value | load program | reset | execute i
  | executeAll instructions => simp [readings, fulfil, onMachine]
  | advance meanwhile =>
      cases hcompletes : r.completes meanwhile with
      | true =>
          obtain ⟨hrests, hready⟩ := (r.completes_iff meanwhile).1 hcompletes
          have hreports := advance_reports meanwhile hrests
          unfold Reports at hreports
          rw [hreports, hready]
          simp [readings, hcompletes]
      | false =>
          have hnot := mt (r.completes_iff meanwhile).2 (ne_true_of_eq_false hcompletes)
          have hkeeps : (r.fulfil (.advance meanwhile)).panel.published = r.panel.published := by
            cases hrests : r.resting with
            | true =>
                simp only [fulfil]
                rw [advanceWith_of_resting _ r hrests]
            | false =>
                have hreports := advance_reports meanwhile hrests
                have hphase := beq_eq_false_iff_ne.2 fun hready => hnot ⟨hrests, hready⟩
                unfold Reports at hreports
                rw [hreports, hphase, Bool.and_false]
                rfl
          rw [hkeeps]
          simp [readings, hcompletes]

theorem readings_cons (r : Run σ) (q : Request) (rest : List Request) :
    r.readings (q :: rest) = r.readings [q] ++ (r.fulfil q).readings rest := by
  cases q with
  | advance meanwhile =>
      cases hcompletes : r.completes meanwhile <;> simp [readings, hcompletes]
  | _ => rfl

theorem fulfilAll_published (r : Run σ) {requests : List Request}
    (hgoesOn : ∀ q ∈ requests, q.goesOn = true) :
    (r.fulfilAll requests).panel.published =
      if r.machine.settings.debug then (r.readings requests).getLast?.or r.panel.published
      else r.panel.published := by
  induction requests generalizing r with
  | nil => simp [fulfilAll, readings]
  | cons q rest ih =>
      obtain ⟨hfirst, hrest⟩ := List.forall_mem_cons.1 hgoesOn
      have hpublished := ih (r.fulfil q) hrest
      rw [r.fulfil_published hfirst, r.fulfil_debug q] at hpublished
      change ((r.fulfil q).fulfilAll rest).panel.published = _
      rw [hpublished, r.readings_cons q rest, List.getLast?_append]
      cases r.machine.settings.debug with
      | true => simp only [if_true, Option.or_assoc]
      | false => rfl

/-- To publish what a run does is only to look at it. Whether it is done, and the pace that is set
for cycles and timers, make no difference to any answer, to the frames that are shown or to where
the run comes to stand, but for what was published. Without it nothing is ever published. With it
the last that was published is what the machine showed at the end of the last iteration that was
completed, and that is one that neither idled nor blocked nor ended the run. -/
theorem publishing_only_observes (r : Run σ) (cycleDelay timerFrequency : Nat) (debug : Bool)
    (requests : List Request) :
    let s := r.tuned cycleDelay timerFrequency debug
    let now := s.fulfilAll requests
    now.unpublished = ((r.fulfilAll requests).tuned cycleDelay timerFrequency debug).unpublished ∧
      s.responses requests = r.responses requests ∧
      s.framesShown requests = r.framesShown requests ∧
      ((∀ q ∈ requests, q.goesOn = true) →
        now.panel.published =
          if debug then (s.readings requests).getLast?.or r.panel.published
          else r.panel.published) ∧
      ∀ meanwhile, now.completes meanwhile = true ↔
        now.resting = false ∧ (now.fulfil (.advance meanwhile)).phase = .ready := by
  intro s now
  have hlike := r.like_tuned cycleDelay timerFrequency debug
  refine ⟨r.fulfilAll_tuned .., (hlike.responses_eq requests).symm, r.framesShown_tuned .., ?_, ?_⟩
  · intro hgoesOn
    exact s.fulfilAll_published hgoesOn
  · intro meanwhile
    exact now.completes_iff meanwhile

/-- A program that sets the delay timer and waits for a key, which comes under a pause and is held
back. What is published shows the timer as it was then, whatever it has counted down since. -/
theorem published_when_held_back :
    let r := loaded [0x60, 0x05, 0xF0, 0x15, 0xF3, 0x0A]
    let requests : List Request := [.advance [], .advance [], .advance [], .advance [],
      .act (.keypad (.press 7)), .act (.panel .pause), .advance [], .tick, .advance []]
    let watched := (r.tuned 0 500 true).fulfilAll requests
    let unwatched := (r.tuned 2000 60 false).fulfilAll requests
    watched.panel.published.map (fun o => o.timers.delay) = some 5 ∧
      watched.machine.timers.delay = 4 ∧ watched.machine.heldKey = some 7 ∧
      unwatched.panel.published = none := by
  intro r requests watched unwatched
  have hgoesOn : ∀ q ∈ requests, q.goesOn = true := by decide
  obtain ⟨-, -, -, hwatched, -⟩ := publishing_only_observes r 0 500 true requests
  obtain ⟨-, -, -, hunwatched, -⟩ := publishing_only_observes r 2000 60 false requests
  have hdelay : ((r.tuned 0 500 true).readings requests).getLast?.map (fun o => o.timers.delay) =
      some 5 := by decide +kernel
  refine ⟨?_, by decide +kernel, by decide +kernel, hunwatched hgoesOn⟩
  rw [hwatched hgoesOn, ← hdelay, if_pos rfl]
  exact congrArg _ Option.or_none

end Run

end Chip8
