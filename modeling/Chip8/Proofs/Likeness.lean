import Chip8.Proofs.Cycles
import Chip8.Proofs.LoopSteps
import Chip8.Proofs.MissingRegisters
import Chip8.Proofs.Requests

/-!
Machines that behave alike. Two machines may differ in what their displays made of the frames they
were shown, in the sound timer and in settings that only the player of a program is concerned with.
Nothing a machine does depends on these, so machines that differ in nothing else answer every
sequence of requests alike, and still differ in nothing else afterwards.
-/

namespace Chip8

/-- In what two machines may differ, with what it takes for the difference never to matter. -/
structure Likeness (σ τ : Type) [Display σ] [Display τ] where
  display : σ → τ → Prop
  sound : UInt8 → UInt8 → Prop
  settings : Settings → Settings → Prop
  display_refresh : ∀ {d e} (frame : Screen), display d e →
    display (Display.refresh d frame) (Display.refresh e frame)
  sound_refl : ∀ value, sound value value
  sound_countDown : ∀ {a b}, sound a b → sound (Timers.countDown a) (Timers.countDown b)
  movesIndex_eq : ∀ {a b}, settings a b → a.movesIndex = b.movesIndex

namespace Likeness

variable {σ τ : Type} [Display σ] [Display τ]

/-- Machines whose settings are related either both publish what they do or both do not. -/
def Publishes (L : Likeness σ τ) : Prop :=
  ∀ a b, L.settings a b → a.debug = b.debug

end Likeness

/-- Two readouts differ only in what a likeness allows for the sound timer. -/
structure Readout.Like {σ τ : Type} [Display σ] [Display τ] (L : Likeness σ τ)
    (o o' : Readout) : Prop where
  sound : L.sound o.timers.sound o'.timers.sound
  eq : o' = {o with timers.sound := o'.timers.sound}

namespace Machine

variable {σ τ : Type} [Display σ] [Display τ] {L : Likeness σ τ} {m : Machine σ} {m' : Machine τ}

/-- Two machines differ only in what a likeness allows. -/
structure Like (L : Likeness σ τ) (m : Machine σ) (m' : Machine τ) : Prop where
  memory : m.memory = m'.memory
  registers : m.registers = m'.registers
  stack : m.stack = m'.stack
  screen : m.screen = m'.screen
  keypad : m.keypad = m'.keypad
  random : m.random = m'.random
  mode : m.mode = m'.mode
  heldKey : m.heldKey = m'.heldKey
  lastOpcode : m.lastOpcode = m'.lastOpcode
  delay : m.timers.delay = m'.timers.delay
  sound : L.sound m.timers.sound m'.timers.sound
  settings : L.settings m.settings m'.settings
  display : L.display m.display m'.display

/-- Two computations come to the same, and leave machines that are alike. -/
inductive Agree (L : Likeness σ τ) {α : Type} :
    EStateM.Result Fault (Machine σ) α → EStateM.Result Fault (Machine τ) α → Prop
  | ok (a : α) {m : Machine σ} {m' : Machine τ} (h : m.Like L m') : Agree L (.ok a m) (.ok a m')
  | error (fault : Fault) {m : Machine σ} {m' : Machine τ} (h : m.Like L m') :
      Agree L (.error fault m) (.error fault m')

theorem Agree.bind {α β : Type} {x : Exec σ α} {y : Exec τ α} {f : α → Exec σ β}
    {g : α → Exec τ β} (h : Agree L (x m) (y m'))
    (hf : ∀ a m m', m.Like L m' → Agree L (f a m) (g a m')) :
    Agree L ((x >>= f) m) ((y >>= g) m') := by
  change Agree L (EStateM.bind x f m) (EStateM.bind y g m')
  unfold EStateM.bind
  generalize x m = a, y m' = b at h
  cases h with
  | ok a hlike => exact hf a _ _ hlike
  | error fault hlike => exact .error fault hlike

theorem Agree.outcome_eq {α : Type} {x : Exec σ α} {y : Exec τ α}
    (h : Agree L (x m) (y m')) : outcome x m = outcome y m' := by
  unfold outcome
  generalize x m = a, y m' = b at h
  cases h <;> rfl

theorem Agree.afterwards {α : Type} {x : Exec σ α} {y : Exec τ α}
    (h : Agree L (x m) (y m')) : (afterwards x m).Like L (afterwards y m') := by
  unfold Machine.afterwards
  generalize x m = a, y m' = b at h
  cases h with
  | ok _ hlike => exact hlike
  | error _ hlike => exact hlike

theorem like_fresh (random : Random.Source) {settings settings' : Settings} {d : σ} {d' : τ}
    (hsettings : L.settings settings settings') (hdisplay : L.display d d') :
    (fresh settings random d).Like L (fresh settings' random d') :=
  ⟨rfl, rfl, rfl, rfl, rfl, rfl, rfl, rfl, rfl, rfl, L.sound_refl _, hsettings, hdisplay⟩

namespace Like

/-- No instruction does anything else to one of two machines that are alike. -/
theorem after (h : m.Like L m') (i : Instruction) : (m.after i).Like L (m'.after i) := by
  obtain ⟨memory, registers, stack, screen, ⟨delay, sound⟩, keypad, random, mode, heldKey, opcode,
    settings, display⟩ := m
  obtain ⟨_, _, _, _, ⟨_, sound'⟩, _, _, _, _, _, settings', display'⟩ := m'
  obtain ⟨rfl, rfl, rfl, rfl, rfl, rfl, rfl, rfl, rfl, rfl, hsound, hsettings, hdisplay⟩ := h
  dsimp only at hsound hsettings hdisplay
  cases i with
  | clearScreen | draw x y height =>
      exact ⟨rfl, rfl, rfl, rfl, rfl, rfl, rfl, rfl, rfl, rfl, hsound, hsettings,
        L.display_refresh _ hdisplay⟩
  | setSound x =>
      exact ⟨rfl, rfl, rfl, rfl, rfl, rfl, rfl, rfl, rfl, rfl, L.sound_refl _, hsettings,
        hdisplay⟩
  | storeRegisters x | loadRegisters x =>
      simp only [Machine.after, moveIndex_eq]
      refine ⟨rfl, ?_, rfl, rfl, rfl, rfl, rfl, rfl, rfl, rfl, hsound, hsettings, hdisplay⟩
      have hmoves := L.movesIndex_eq hsettings
      cases hmoves' : settings'.movesIndex <;>
        simp [indexBehind, storeUpTo, loadUpTo, hmoves, hmoves']
  | _ => exact ⟨rfl, rfl, rfl, rfl, rfl, rfl, rfl, rfl, rfl, rfl, hsound, hsettings, hdisplay⟩

theorem flow_eq (h : m.Like L m') (i : Instruction) : m.flow i = m'.flow i := by
  obtain ⟨memory, registers, stack, screen, timers, keypad, random, mode, heldKey, opcode,
    settings, display⟩ := m
  obtain ⟨_, _, _, _, _, _, _, _, _, _, _, _⟩ := m'
  obtain ⟨rfl, rfl, rfl, rfl, rfl, -, -, -, -, -, -, -, -⟩ := h
  cases i <;> rfl

theorem onKeypad (h : m.Like L m') (change : Keypad → Keypad) :
    (m.onKeypad change).Like L (m'.onKeypad change) :=
  {h with keypad := congrArg change h.keypad}

theorem withHeldKey (h : m.Like L m') (heldKey : Option UInt8) :
    Like L {m with heldKey} {m' with heldKey} :=
  {h with heldKey := rfl}

theorem executed (h : m.Like L m') (i : Instruction) :
    (m.executed i).Like L (m'.executed i) := by
  have hafter := h.after i
  have hregisters : (m.executed i).registers = (m'.executed i).registers := by
    simp only [Machine.executed, h.flow_eq i, h.registers, hafter.registers]
  exact {hafter with registers := hregisters}

theorem interrupted (h : m.Like L m') (i : Instruction) :
    (m.interrupted i).Like L (m'.interrupted i) := by
  cases i with
  | random x mask =>
      simp only [Machine.interrupted, h.random]
      exact {h with random := rfl}
  | storeRegisters x =>
      simp only [Machine.interrupted, storeUpTo, h.memory, h.registers]
      exact {h with memory := rfl, registers := rfl}
  | loadRegisters x =>
      simp only [Machine.interrupted, loadUpTo, h.memory, h.registers]
      exact {h with memory := rfl, registers := rfl}
  | _ => exact h

theorem execute (h : m.Like L m') (i : Instruction) :
    Agree L (Machine.execute i m) (Machine.execute i m') := by
  cases hfault : i.fault? with
  | none =>
      rw [execute_of_none hfault, execute_of_none hfault]
      exact .ok () (h.executed i)
  | some fault =>
      rw [execute_of_some hfault, execute_of_some hfault]
      exact .error fault (h.interrupted i)

theorem nextOpcode_eq (h : m.Like L m') : m.nextOpcode = m'.nextOpcode := by
  rw [nextOpcode, nextOpcode, h.memory, h.registers]

theorem upcoming_eq (h : m.Like L m') : m.upcoming = m'.upcoming := by
  rw [upcoming, upcoming, h.mode, h.nextOpcode_eq]

theorem transit_eq (h : m.Like L m') : m.transit = m'.transit := by
  rw [transit, transit, h.heldKey, h.keypad]

theorem readout_like (h : m.Like L m') : m.readout.Like L m'.readout where
  sound := h.sound
  eq := by
    simp only [readout, h.registers, h.stack, h.keypad, h.mode, h.lastOpcode]
    rw [h.delay]

theorem fetched (h : m.Like L m') : m.fetched.Like L m'.fetched :=
  {h with lastOpcode := h.nextOpcode_eq}

theorem withoutTransit (h : m.Like L m') : m.withoutTransit.Like L m'.withoutTransit := by
  cases hheld : m.heldKey with
  | some key =>
      have hheld' := h.heldKey.symm.trans hheld
      simp only [Machine.withoutTransit, hheld, hheld']
      exact {h with heldKey := rfl}
  | none =>
      have hheld' := h.heldKey.symm.trans hheld
      simp only [Machine.withoutTransit, hheld, hheld', h.keypad]
      exact {h with keypad := rfl, heldKey := rfl}

theorem deliver (h : m.Like L m') (key : UInt8) :
    Agree L (Machine.deliver key m) (Machine.deliver key m') := by
  cases hmode : m.mode with
  | running =>
      rw [deliver_of_running hmode, deliver_of_running (h.mode ▸ hmode)]
      exact .ok () h
  | waitingForKey x =>
      have hmode' : m'.mode = .waitingForKey x := h.mode ▸ hmode
      by_cases hx : x.toNat < 16
      · rw [deliver_of_lt hmode hx, deliver_of_lt hmode' hx]
        refine .ok () {h with registers := ?_, mode := rfl}
        simp only [resumed, h.registers]
      · rw [deliver_of_le hmode hx, deliver_of_le hmode' hx]
        exact .error _ h

theorem step (h : m.Like L m') : Agree L (Machine.step m) (Machine.step m') := by
  cases hmode : m.mode with
  | running =>
      rw [step_running hmode, step_running (h.mode ▸ hmode), ← h.nextOpcode_eq]
      exact .ok _ (h.fetched.executed _)
  | waitingForKey x =>
      have hmode' : m'.mode = .waitingForKey x := h.mode ▸ hmode
      cases htransit : m.transit with
      | none =>
          rw [step_waiting_none hmode htransit,
            step_waiting_none hmode' (h.transit_eq ▸ htransit)]
          exact .ok _ h
      | some key =>
          rw [step_waiting hmode htransit, step_waiting hmode' (h.transit_eq ▸ htransit)]
          have hagree := h.withoutTransit.deliver key
          generalize Machine.deliver key m.withoutTransit = a,
            Machine.deliver key m'.withoutTransit = b at hagree
          cases hagree with
          | ok _ hlike => exact .ok _ hlike
          | error fault hlike => exact .error fault hlike

theorem executeAll (h : m.Like L m') (instructions : List Instruction) :
    Agree L (Machine.executeAll instructions m) (Machine.executeAll instructions m') := by
  induction instructions generalizing m m' with
  | nil => exact .ok () h
  | cons i rest ih => exact (h.execute i).bind fun _ _ _ hlike => ih hlike

theorem completed_eq (h : m.Like L m') (instructions : List Instruction) :
    m.completed instructions = m'.completed instructions := by
  induction instructions generalizing m m' with
  | nil => rfl
  | cons i rest ih =>
      have hagree := h.execute i
      unfold completed
      generalize Machine.execute i m = a, Machine.execute i m' = b at hagree
      cases hagree with
      | ok _ hlike => exact congrArg (i :: ·) (ih hlike)
      | error _ _ => rfl

theorem load_like (h : m.Like L m') (program : List UInt8) :
    ((m.load program).toOption.getD m).Like L ((m'.load program).toOption.getD m') := by
  unfold Machine.load
  rw [← h.memory]
  cases m.memory.loadProgram program with
  | ok memory => exact {h with memory := rfl}
  | error failure => exact h

theorem reset (h : m.Like L m') : m.reset.Like L m'.reset := by
  rw [reset_eq_fresh, reset_eq_fresh, h.random]
  exact like_fresh m'.random h.settings (L.display_refresh _ h.display)

theorem tick (h : m.Like L m') : m.tick.Like L m'.tick :=
  {h with
    delay := congrArg Timers.countDown h.delay
    sound := L.sound_countDown h.sound}

end Like

end Machine

namespace Run

variable {σ τ : Type} [Display σ] [Display τ] {L : Likeness σ τ} {r : Run σ} {s : Run τ}

/-- Two runs differ only in what a likeness allows for their machines. If the settings do not tell
the two whether to publish what they do, what was published differs only so far, too. -/
structure Like (L : Likeness σ τ) (r : Run σ) (s : Run τ) : Prop where
  machine : r.machine.Like L s.machine
  panel : r.panel.unpublished = s.panel.unpublished
  phase : r.phase = s.phase
  refreshes : r.refreshes = s.refreshes
  published : L.Publishes → Option.Rel (Readout.Like L) r.panel.published s.panel.published

namespace Like

theorem switches_eq (h : r.Like L s) : r.panel.stopped = s.panel.stopped ∧
    r.panel.paused = s.panel.paused ∧ r.panel.stepRequested = s.panel.stepRequested :=
  Panel.unpublished_inj h.panel

theorem withMachine (h : r.Like L s) {m : Machine σ} {m' : Machine τ} (hlike : m.Like L m') :
    Like L {r with machine := m} {s with machine := m'} :=
  {h with machine := hlike}

theorem withPhase (h : r.Like L s) (phase : Phase) : Like L {r with phase} {s with phase} :=
  {h with phase := rfl}

theorem afterwards (h : r.Like L s) {α : Type} {x : Machine.Exec σ α} {y : Machine.Exec τ α}
    (hagree : Machine.Agree L (x r.machine) (y s.machine)) :
    Like L (r.onMachine (Machine.afterwards x)) (s.onMachine (Machine.afterwards y)) :=
  h.withMachine hagree.afterwards

theorem start {m : Machine σ} {m' : Machine τ} (h : m.Like L m') (panel : Panel) :
    Like L (Run.start m panel) (Run.start m' panel) where
  machine := h
  panel := rfl
  phase := rfl
  refreshes := rfl
  published _ := by
    rw [Run.start, Run.start]
    cases panel.published with
    | none => exact .none
    | some o => exact .some ⟨L.sound_refl _, rfl⟩

theorem act (h : r.Like L s) (action : Action) : Like L (r.act action) (s.act action) := by
  cases action with
  | keypad command => exact h.withMachine (h.machine.onKeypad _)
  | panel action =>
      refine {h with panel := ?_, published := fun hdebug => ?_}
      · change (r.panel.perform action).unpublished = (s.panel.perform action).unpublished
        rw [Panel.perform_unpublished, Panel.perform_unpublished, h.panel]
      · change Option.Rel _ (r.panel.perform action).published (s.panel.perform action).published
        rw [Panel.perform_published, Panel.perform_published]
        exact h.published hdebug

theorem actAll (h : r.Like L s) (actions : List Action) :
    Like L (r.actAll actions) (s.actAll actions) := by
  induction actions generalizing r s with
  | nil => exact h
  | cons action rest ih => exact ih (h.act action)

theorem complete (h : r.Like L s) : Like L r.complete s.complete where
  machine := by rw [complete_machine, complete_machine]; exact h.machine
  panel := by rw [complete_unpublished, complete_unpublished]; exact h.panel
  phase := by rw [complete_phase, complete_phase]
  refreshes := by rw [complete_refreshes, complete_refreshes]; exact h.refreshes
  published hdebug := by
    have hsame := hdebug _ _ h.machine.settings
    unfold Run.complete
    dsimp only
    rw [← hsame]
    split
    · exact .some h.machine.readout_like
    · exact h.published hdebug

theorem receive (h : r.Like L s) (stepping : Bool) (key : UInt8) :
    Like L (r.receive stepping key) (s.receive stepping key) := by
  obtain ⟨-, hpaused, -⟩ := h.switches_eq
  unfold Run.receive
  rw [← hpaused]
  split
  · exact (h.withMachine (h.machine.withHeldKey (some key))).complete
  · have hagree := h.machine.deliver key
    generalize Machine.deliver key r.machine = a, Machine.deliver key s.machine = b at hagree
    cases hagree with
    | ok _ hlike => exact (h.withMachine hlike).complete
    | error fault hlike => exact (h.withMachine hlike).withPhase _

theorem takeFromKeypad (h : r.Like L s) (stepping : Bool) :
    Like L (r.takeFromKeypad stepping) (s.takeFromKeypad stepping) := by
  have hkeypad := h.machine.keypad
  cases hpending : r.machine.keypad.pending with
  | none =>
      rw [takeFromKeypad_of_none hpending, takeFromKeypad_of_none (hkeypad ▸ hpending), hkeypad]
      exact h.withPhase _
  | some key =>
      rw [takeFromKeypad_of_some hpending, takeFromKeypad_of_some (hkeypad ▸ hpending)]
      have htaken := h.machine.onKeypad fun k => {k with pending := none}
      exact (h.withMachine htaken).receive stepping key

theorem cycle (h : r.Like L s) (watcher : Watcher) :
    Like L (r.cycle watcher) (s.cycle watcher) := by
  have hagree := h.machine.step
  unfold Run.cycle
  generalize Machine.step r.machine = a, Machine.step s.machine = b at hagree
  cases hagree with
  | error fault hlike => exact (h.withMachine hlike).withPhase _
  | ok c hlike =>
      cases c with
      | waiting | resumed key => exact (h.withMachine hlike).complete
      | executed i =>
          dsimp only
          split
          · rw [h.refreshes]
            have hshown : Like L {r with machine := _, refreshes := s.refreshes + 1}
                {s with machine := _, refreshes := s.refreshes + 1} :=
              {h.withMachine hlike with refreshes := rfl}
            cases watcher (s.refreshes + 1) with
            | acts actions => exact (hshown.actAll actions).complete
            | fails => exact hshown.withPhase _
          · exact (h.withMachine hlike).complete

theorem begin (h : r.Like L s) (watcher : Watcher) (stepping : Bool) :
    Like L (r.begin watcher stepping) (s.begin watcher stepping) := by
  unfold Run.begin
  rw [← h.machine.mode, ← h.machine.heldKey]
  cases r.machine.mode with
  | running => exact h.cycle watcher
  | waitingForKey x =>
      cases r.machine.heldKey with
      | some key => exact (h.withMachine (h.machine.withHeldKey none)).receive stepping key
      | none => exact h.takeFromKeypad stepping

theorem advanceWith (h : r.Like L s) (watcher : Watcher) :
    Like L (r.advanceWith watcher) (s.advanceWith watcher) := by
  obtain ⟨hstopped, hpaused, hrequested⟩ := h.switches_eq
  unfold Run.advanceWith
  rw [← h.phase, ← hstopped, ← hpaused, Panel.idles, Panel.idles, ← hpaused, ← hrequested]
  cases r.phase with
  | ended | crashed cause => exact h
  | blocked stepping => exact h.takeFromKeypad stepping
  | ready =>
      dsimp only
      split
      · exact h.withPhase .ended
      · split
        · exact h
        · split
          · have htaken : Like L {r with panel := r.panel.takeStep}
                {s with panel := s.panel.takeStep} :=
              {h with panel := congrArg Panel.takeStep h.panel}
            exact (htaken.withPhase .ready).begin watcher true
          · exact h.begin watcher false

theorem begins_eq (h : r.Like L s) : r.begins = s.begins := by
  obtain ⟨hstopped, hpaused, hrequested⟩ := h.switches_eq
  simp only [begins, Panel.idles, h.phase, hstopped, hpaused, hrequested]

/-- Runs that are alike stay so, whatever is asked of both. -/
theorem fulfil (h : r.Like L s) (q : Request) : Like L (r.fulfil q) (s.fulfil q) := by
  cases q with
  | advance meanwhile => exact h.advanceWith _
  | step => exact h.afterwards h.machine.step
  | act action => exact h.act action
  | tick => exact h.withMachine h.machine.tick
  | setDelay value => exact h.withMachine {h.machine with delay := rfl}
  | setSound value => exact h.withMachine {h.machine with sound := L.sound_refl value}
  | start panel => exact start h.machine panel
  | load program => exact h.withMachine (h.machine.load_like program)
  | reset => exact h.withMachine h.machine.reset
  | execute i => exact h.afterwards (h.machine.execute i)
  | executeAll instructions => exact h.afterwards (h.machine.executeAll instructions)

/-- Runs that are alike give the same answer. -/
theorem response_eq (h : r.Like L s) (q : Request) : r.response q = s.response q := by
  cases q with
  | advance meanwhile => exact congrArg Response.stands (h.fulfil (.advance meanwhile)).phase
  | step => exact congrArg Response.cycle h.machine.step.outcome_eq
  | act action =>
      cases action with
      | panel action => rfl
      | keypad command => rw [response, response, h.machine.keypad]
  | load program =>
      simp only [response, Machine.load, h.machine.memory]
      cases s.machine.memory.loadProgram program <;> rfl
  | execute i => exact congrArg Response.executed (h.machine.execute i).outcome_eq
  | executeAll instructions =>
      exact congrArg Response.executed (h.machine.executeAll instructions).outcome_eq
  | tick | setDelay value | setSound value | start panel | reset => rfl

theorem completed_eq (h : r.Like L s) (q : Request) : r.completed q = s.completed q := by
  cases q with
  | advance meanwhile => rw [completed, completed, h.begins_eq, h.machine.upcoming_eq]
  | step => rw [completed, completed, h.machine.upcoming_eq]
  | execute i => exact h.machine.completed_eq [i]
  | executeAll instructions => exact h.machine.completed_eq instructions
  | _ => rfl

theorem fulfilAll (h : r.Like L s) (requests : List Request) :
    Like L (r.fulfilAll requests) (s.fulfilAll requests) := by
  induction requests generalizing r s with
  | nil => exact h
  | cons q rest ih => exact ih (h.fulfil q)

theorem responses_eq (h : r.Like L s) (requests : List Request) :
    r.responses requests = s.responses requests := by
  induction requests generalizing r s with
  | nil => rfl
  | cons q rest ih => rw [responses, responses, h.response_eq q, ih (h.fulfil q)]

theorem completedAll_eq (h : r.Like L s) (requests : List Request) :
    r.completedAll requests = s.completedAll requests := by
  induction requests generalizing r s with
  | nil => rfl
  | cons q rest ih => rw [completedAll, completedAll, h.completed_eq q, ih (h.fulfil q)]

end Like

end Run

end Chip8
