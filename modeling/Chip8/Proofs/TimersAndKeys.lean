import Chip8.Proofs.FramesShown

/-!
How timers and keys reach a program. A program learns of them through four instructions only: the
one that reads the delay timer, the two that ask for a key, and the one that waits for a press. As
long as it executes none of these, it does the same whatever ticks, timers and keys come between
its cycles. The sound timer never reaches it at all.
-/

namespace Chip8

/-- Whether an instruction looks at a timer or at the keypad. -/
def Instruction.looksOutside : Instruction → Bool
  | .readDelay _ | .skipDown _ | .skipUp _ | .awaitKey _ => true
  | _ => false

namespace Machine

/-- Two machines agree in all that a program works with: they may differ in the timers, the keypad
and what they do with keys, in the opcode fetched last and in the display. -/
structure SharesProgram {σ τ : Type} (m : Machine σ) (m' : Machine τ) : Prop where
  memory : m.memory = m'.memory
  registers : m.registers = m'.registers
  stack : m.stack = m'.stack
  screen : m.screen = m'.screen
  random : m.random = m'.random
  mode : m.mode = m'.mode
  settings : m.settings = m'.settings

theorem SharesProgram.trans {σ τ ρ : Type} {m : Machine σ} {m' : Machine τ} {m'' : Machine ρ}
    (h : m.SharesProgram m') (h' : m'.SharesProgram m'') : m.SharesProgram m'' where
  memory := h.memory.trans h'.memory
  registers := h.registers.trans h'.registers
  stack := h.stack.trans h'.stack
  screen := h.screen.trans h'.screen
  random := h.random.trans h'.random
  mode := h.mode.trans h'.mode
  settings := h.settings.trans h'.settings

theorem SharesProgram.symm {σ τ : Type} {m : Machine σ} {m' : Machine τ}
    (h : m.SharesProgram m') : m'.SharesProgram m where
  memory := h.memory.symm
  registers := h.registers.symm
  stack := h.stack.symm
  screen := h.screen.symm
  random := h.random.symm
  mode := h.mode.symm
  settings := h.settings.symm

theorem SharesProgram.nextOpcode_eq {σ τ : Type} {m : Machine σ} {m' : Machine τ}
    (h : m.SharesProgram m') : m.nextOpcode = m'.nextOpcode := by
  rw [nextOpcode, nextOpcode, h.memory, h.registers]

theorem Like.sharesProgram {σ : Type} [Display σ] {e : σ} {m : Machine σ}
    {m' : Machine (List Screen)} (h : m.Like (.showing e) m') : m.SharesProgram m' where
  memory := h.memory
  registers := h.registers
  stack := h.stack
  screen := h.screen
  random := h.random
  mode := h.mode
  settings := h.settings

variable {σ : Type}

/-- The machine without what a program learns of by looking outside. -/
def veiled (m : Machine σ) : Machine σ :=
  {m with timers := .zero, keypad := .initial, heldKey := none, lastOpcode := 0}

theorem SharesProgram.veiled_eq {τ ρ : Type} {m : Machine σ} {m' : Machine τ}
    (h : m.SharesProgram m') (d : ρ) : (m.withDisplay d).veiled = (m'.withDisplay d).veiled := by
  simp only [veiled, withDisplay, h.memory, h.registers, h.stack, h.screen, h.random, h.mode,
    h.settings]

theorem sharesProgram_of_veiled {m m' : Machine σ} (h : m.veiled = m'.veiled) :
    m.SharesProgram m' := by
  simp only [veiled, mk.injEq] at h
  obtain ⟨hmemory, hregisters, hstack, hscreen, -, -, hrandom, hmode, -, -, hsettings, -⟩ := h
  exact ⟨hmemory, hregisters, hstack, hscreen, hrandom, hmode, hsettings⟩

theorem display_eq_of_veiled {m m' : Machine σ} (h : m.veiled = m'.veiled) :
    m.display = m'.display := by
  change m.veiled.display = m'.veiled.display
  rw [h]

/-- An instruction that does not look outside does the same behind the veil. -/
theorem executed_veiled [Display σ] (m : Machine σ) {i : Instruction}
    (h : i.looksOutside = false) : (m.executed i).veiled = (m.veiled.executed i).veiled := by
  obtain ⟨memory, registers, stack, screen, timers, keypad, random, mode, heldKey, opcode,
    settings, display⟩ := m
  cases i with
  | readDelay x | skipDown x | skipUp x | awaitKey x => cases h
  | storeRegisters x => rw [executed_storeRegisters, executed_storeRegisters]; rfl
  | loadRegisters x => rw [executed_loadRegisters, executed_loadRegisters]; rfl
  | _ => rfl

end Machine

namespace Run

/-- What may come between the cycles of a program without being one: keys and the panel, ticks, and
timers that are set. -/
def Request.isOutside : Request → Bool
  | .act _ | .tick | .setDelay _ | .setSound _ => true
  | _ => false

/-- Whether requests make cycles by hand, and apart from that only happen outside. -/
def OnlySteps (requests : List Request) : Prop :=
  ∀ q ∈ requests, q = .step ∨ q.isOutside = true

/-- No instruction among these looks outside. -/
def Blind (instructions : List Instruction) : Prop :=
  ∀ i ∈ instructions, i.looksOutside = false

variable {σ : Type} [Display σ]

theorem fulfil_outside (r : Run σ) {q : Request} (h : q.isOutside = true) :
    (r.fulfil q).machine.veiled = r.machine.veiled ∧
      (r.fulfil q).machine.mode = r.machine.mode ∧ r.completed q = [] := by
  cases q with
  | act action => cases action <;> exact ⟨rfl, rfl, rfl⟩
  | tick | setDelay value | setSound value => exact ⟨rfl, rfl, rfl⟩
  | _ => cases h

theorem fulfil_step {r : Run σ} (hmode : r.machine.mode = .running) :
    (r.fulfil .step).machine = r.machine.fetched.executed (.decode r.machine.nextOpcode) := by
  change Machine.afterwards Machine.step r.machine = _
  rw [Machine.afterwards, Machine.step_running hmode]

theorem completed_step {r : Run σ} (hmode : r.machine.mode = .running) :
    r.completed .step = [.decode r.machine.nextOpcode] := by
  rw [completed, Machine.upcoming, hmode]
  rfl

/-- A cycle that executes an instruction which does not look outside goes on behind the veil. -/
theorem fulfil_step_blind {r s : Run σ} (hmode : r.machine.mode = .running)
    (hveiled : r.machine.veiled = s.machine.veiled)
    (hblind : (Instruction.decode r.machine.nextOpcode).looksOutside = false) :
    (r.fulfil .step).machine.mode = .running ∧
      (r.fulfil .step).machine.veiled = (s.fulfil .step).machine.veiled := by
  have hshares := Machine.sharesProgram_of_veiled hveiled
  have hmode' := hshares.mode.symm.trans hmode
  have hveiled' : r.machine.fetched.veiled = s.machine.fetched.veiled := hveiled
  rw [fulfil_step hmode, fulfil_step hmode', ← hshares.nextOpcode_eq]
  constructor
  · refine (Machine.executed_mode _ _ fun x hawait => ?_).trans hmode
    rw [hawait] at hblind
    cases hblind
  · rw [r.machine.fetched.executed_veiled hblind, s.machine.fetched.executed_veiled hblind,
      hveiled']

/-- A run with something going on outside beside one that only makes the cycles. If either executes
nothing that looks outside, both execute the same. -/
theorem undisturbed {r s : Run σ} {requests : List Request} (honly : OnlySteps requests)
    (hmode : r.machine.mode = .running) (hveiled : r.machine.veiled = s.machine.veiled)
    (hblind : Blind (r.completedAll requests) ∨
      Blind (s.completedAll (requests.filter (· == .step)))) :
    r.completedAll requests = s.completedAll (requests.filter (· == .step)) ∧
      (r.fulfilAll requests).machine.veiled =
        (s.fulfilAll (requests.filter (· == .step))).machine.veiled := by
  induction requests generalizing r s with
  | nil => exact ⟨rfl, hveiled⟩
  | cons q rest ih =>
      have honlyRest : OnlySteps rest := fun q hq => honly q (List.mem_cons_of_mem _ hq)
      obtain rfl | houtside := honly q (List.mem_cons_self ..)
      · have hshares := Machine.sharesProgram_of_veiled hveiled
        have hmode' := hshares.mode.symm.trans hmode
        rw [List.filter_cons_of_pos (by rfl)] at hblind ⊢
        simp only [completedAll, completed_step hmode, completed_step hmode',
          ← hshares.nextOpcode_eq, List.singleton_append] at hblind ⊢
        -- Both execute this instruction, so it does not look outside whichever run is known not to.
        obtain ⟨hfirst, hrest⟩ : (Instruction.decode r.machine.nextOpcode).looksOutside = false ∧
            (Blind ((r.fulfil .step).completedAll rest) ∨
              Blind ((s.fulfil .step).completedAll (rest.filter (· == .step)))) := by
          simpa only [Blind, List.forall_mem_cons, ← and_or_left] using hblind
        obtain ⟨hmodeNext, hveiledNext⟩ := fulfil_step_blind hmode hveiled hfirst
        obtain ⟨hcompleted, hend⟩ := ih honlyRest hmodeNext hveiledNext hrest
        exact ⟨congrArg _ hcompleted, hend⟩
      · obtain ⟨hkeeps, hkeepsMode, hnothing⟩ := r.fulfil_outside houtside
        have hnot : ¬ (q == .step) = true := fun hstep => by
          rw [eq_of_beq hstep] at houtside
          cases houtside
        rw [List.filter_cons_of_neg (p := (· == Request.step)) hnot] at hblind ⊢
        simp only [completedAll, hnothing, List.nil_append] at hblind ⊢
        exact ih honlyRest (hkeepsMode.trans hmode) (hkeeps.trans hveiled) hblind

/-- Two runs with different things going on outside, but the same number of cycles. -/
theorem undisturbed_both {r s : Run σ} {requests requests' : List Request}
    (honly : OnlySteps requests) (honly' : OnlySteps requests')
    (hcount : requests.count .step = requests'.count .step)
    (hmode : r.machine.mode = .running) (hveiled : r.machine.veiled = s.machine.veiled)
    (hblind : Blind (r.completedAll requests)) :
    s.completedAll requests' = r.completedAll requests ∧
      (r.fulfilAll requests).machine.veiled = (s.fulfilAll requests').machine.veiled := by
  have hsteps : requests'.filter (· == .step) = requests.filter (· == .step) := by
    rw [List.filter_beq, List.filter_beq, hcount]
  have hmode' := (Machine.sharesProgram_of_veiled hveiled).mode.symm.trans hmode
  obtain ⟨hfirst, hfirstEnd⟩ := undisturbed honly hmode rfl (.inl hblind)
  have hblindSteps : Blind (r.completedAll (requests'.filter (· == .step))) := by
    rw [hsteps, ← hfirst]
    exact hblind
  obtain ⟨hsecond, hsecondEnd⟩ := undisturbed honly' hmode' hveiled.symm (.inr hblindSteps)
  rw [hsecond, hfirst, hfirstEnd, hsecondEnd, hsteps]
  exact ⟨rfl, rfl⟩

end Run

/-! The sound timer. -/

/-- The machine with its sound timer left out of account. -/
def Machine.muted {σ : Type} (m : Machine σ) : Machine σ :=
  {m with timers.sound := 0}

def Readout.muted (o : Readout) : Readout :=
  {o with timers.sound := 0}

/-- The run with the sound timer left out of account, also where it was published. -/
def Run.muted {σ : Type} (r : Run σ) : Run σ :=
  {r with
    machine := r.machine.muted
    panel := {r.panel with published := r.panel.published.map Readout.muted}}

/-- Two machines that differ in their sound timers only. -/
def Likeness.muted (σ : Type) [Display σ] : Likeness σ σ where
  display := Eq
  sound _ _ := True
  settings := Eq
  display_refresh frame h := by rw [h]
  sound_refl _ := trivial
  sound_countDown _ := trivial
  movesIndex_eq := congrArg Settings.movesIndex

theorem Readout.like_muted_iff {σ : Type} [Display σ] {o o' : Readout} :
    Readout.Like (.muted σ) o o' ↔ o.muted = o'.muted := by
  constructor
  · intro h
    rw [h.eq]
    rfl
  · intro h
    have hsame := congrArg (fun x : Readout => {x with timers.sound := o'.timers.sound}) h
    exact ⟨trivial, hsame.symm⟩

namespace Machine

variable {σ : Type} [Display σ] {m m' : Machine σ}

theorem like_of_muted (h : m.muted = m'.muted) : m.Like (.muted σ) m' := by
  simp only [muted, mk.injEq, Timers.mk.injEq] at h
  obtain ⟨hmemory, hregisters, hstack, hscreen, ⟨hdelay, -⟩, hkeypad, hrandom, hmode, hheld,
    hopcode, hsettings, hdisplay⟩ := h
  exact ⟨hmemory, hregisters, hstack, hscreen, hkeypad, hrandom, hmode, hheld, hopcode, hdelay,
    trivial, hsettings, hdisplay⟩

theorem Like.muted_eq (h : m.Like (.muted σ) m') : m.muted = m'.muted := by
  have hsettings : m.settings = m'.settings := h.settings
  have hdisplay : m.display = m'.display := h.display
  simp only [muted, h.memory, h.registers, h.stack, h.screen, h.delay, h.keypad, h.random, h.mode,
    h.heldKey, h.lastOpcode, hsettings, hdisplay]

end Machine

namespace Run

variable {σ : Type} [Display σ] {r s : Run σ}

theorem like_of_muted (h : r.muted = s.muted) : Like (.muted σ) r s := by
  simp only [muted, mk.injEq, Panel.mk.injEq] at h
  obtain ⟨hmachine, ⟨hstopped, hpaused, hrequested, hpublished⟩, hphase, hrefreshes⟩ := h
  refine ⟨Machine.like_of_muted hmachine, ?_, hphase, hrefreshes, fun _ => ?_⟩
  · simp only [Panel.unpublished, hstopped, hpaused, hrequested]
  · generalize r.panel.published = a, s.panel.published = b at hpublished
    cases a with
    | none =>
        cases b with
        | none => exact .none
        | some o' => cases hpublished
    | some o =>
        cases b with
        | none => cases hpublished
        | some o' => exact .some (Readout.like_muted_iff.2 (Option.some.inj hpublished))

theorem Like.muted_eq (h : Like (.muted σ) r s) : r.muted = s.muted := by
  obtain ⟨hstopped, hpaused, hrequested⟩ := h.switches_eq
  have hpublished : r.panel.published.map Readout.muted = s.panel.published.map Readout.muted := by
    have hrel := h.published fun _ _ => congrArg Settings.debug
    generalize r.panel.published = a, s.panel.published = b at hrel
    cases hrel with
    | none => rfl
    | some hreadout => exact congrArg some (Readout.like_muted_iff.1 hreadout)
  simp only [muted, h.machine.muted_eq, hstopped, hpaused, hrequested, hpublished, h.phase,
    h.refreshes]

/-- Whether a request does nothing but set the sound timer. -/
def Request.setsSound : Request → Bool
  | .setSound _ => true
  | _ => false

/-- The requests with the answers to them. -/
def transcript (r : Run σ) (requests : List Request) : List (Request × Response) :=
  requests.zip (r.responses requests)

theorem transcript_cons (r : Run σ) (q : Request) (rest : List Request) :
    r.transcript (q :: rest) = (q, r.response q) :: (r.fulfil q).transcript rest := rfl

theorem fulfil_setsSound (r : Run σ) {q : Request} (h : q.setsSound = true) :
    (r.fulfil q).muted = r.muted := by
  cases q with
  | setSound value => rfl
  | _ => cases h

/-- Requests that set the sound timer make no difference to the answers to the others, and none to
what the run becomes apart from that timer. -/
theorem sound_set_between (h : Like (.muted σ) r s) (requests : List Request) :
    Like (.muted σ) (r.fulfilAll requests)
        (s.fulfilAll (requests.filter fun q => !q.setsSound)) ∧
      (r.transcript requests).filter (fun entry => !entry.1.setsSound) =
        s.transcript (requests.filter fun q => !q.setsSound) := by
  induction requests generalizing r s with
  | nil => exact ⟨h, rfl⟩
  | cons q rest ih =>
      rw [transcript_cons]
      cases hsets : q.setsSound with
      | true =>
          simp only [List.filter_cons, hsets, Bool.not_true, Bool.false_eq_true, if_false]
          exact ih (like_of_muted ((r.fulfil_setsSound hsets).trans h.muted_eq))
      | false =>
          obtain ⟨hend, hanswers⟩ := ih (h.fulfil q)
          simp only [List.filter_cons, hsets, Bool.not_false, if_true, transcript_cons,
            ← h.response_eq q, hanswers]
          exact ⟨hend, trivial⟩

/-- Timers and keys reach a program only through the instructions that look outside. Two running
machines that agree in all else execute the same instructions in the same number of cycles, whatever
happens to their timers and keys in between, if those of the first do not look outside. They still
agree then, and have shown the same frames. And to set the sound timer, whatever is executed,
never changes more than the sound timer. -/
theorem outside_only_through_looks {τ : Type} [Display τ] (r : Run σ) (s : Run τ)
    (requests requests' : List Request) :
    (r.machine.mode = .running → r.machine.SharesProgram s.machine →
      OnlySteps requests → OnlySteps requests' →
      requests.count .step = requests'.count .step → Blind (r.completedAll requests) →
        s.completedAll requests' = r.completedAll requests ∧
          (r.fulfilAll requests).machine.SharesProgram (s.fulfilAll requests').machine ∧
          s.framesShown requests' = r.framesShown requests) ∧
      ∀ (u v : Run σ) (asked asked' : List Request), u.muted = v.muted →
        (asked.filter fun q => !q.setsSound) = (asked'.filter fun q => !q.setsSound) →
          (u.fulfilAll asked).muted = (v.fulfilAll asked').muted ∧
            (u.transcript asked).filter (fun entry => !entry.1.setsSound) =
              (v.transcript asked').filter (fun entry => !entry.1.setsSound) := by
  constructor
  · intro hmode hshares honly honly' hcount hblind
    have hr := r.like_showing
    have hs := s.like_showing
    rw [hr.completedAll_eq] at hblind ⊢
    rw [hs.completedAll_eq]
    have hveiled := hshares.veiled_eq ([] : List Screen)
    obtain ⟨hcompleted, hveiled⟩ := undisturbed_both (r := r.withDisplay ([] : List Screen))
      (s := s.withDisplay []) honly honly' hcount hmode hveiled hblind
    have hend := Machine.sharesProgram_of_veiled hveiled
    refine ⟨hcompleted, ?_, congrArg List.reverse (Machine.display_eq_of_veiled hveiled).symm⟩
    exact (hr.fulfilAll requests).machine.sharesProgram.trans
      (hend.trans (hs.fulfilAll requests').machine.sharesProgram.symm)
  · intro u v asked asked' hmuted hasked
    obtain ⟨hu, htold⟩ := sound_set_between (like_of_muted hmuted) asked
    obtain ⟨hv, htold'⟩ := sound_set_between (like_of_muted (r := v) rfl) asked'
    rw [hu.muted_eq, hv.muted_eq, htold, htold', hasked]
    exact ⟨rfl, rfl⟩

/-- A program that sets both timers, draws a random byte and then a glyph: it does the same with
keys held and timers running from the start, and with others than these in between. -/
theorem glyph_drawn_undisturbed :
    let r := loaded [0x60, 0x05, 0xF0, 0x15, 0xF0, 0x18, 0xC1, 0xFF, 0xD0, 0x15]
    let s := r.fulfilAll [.setDelay 9, .setSound 3, .act (.keypad (.press 7))]
    let requests : List Request := [.step, .tick, .step, .setSound 1, .step, .step, .step]
    let requests' : List Request := [.act (.keypad (.press 3)), .step, .step, .setDelay 200, .step,
      .tick, .step, .act (.keypad (.release 3)), .step]
    let louder := r.fulfil (.setSound 60)
    let asked : List Request := [.setSound 2, .step, .advance [], .tick]
    let asked' : List Request := [.step, .advance [], .setSound 1, .tick]
    (s.completedAll requests' = r.completedAll requests ∧
        (r.fulfilAll requests).machine.SharesProgram (s.fulfilAll requests').machine ∧
        s.framesShown requests' = r.framesShown requests) ∧
      (r.fulfilAll asked).muted = (louder.fulfilAll asked').muted := by
  intro r s requests requests' louder asked asked'
  obtain ⟨hblind, hmuted⟩ := outside_only_through_looks r s requests requests'
  have honly : OnlySteps requests := by
    unfold OnlySteps
    decide +kernel
  have honly' : OnlySteps requests' := by
    unfold OnlySteps
    decide +kernel
  have hexecuted : Blind (r.completedAll requests) := by
    unfold Blind
    decide +kernel
  have hshares (u : Run Recorder) : u.machine.SharesProgram
      (u.fulfilAll [.setDelay 9, .setSound 3, .act (.keypad (.press 7))]).machine :=
    ⟨rfl, rfl, rfl, rfl, rfl, rfl, rfl⟩
  refine ⟨hblind (by decide +kernel) (hshares r) honly honly' (by decide +kernel) hexecuted, ?_⟩
  exact (hmuted r louder asked asked' (r.fulfil_setsSound rfl).symm (by decide +kernel)).1

end Run

end Chip8
