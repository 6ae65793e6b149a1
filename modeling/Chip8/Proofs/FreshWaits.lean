import Chip8.Proofs.KeysOnWay

/-!
The begin of a wait for a key. A wait that begins with nothing on its way is ended by a later press
only. An instruction that waits clears one of the two places where a key may be, the keypad. The
other is left, but it is empty whenever the machine executes what it has fetched itself: a key is
held back only while the machine waits.
-/

namespace Chip8

open scoped List

/-- A machine waits for a key, and nothing has come to the keypad since it began to. -/
structure Machine.Listens {σ : Type} (m : Machine σ) (x : UInt8) : Prop where
  mode : m.mode = .waitingForKey x
  waiting : m.keypad.waiting = true
  pending : m.keypad.pending = none

namespace Machine

variable {σ : Type} [Display σ]

omit [Display σ] in
theorem Listens.mode_ne {m : Machine σ} {x : UInt8} (h : m.Listens x) : m.mode ≠ .running := by
  simp [h.mode]

omit [Display σ] in
theorem listens_beginWait (m : Machine σ) (x : UInt8) : (beginWait x m).Listens x :=
  ⟨rfl, rfl, rfl⟩

theorem completed_cons_of_none {i : Instruction} (h : i.fault? = none) (m : Machine σ)
    (rest : List Instruction) : m.completed (i :: rest) = i :: (m.executed i).completed rest := by
  simp only [completed, execute_of_none h]

theorem completed_cons_of_some {i : Instruction} {fault : Fault} (h : i.fault? = some fault)
    (m : Machine σ) (rest : List Instruction) : m.completed (i :: rest) = [] := by
  simp only [completed, execute_of_some h]

/-- If no instruction is executed there is no new wait either. -/
theorem executeAll_of_completed_nil {m : Machine σ} {instructions : List Instruction}
    (h : m.completed instructions = []) :
    (afterwards (executeAll instructions) m).mode = m.mode ∧
      (afterwards (executeAll instructions) m).keypad = m.keypad := by
  cases instructions with
  | nil => exact ⟨rfl, rfl⟩
  | cons i rest =>
      cases hfault : i.fault? with
      | none =>
          rw [completed_cons_of_none hfault] at h
          cases h
      | some fault =>
          rw [afterwards, executeAll_cons_of_some hfault]
          exact m.interrupted_keys i

theorem listens_of_completed {m : Machine σ} {instructions : List Instruction} {x : UInt8}
    (h : (m.completed instructions).getLast? = some (.awaitKey x)) :
    (afterwards (executeAll instructions) m).Listens x := by
  induction instructions generalizing m with
  | nil => cases h
  | cons i rest ih =>
      cases hfault : i.fault? with
      | some fault =>
          rw [completed_cons_of_some hfault] at h
          cases h
      | none =>
          rw [completed_cons_of_none hfault, List.getLast?_cons, Option.some_inj] at h
          rw [afterwards, executeAll_cons_of_none hfault]
          cases hlast : ((m.executed i).completed rest).getLast? with
          | some j =>
              rw [hlast] at h
              exact ih (hlast.trans (congrArg some h))
          | none =>
              rw [hlast] at h
              obtain rfl : i = .awaitKey x := h
              have hnone := List.getLast?_eq_none_iff.1 hlast
              obtain ⟨hmode, hkeypad⟩ := executeAll_of_completed_nil hnone
              have hbegun := m.listens_beginWait x
              have hwaiting := congrArg Keypad.waiting hkeypad
              have hpending := congrArg Keypad.pending hkeypad
              exact ⟨hmode.trans hbegun.mode, hwaiting.trans hbegun.waiting,
                hpending.trans hbegun.pending⟩

end Machine

namespace Run

variable {σ : Type} [Display σ]

/-- When an instruction that waits is the last one a request executes, the machine listens, and the
key that it held back before it holds back still. -/
theorem listens_of_completed {r : Run σ} {q : Request} {x : UInt8}
    (h : (r.completed q).getLast? = some (.awaitKey x)) :
    (r.fulfil q).machine.Listens x ∧ (r.fulfil q).machine.heldKey = r.machine.heldKey := by
  have hbegun := r.machine.fetched.listens_beginWait x
  have hrunning (hlast : r.machine.upcoming.toList.getLast? = some (.awaitKey x)) :
      r.machine.mode = .running ∧ Instruction.decode r.machine.nextOpcode = .awaitKey x := by
    unfold Machine.upcoming at hlast
    cases hmode : r.machine.mode with
    | running =>
        rw [hmode] at hlast
        exact ⟨rfl, Option.some.inj hlast⟩
    | waitingForKey y =>
        rw [hmode] at hlast
        cases hlast
  cases q with
  | step =>
      obtain ⟨hmode, hdecode⟩ := hrunning h
      have hstep : (r.fulfil .step).machine = Machine.beginWait x r.machine.fetched := by
        rw [← r.machine.fetched.executed_awaitKey x, ← hdecode]
        simp only [fulfil, onMachine, Machine.afterwards, Machine.step_running hmode]
      rw [hstep]
      exact ⟨hbegun, rfl⟩
  | advance meanwhile =>
      cases r.stepped fun _ => .acts meanwhile with
      | begun panel stepping hbegins hstep =>
          rw [completed, if_pos hbegins] at h
          obtain ⟨hmode, hdecode⟩ := hrunning h
          have hcycle := hstep.trans (begin_of_running _ stepping hmode)
          have hmachine : (r.fulfil (.advance meanwhile)).machine =
              Machine.beginWait x r.machine.fetched := by
            rw [fulfil, hcycle]
            simp only [cycle, Machine.step_running hmode, hdecode]
            exact complete_machine _
          rw [hmachine]
          exact ⟨hbegun, rfl⟩
      | takenUp stepping hbegins | left hbegins | still hbegins =>
          simp [completed, hbegins] at h
  | execute i =>
      have hlistens := Machine.listens_of_completed h
      rw [Machine.afterwards_executeAll_single] at hlistens
      exact ⟨hlistens, (Machine.Instructed.execute r.machine i).heldKey⟩
  | executeAll instructions =>
      exact ⟨Machine.listens_of_completed h,
        (Machine.Instructed.executeAll r.machine instructions).heldKey⟩
  | act action | tick | setDelay value | setSound value | start panel | load program | reset =>
      cases h

/-! A wait goes on until a key is delivered. -/

theorem waits_on {r : Run σ} {q : Request} (hwaits : r.machine.mode ≠ .running)
    (hreset : q ≠ .reset) (hnone : r.delivered q = none) :
    (r.fulfil q).machine.mode ≠ .running := by
  intro hrunning
  have hreceived : r.delivered q = r.machine.received (r.fulfil q).machine := by
    cases q with
    | reset => exact absurd rfl hreset
    | _ => rfl
  cases hmode : r.machine.mode with
  | running => exact hwaits hmode
  | waitingForKey x =>
      rw [hreceived, Machine.received, hmode, hrunning] at hnone
      cases hnone

theorem waits_through {r : Run σ} {requests : List Request}
    (hwaits : r.machine.mode ≠ .running) (hreset : .reset ∉ requests)
    (hnone : r.deliveredAll requests = []) :
    (r.fulfilAll requests).machine.mode ≠ .running := by
  induction requests generalizing r with
  | nil => exact hwaits
  | cons q rest ih =>
      obtain ⟨hfirst, hrest⟩ := List.append_eq_nil_iff.1 hnone
      rw [List.mem_cons, not_or] at hreset
      apply ih _ hreset.2 hrest
      apply waits_on hwaits (Ne.symm hreset.1)
      exact Option.toList_eq_nil_iff.1 hfirst

theorem response_step_of_waiting {r : Run σ} (hwaits : r.machine.mode ≠ .running)
    (hway : r.machine.keysOnWay = []) : r.response .step = .cycle (.ok .waiting) := by
  have htransit : r.machine.transit = none := by
    rw [← r.machine.keysOnWay_head?, hway]
    rfl
  cases hmode : r.machine.mode with
  | running => exact absurd hmode hwaits
  | waitingForKey x =>
      simp only [response, Machine.outcome, Machine.step_waiting_none hmode htransit]

theorem response_step_of_held {r : Run σ} {x key : UInt8}
    (hmode : r.machine.mode = .waitingForKey x) (hx : x.toNat < 16)
    (hheld : r.machine.heldKey = some key) :
    r.response .step = .cycle (.ok (.resumed key)) := by
  have htransit := Machine.transit_of_held hheld
  simp only [response, Machine.outcome, Machine.step_waiting_some hmode hx htransit]

end Run

/-! A key is held back only while the machine waits. -/

namespace Machine

variable {σ : Type}

theorem withoutTransit_heldKey (m : Machine σ) : m.withoutTransit.heldKey = none := by
  unfold withoutTransit
  split
  · rfl
  · next hheld => exact hheld

/-- A cycle leaves no key held back in a machine that runs after it. -/
theorem heldKey_step [Display σ] {m : Machine σ} (h : m.mode = .running → m.heldKey = none)
    (hrunning : (afterwards step m).mode = .running) : (afterwards step m).heldKey = none := by
  cases hmode : m.mode with
  | running =>
      rw [afterwards, step_running hmode]
      exact (executed_heldKey m.fetched _).trans (h hmode)
  | waitingForKey x =>
      cases htransit : m.transit with
      | none =>
          rw [afterwards, step_waiting_none hmode htransit] at hrunning
          cases hmode.symm.trans hrunning
      | some key =>
          have hmode' := m.withoutTransit_mode.trans hmode
          rw [afterwards, step_waiting hmode htransit]
          by_cases hx : x.toNat < 16
          · rw [deliver_of_lt hmode' hx]
            exact m.withoutTransit_heldKey
          · rw [deliver_of_le hmode' hx]
            exact m.withoutTransit_heldKey

end Machine

namespace Run

variable {σ : Type} [Display σ]

/-- Whether a request leaves the machine to the loop while that is inside a wait. -/
def Leaves (r : Run σ) : Request → Prop
  | .step | .reset => ∀ stepping, r.phase ≠ .blocked stepping
  | _ => True

/-- What can become of a fresh machine by requests, whatever they are, if it is left to the loop
while that is inside a wait. -/
inductive Obtained : Run σ → Prop
  | start (settings : Settings) (random : Random.Source) (display : σ) (panel : Panel) :
      Obtained (start (.fresh settings random display) panel)
  | fulfil {r : Run σ} (h : Obtained r) (q : Request) (hleaves : r.Leaves q) :
      Obtained (r.fulfil q)

/-- A key is held back only in a machine that waits, and not while the loop is inside that wait. -/
structure HeldInWait (r : Run σ) : Prop where
  running : r.machine.mode = .running → r.machine.heldKey = none
  blocked : ∀ stepping, r.phase = .blocked stepping →
    r.machine.mode ≠ .running ∧ r.machine.heldKey = none

namespace HeldInWait

variable {r : Run σ}

omit [Display σ]

/-- Whatever leaves the mode, the held key and the phase alone makes no difference. -/
theorem congr {r' : Run σ} (h : r.HeldInWait) (hmode : r'.machine.mode = r.machine.mode)
    (hheld : r'.machine.heldKey = r.machine.heldKey) (hphase : r'.phase = r.phase) :
    r'.HeldInWait := by
  refine ⟨?_, ?_⟩
  · rw [hmode, hheld]
    exact h.running
  · rw [hmode, hheld, hphase]
    exact h.blocked

theorem onMachine (h : r.HeldInWait) {m : Machine σ} (hm : r.machine.Instructed m) :
    HeldInWait {r with machine := m} where
  running hrunning := hm.heldKey.trans (h.running (hm.running hrunning))
  blocked stepping hphase := by
    obtain ⟨hwaits, hheld⟩ := h.blocked stepping hphase
    exact ⟨fun hrunning => hwaits (hm.running hrunning), hm.heldKey.trans hheld⟩

theorem of_phase (hphase : ∀ stepping, r.phase ≠ .blocked stepping)
    (hrunning : r.machine.mode = .running → r.machine.heldKey = none) : r.HeldInWait :=
  ⟨hrunning, fun stepping hblocked => absurd hblocked (hphase stepping)⟩

theorem receive (hwaits : r.machine.mode ≠ .running) (hheld : r.machine.heldKey = none)
    (stepping : Bool) (key : UInt8) : (r.receive stepping key).HeldInWait := by
  unfold Run.receive
  split
  · apply of_phase
    · simp [complete_phase]
    · rw [complete_machine]
      exact fun hrunning => absurd hrunning hwaits
  · cases hmode : r.machine.mode with
    | running => exact absurd hmode hwaits
    | waitingForKey x =>
        by_cases hx : x.toNat < 16
        · rw [Machine.deliver_of_lt hmode hx]
          apply of_phase
          · simp [complete_phase]
          · rw [complete_machine]
            exact fun _ => hheld
        · rw [Machine.deliver_of_le hmode hx]
          exact of_phase (by simp) fun _ => hheld

theorem takeFromKeypad (hwaits : r.machine.mode ≠ .running) (hheld : r.machine.heldKey = none)
    (stepping : Bool) : (r.takeFromKeypad stepping).HeldInWait := by
  cases hpending : r.machine.keypad.pending with
  | none =>
      rw [takeFromKeypad_of_none hpending]
      exact ⟨fun _ => hheld, fun _ _ => ⟨hwaits, hheld⟩⟩
  | some key =>
      rw [takeFromKeypad_of_some hpending]
      exact receive (r := {r with machine.keypad.pending := none}) hwaits hheld stepping key

variable [Display σ]

omit [Display σ] in
theorem actAll_heldKey (r : Run σ) (actions : List Action) :
    (r.actAll actions).machine.heldKey = r.machine.heldKey := by
  induction actions generalizing r with
  | nil => rfl
  | cons action rest ih =>
      apply (ih (r.act action)).trans
      cases action <;> rfl

theorem cycle_keeps (hmode : r.machine.mode = .running) (meanwhile : List Action) :
    (r.cycle fun _ => .acts meanwhile).phase = .ready ∧
      (r.cycle fun _ => .acts meanwhile).machine.heldKey = r.machine.heldKey := by
  have hexecuted := r.machine.fetched.executed_heldKey (.decode r.machine.nextOpcode)
  unfold Run.cycle
  rw [Machine.step_running hmode]
  dsimp only
  split
  · rw [complete_phase, complete_machine, actAll_heldKey]
    exact ⟨rfl, hexecuted⟩
  · rw [complete_phase, complete_machine]
    exact ⟨rfl, hexecuted⟩

theorem begin (hrunning : r.machine.mode = .running → r.machine.heldKey = none)
    (meanwhile : List Action) (stepping : Bool) :
    (r.begin (fun _ => .acts meanwhile) stepping).HeldInWait := by
  cases hmode : r.machine.mode with
  | running =>
      obtain ⟨hphase, hheld⟩ := cycle_keeps hmode meanwhile
      rw [begin_of_running _ stepping hmode]
      apply of_phase
      · simp [hphase]
      · rw [hheld]
        exact fun _ => hrunning hmode
  | waitingForKey x =>
      have hwaits : r.machine.mode ≠ .running := by simp [hmode]
      cases hheld : r.machine.heldKey with
      | none =>
          rw [begin_of_not_held _ stepping hmode hheld]
          exact takeFromKeypad hwaits hheld stepping
      | some key =>
          rw [begin_of_held _ stepping hmode hheld]
          exact receive (r := {r with machine.heldKey := none}) hwaits rfl stepping key

theorem advanceWith (h : r.HeldInWait) (meanwhile : List Action) :
    (r.advanceWith fun _ => .acts meanwhile).HeldInWait := by
  cases r.stepped fun _ => .acts meanwhile with
  | begun panel stepping hbegins hstep =>
      rw [hstep]
      exact begin (r := {r with panel}) h.running meanwhile stepping
  | takenUp stepping hbegins hphase hstep =>
      obtain ⟨hwaits, hheld⟩ := h.blocked stepping hphase
      rw [hstep]
      exact takeFromKeypad hwaits hheld stepping
  | left hbegins hstep =>
      rw [hstep]
      exact of_phase (by simp) h.running
  | still hbegins hstep =>
      rw [hstep]
      exact h

theorem fulfil (h : r.HeldInWait) {q : Request} (hleaves : r.Leaves q) :
    (r.fulfil q).HeldInWait := by
  cases q with
  | advance meanwhile => exact h.advanceWith meanwhile
  | step => exact of_phase hleaves (Machine.heldKey_step h.running)
  | reset =>
      simp only [Run.fulfil, Run.onMachine]
      exact of_phase hleaves fun _ => rfl
  | execute i => exact h.onMachine (.execute r.machine i)
  | executeAll instructions => exact h.onMachine (.executeAll r.machine instructions)
  | start panel => exact of_phase (by simp [Run.fulfil, Run.start]) h.running
  | act action => cases action <;> exact h.congr rfl rfl rfl
  | load program =>
      simp only [Run.fulfil, Run.onMachine, Machine.load]
      cases r.machine.memory.loadProgram program with
      | ok memory => exact h.congr rfl rfl rfl
      | error failure => exact h
  | tick | setDelay value | setSound value => exact h.congr rfl rfl rfl

end HeldInWait

theorem Obtained.heldInWait {r : Run σ} (h : r.Obtained) : r.HeldInWait := by
  induction h with
  | start settings random display panel => exact .of_phase (by simp [Run.start]) fun _ => rfl
  | fulfil _ q hleaves ih => exact ih.fulfil hleaves

/-- A wait for a key starts fresh if no key is held back when the instruction is executed, as none
ever is in a machine that runs. Then whatever is asked of the run afterwards, the keys it delivers
are among the presses caught since, and as long as there was none the next cycle finds none. A key
that is held back, though, ends the new wait at once. -/
theorem key_wait_starts_fresh (r : Run σ) {q : Request} {x : UInt8}
    (hq : (r.completed q).getLast? = some (.awaitKey x)) :
    let w := r.fulfil q
    w.machine.Listens x ∧
      (r.machine.heldKey = none ∨ r.Obtained ∧ r.machine.mode = .running →
        ∀ later : List Request, w.deliveredAll later <+~ w.caughtAll later ∧
          (w.caughtAll later = [] → .reset ∉ later →
            (w.fulfilAll later).response .step = .cycle (.ok .waiting))) ∧
      ∀ key, r.machine.heldKey = some key → x.toNat < 16 →
        w.response .step = .cycle (.ok (.resumed key)) := by
  intro w
  obtain ⟨hlistens, hkept⟩ := listens_of_completed hq
  refine ⟨hlistens, ?_, ?_⟩
  · intro hfree later
    have hheld : w.machine.heldKey = none := by
      rw [hkept]
      obtain hnone | ⟨hobtained, hrunning⟩ := hfree
      · exact hnone
      · exact hobtained.heldInWait.running hrunning
    have hway : w.machine.keysOnWay = [] := by
      rw [Machine.keysOnWay, hheld, hlistens.pending]
      rfl
    have haccounts := w.fulfilAll_accounts later
    rw [hway, List.nil_append] at haccounts
    refine ⟨(List.sublist_append_left _ _).subperm.trans haccounts, ?_⟩
    intro hquiet hreset
    rw [hquiet, List.subperm_nil, List.append_eq_nil_iff] at haccounts
    have hwaits := waits_through hlistens.mode_ne hreset haccounts.1
    exact response_step_of_waiting hwaits haccounts.2
  · intro key hkey hx
    exact response_step_of_held hlistens.mode hx (hkept.trans hkey)

/-- A wait is begun anew when a key was caught for it already. The key does not count, nor does it
when it is pressed again without having been released, and the one that is pressed then does. -/
theorem key_wait_starts_fresh_after_catch :
    let r := (loaded [0xFA, 0x0A]).fulfilAll [.advance [], .act (.keypad (.press 5))]
    let w := r.fulfil (.execute (.awaitKey 3))
    let later : List Request :=
      [.act (.keypad (.press 5)), .step, .act (.panel .pause), .advance []]
    let more := later ++ [.act (.keypad (.press 7)), .step]
    r.machine.keypad.pending = some 5 ∧
      (w.fulfilAll later).response .step = .cycle (.ok .waiting) ∧
      w.deliveredAll more <+~ [7] ∧ (w.fulfilAll more).machine.registers.get 3 = 7 := by
  intro r w later more
  obtain ⟨hcaught, hheld, hcompleted⟩ : r.machine.keypad.pending = some 5 ∧
      r.machine.heldKey = none ∧
      (r.completed (.execute (.awaitKey 3))).getLast? = some (.awaitKey 3) := by
    decide +kernel
  obtain ⟨hquiet, hpressed, hregister⟩ : w.caughtAll later = [] ∧ w.caughtAll more = [7] ∧
      (w.fulfilAll more).machine.registers.get 3 = 7 := by
    decide +kernel
  obtain ⟨-, hfresh, -⟩ := key_wait_starts_fresh r hcompleted
  have hdelivered := (hfresh (.inl hheld) more).1
  rw [hpressed] at hdelivered
  exact ⟨hcaught, (hfresh (.inl hheld) later).2 hquiet (by decide), hdelivered, hregister⟩

/-- A key came while the run was paused and is held back. A wait that is begun anew then does not
start fresh: the next cycle delivers that key, though nothing was pressed since. -/
theorem key_wait_not_fresh_with_held_key :
    let r := (loaded [0xF3, 0x0A]).occurAll [.advance, .advance, .panel .pause, .press 5, .advance]
    let w := r.fulfil (.execute (.awaitKey 3))
    r.Reachable ∧ (r.completed (.execute (.awaitKey 3))).getLast? = some (.awaitKey 3) ∧
      w.caughtAll [.step] = [] ∧ ¬ w.deliveredAll [.step] <+~ w.caughtAll [.step] ∧
      w.response .step = .cycle (.ok (.resumed 5)) := by
  intro r w
  obtain ⟨hcompleted, hquiet, hdelivered⟩ :
      (r.completed (.execute (.awaitKey 3))).getLast? = some (.awaitKey 3) ∧
      w.caughtAll [.step] = [] ∧ w.deliveredAll [.step] = [5] := by
    decide +kernel
  obtain ⟨hmode, hheld⟩ : w.machine.mode = .waitingForKey 3 ∧ w.machine.heldKey = some 5 := by
    decide +kernel
  refine ⟨(loaded_reachable _).occurAll _, hcompleted, hquiet, ?_, ?_⟩
  · rw [hdelivered, hquiet, List.subperm_nil]
    exact List.cons_ne_nil 5 []
  · exact response_step_of_held hmode (by decide) hheld

end Run

end Chip8
