import Chip8.Proofs.LoopSteps

/-!
The machine and its keypad agree about the wait for a key. A running machine has nothing armed
and nothing on its way. A machine that waits does so for a register it has, and then exactly one
of three things is the case: the keypad listens, the keypad has caught a key, or a key is held
back. This holds in every reachable state.
-/

namespace Chip8

/-- Where the key stands that a machine waits for. -/
inductive Machine.Awaits {σ : Type} (m : Machine σ) : Prop
  | listening (hwaiting : m.keypad.waiting = true) (hpending : m.keypad.pending = none)
      (hheld : m.heldKey = none)
  | caught (key : UInt8) (hlt : key.toNat < 16) (hwaiting : m.keypad.waiting = false)
      (hpending : m.keypad.pending = some key) (hheld : m.heldKey = none)
  | held (key : UInt8) (hlt : key.toNat < 16) (hwaiting : m.keypad.waiting = false)
      (hpending : m.keypad.pending = none) (hheld : m.heldKey = some key)

/-- The machine and its keypad agree about the wait. -/
structure Machine.KeysAgree {σ : Type} (m : Machine σ) : Prop where
  idle : m.mode = .running →
    m.keypad.waiting = false ∧ m.keypad.pending = none ∧ m.heldKey = none
  register_lt : ∀ x, m.mode = .waitingForKey x → x.toNat < 16
  awaits : ∀ x, m.mode = .waitingForKey x → m.Awaits

namespace Machine

variable {σ : Type}

theorem Awaits.transit_none {m : Machine σ} (h : m.Awaits) (htransit : m.transit = none) :
    m.keypad.waiting = true ∧ m.keypad.pending = none ∧ m.heldKey = none := by
  cases h with
  | listening hwaiting hpending hheld => exact ⟨hwaiting, hpending, hheld⟩
  | caught key hlt hwaiting hpending hheld => simp [transit, hpending, hheld] at htransit
  | held key hlt hwaiting hpending hheld => simp [transit, hpending, hheld] at htransit

theorem KeysAgree.fresh (settings : Settings) (random : Random.Source) (display : σ) :
    (fresh settings random display).KeysAgree where
  idle _ := ⟨rfl, rfl, rfl⟩
  register_lt _ h := by cases h
  awaits _ h := by cases h

theorem KeysAgree.reset [Display σ] (m : Machine σ) : m.reset.KeysAgree := by
  rw [reset_eq_fresh]
  exact KeysAgree.fresh m.settings m.random (Display.refresh m.display .blank)

/-- Whatever leaves the mode, the keypad and the held key alone keeps the agreement. -/
theorem KeysAgree.congr {m m' : Machine σ} (h : m.KeysAgree) (hmode : m'.mode = m.mode)
    (hkeypad : m'.keypad = m.keypad) (hheld : m'.heldKey = m.heldKey) : m'.KeysAgree where
  idle hrunning := by
    rw [hkeypad, hheld]
    exact h.idle (hmode ▸ hrunning)
  register_lt x hx := h.register_lt x (hmode ▸ hx)
  awaits x hx := by
    cases h.awaits x (hmode ▸ hx) with
    | listening hw hp hh => exact .listening (hkeypad ▸ hw) (hkeypad ▸ hp) (hheld ▸ hh)
    | caught key hlt hw hp hh => exact .caught key hlt (hkeypad ▸ hw) (hkeypad ▸ hp) (hheld ▸ hh)
    | held key hlt hw hp hh => exact .held key hlt (hkeypad ▸ hw) (hkeypad ▸ hp) (hheld ▸ hh)

theorem KeysAgree.onKeypad {m : Machine σ} (h : m.KeysAgree) (change : Keypad → Keypad)
    (hwaiting : (change m.keypad).waiting = m.keypad.waiting)
    (hpending : (change m.keypad).pending = m.keypad.pending) :
    (m.onKeypad change).KeysAgree where
  idle hrunning := by
    obtain ⟨hw, hp, hh⟩ := h.idle hrunning
    exact ⟨hwaiting.trans hw, hpending.trans hp, hh⟩
  register_lt := h.register_lt
  awaits x hx := by
    cases h.awaits x hx with
    | listening hw hp hh => exact .listening (hwaiting.trans hw) (hpending.trans hp) hh
    | caught key hlt hw hp hh =>
        exact .caught key hlt (hwaiting.trans hw) (hpending.trans hp) hh
    | held key hlt hw hp hh => exact .held key hlt (hwaiting.trans hw) (hpending.trans hp) hh

/-- A fresh press is caught by a keypad that listens; any other leaves alone what was caught. -/
theorem KeysAgree.press {m : Machine σ} (h : m.KeysAgree) (key : UInt8) :
    (m.onKeypad fun k => k.press key).KeysAgree := by
  cases hcatches : m.keypad.catches key with
  | false =>
      refine h.onKeypad _ ?_ ?_
      · unfold Keypad.press
        rw [hcatches]
        split <;> rfl
      · unfold Keypad.press
        rw [hcatches]
        split <;> rfl
  | true =>
      have hcatch := hcatches
      simp only [Keypad.catches, Bool.and_eq_true, decide_eq_true_eq, Option.isNone_iff_eq_none]
        at hcatch
      obtain ⟨⟨⟨hlt, _⟩, hlistens⟩, hnone⟩ := hcatch
      have hpress : m.keypad.press key =
          {m.keypad with keys := m.keypad.keys.set key.toNat true, waiting := false,
                         pending := some key} := by
        simp only [Keypad.press, hlt, hcatches, dif_pos, if_true]
      exact {
        idle := fun hrunning => by
          have hidle := (h.idle hrunning).1
          rw [hlistens] at hidle
          cases hidle
        register_lt := h.register_lt
        awaits := fun x hx => by
          cases h.awaits x hx with
          | listening hw hp hh =>
              exact .caught key hlt (by simp [Machine.onKeypad, hpress])
                (by simp [Machine.onKeypad, hpress]) hh
          | caught _ _ hw _ _ | held _ _ hw _ _ => rw [hlistens] at hw; cases hw }

theorem KeysAgree.release {m : Machine σ} (h : m.KeysAgree) (key : UInt8) :
    (m.onKeypad fun k => k.release key).KeysAgree := by
  refine h.onKeypad _ ?_ ?_
  · unfold Keypad.release
    split <;> rfl
  · unfold Keypad.release
    split <;> rfl

/-- An instruction that a running machine executes keeps the agreement: the one that waits for
a key finds nothing on its way. -/
theorem KeysAgree.executed [Display σ] {m : Machine σ} (h : m.KeysAgree)
    (hmode : m.mode = .running) (op : Opcode) : (m.executed (.decode op)).KeysAgree := by
  by_cases hawait : ∃ x, Instruction.decode op = .awaitKey x
  · obtain ⟨x, hx⟩ := hawait
    have hmem : x ∈ (Instruction.decode op).registers := by
      rw [hx]
      exact List.mem_singleton.2 rfl
    have hlt : x.toNat < 16 := Instruction.toNat_lt_of_mem_registers_decode hmem
    rw [hx, executed_awaitKey]
    exact {
      idle := fun hrunning => by cases hrunning
      register_lt := fun y hy => by cases hy; exact hlt
      awaits := fun _ _ => .listening rfl rfl (h.idle hmode).2.2 }
  · have hne : ∀ x, Instruction.decode op ≠ .awaitKey x := fun x hx => hawait ⟨x, hx⟩
    exact h.congr (executed_mode m _ hne) (executed_keypad m _ hne) (executed_heldKey m _)

/-- The machine that goes on behind a wait, with nothing left on its way. -/
def served (m : Machine σ) (x key : UInt8) : Machine σ :=
  {m with
    registers := {m.registers.set (slot x) key with pc := m.registers.pc + 2}
    mode := .running
    heldKey := none
    keypad.pending := none}

theorem KeysAgree.resumed_eq {m : Machine σ} (h : m.KeysAgree) {x key : UInt8}
    (hmode : m.mode = .waitingForKey x) (htransit : m.transit = some key) :
    m.withoutTransit.resumed x key = m.served x key := by
  cases h.awaits x hmode with
  | listening hw hp hh => simp [transit, hp, hh] at htransit
  | caught _ _ _ hp hh => simp [withoutTransit, resumed, served, hh]
  | held _ _ _ hp hh => simp [withoutTransit, resumed, served, hh, ← hp]

/-- A cycle of a machine that agrees with its keypad never fails. -/
theorem KeysAgree.step [Display σ] {m : Machine σ} (h : m.KeysAgree) :
    ∃ cycle m', Machine.step m = .ok cycle m' ∧ m'.KeysAgree := by
  cases hmode : m.mode with
  | running =>
      have hfetched : m.fetched.KeysAgree := h.congr rfl rfl rfl
      exact ⟨_, _, step_running hmode, hfetched.executed hmode m.nextOpcode⟩
  | waitingForKey x =>
      cases htransit : m.transit with
      | none => exact ⟨_, _, step_waiting_none hmode htransit, h⟩
      | some key =>
          refine ⟨_, _, step_waiting_some hmode (h.register_lt x hmode) htransit, ?_⟩
          rw [h.resumed_eq hmode htransit]
          exact {
            idle := fun _ => ⟨by
              cases h.awaits x hmode with
              | listening hw hp hh => simp [transit, hp, hh] at htransit
              | caught _ _ hw _ _ | held _ _ hw _ _ => exact hw, rfl, rfl⟩
            register_lt := fun _ hx => by cases hx
            awaits := fun _ hx => by cases hx }

end Machine

namespace Run

variable {σ : Type} [Display σ]

inductive Advanced (r : Run σ) : Prop
  | still (hmachine : r.advance.machine = r.machine)
      (hphase : ∀ cause, r.advance.phase = .crashed cause → r.phase = .crashed cause)
  | cycle (c : Machine.Cycle) (hbegins : r.begins = true ∨ r.machine.mode ≠ .running)
      (hstep : Machine.step r.machine = .ok c r.advance.machine)
      (hphase : ∀ cause, r.advance.phase ≠ .crashed cause)
  | heldBack (x key : UInt8) (hmode : r.machine.mode = .waitingForKey x)
      (hpending : r.machine.keypad.pending = some key)
      (hmachine : r.advance.machine =
        {r.machine with keypad.pending := none, heldKey := some key})
      (hphase : r.advance.phase = .ready)

theorem advance_cases_blocked {r : Run σ} {stepping : Bool} (h : r.machine.KeysAgree)
    (hphase : r.phase = .blocked stepping) : r.Advanced := by
  have hadvance := advance_of_blocked hphase
  have hquiet : r.machine.keypad.pending = none → r.Advanced := fun hpending => by
    rw [takeFromKeypad_of_none hpending] at hadvance
    refine .still (by rw [hadvance]) fun cause hcause => ?_
    rw [hadvance] at hcause
    cases hcancelled : r.machine.keypad.cancelled <;> simp [hcancelled] at hcause
  cases hmode : r.machine.mode with
  | running => exact hquiet (h.idle hmode).2.1
  | waitingForKey x =>
      cases h.awaits x hmode with
      | listening _ hpending _ | held _ _ _ hpending _ => exact hquiet hpending
      | caught key _ _ hpending hheld =>
          cases hgoes : !stepping && r.panel.paused with
          | false =>
              obtain ⟨c, m, hstep, -⟩ := h.step
              have hfollows := takeFromKeypad_follows hmode hheld hgoes
              rw [hstep, ← hadvance] at hfollows
              obtain ⟨rfl, hcrash⟩ := hfollows.ok
              exact .cycle c (.inr (by rw [hmode]; nofun)) hstep hcrash
          | true =>
              simp only [Bool.and_eq_true, Bool.not_eq_true'] at hgoes
              obtain ⟨rfl, hpaused⟩ := hgoes
              rw [takeFromKeypad_of_paused hpending hpaused] at hadvance
              exact .heldBack x key hmode hpending (by rw [hadvance, complete_machine])
                (by rw [hadvance, complete_phase])

/-- A step of the loop leaves the machine alone, does what a cycle does, or holds back a key. -/
theorem advance_cases {r : Run σ} (h : r.machine.KeysAgree) : r.Advanced := by
  cases hphase : r.phase with
  | ended | crashed cause =>
      have hsame : r.advance = r := advance_of_isOver (by simp [isOver, hphase])
      exact .still (by rw [hsame]) (by rw [hsame]; exact fun _ => id)
  | blocked stepping => exact advance_cases_blocked h hphase
  | ready =>
      cases hbegins : r.begins with
      | true =>
          obtain ⟨c, m, hstep, -⟩ := h.step
          have hfollows := advance_follows hbegins
          rw [hstep] at hfollows
          obtain ⟨rfl, hcrash⟩ := hfollows.ok
          exact .cycle c (.inl hbegins) hstep hcrash
      | false =>
          rcases advance_of_not_begins hphase hbegins with hsame | hended
          · exact .still (by rw [hsame]) (by rw [hsame]; exact fun _ => id)
          · exact .still (by rw [hended]) (by rw [hended]; nofun)

/-- What stays true of a run whatever happens: its machine agrees with the keypad, and its loop
has not broken down. -/
structure Sound (r : Run σ) : Prop where
  keysAgree : r.machine.KeysAgree
  phase_ne : ∀ cause, r.phase ≠ .crashed cause

omit [Display σ] in
theorem Sound.withMachine {r : Run σ} (h : r.Sound) {m : Machine σ} (hm : m.KeysAgree) :
    Sound {r with machine := m} :=
  ⟨hm, h.phase_ne⟩

theorem Sound.advance {r : Run σ} (h : r.Sound) : r.advance.Sound := by
  cases advance_cases h.keysAgree with
  | still hmachine hphase =>
      refine ⟨?_, fun cause hcause => h.phase_ne cause (hphase cause hcause)⟩
      rw [hmachine]
      exact h.keysAgree
  | cycle c _ hstep hphase =>
      obtain ⟨_, m, hok, hagree⟩ := h.keysAgree.step
      rw [hstep] at hok
      cases hok
      exact ⟨hagree, hphase⟩
  | heldBack x key hmode hpending hmachine hphase =>
      refine ⟨?_, fun cause => by rw [hphase]; nofun⟩
      rw [hmachine]
      have hlt := h.keysAgree.register_lt x hmode
      exact {
        idle := fun hrunning => by rw [hmode] at hrunning; cases hrunning
        register_lt := fun y hy => h.keysAgree.register_lt y hy
        awaits := fun _ _ => by
          cases h.keysAgree.awaits x hmode with
          | listening _ hp _ | held _ _ _ hp _ => rw [hpending] at hp; cases hp
          | caught k hk hw hp _ =>
              cases hpending.symm.trans hp
              exact .held key hk hw rfl rfl }

theorem Sound.step {r : Run σ} (h : r.Sound) : (r.occur .step).Sound := by
  obtain ⟨c, m, hstep, hagree⟩ := h.keysAgree.step
  simp only [occur, onMachine, Machine.afterwards, hstep]
  exact h.withMachine hagree

theorem Sound.occur {r : Run σ} (h : r.Sound) (e : Event) : (r.occur e).Sound := by
  have hkeys := h.keysAgree
  cases e with
  | advance => exact h.advance
  | step => exact h.step
  | press key => exact h.withMachine (hkeys.press key)
  | release key => exact h.withMachine (hkeys.release key)
  | cancel => exact h.withMachine (hkeys.onKeypad Keypad.cancel rfl rfl)
  | clearCancellation =>
      exact h.withMachine (hkeys.onKeypad Keypad.clearCancellation rfl rfl)
  | panel action => exact ⟨hkeys, h.phase_ne⟩
  | tick | setDelay value | setSound value => exact h.withMachine (hkeys.congr rfl rfl rfl)
  | start panel => exact ⟨hkeys, nofun⟩

/-- Nor does an operation. An instruction is executed directly only while the machine runs. -/
theorem Sound.operate {r : Run σ} (h : r.Sound) (o : Operation) : (r.operate o).Sound := by
  have hkeys := h.keysAgree
  cases o with
  | event e => exact h.occur e
  | reset => exact h.withMachine (Machine.KeysAgree.reset r.machine)
  | load program =>
      simp only [Run.operate, onMachine, Machine.load]
      cases r.machine.memory.loadProgram program with
      | ok memory => exact h.withMachine (hkeys.congr rfl rfl rfl)
      | error failure => exact h
  | execute op =>
      simp only [Run.operate, onMachine]
      cases hmode : r.machine.mode with
      | waitingForKey x => exact h
      | running =>
          simp only [Machine.afterwards, Machine.execute_decode]
          exact h.withMachine (hkeys.executed hmode op)

/-- The agreement holds in every reachable state. -/
theorem Reachable.sound {r : Run σ} (h : r.Reachable) : r.Sound := by
  induction h with
  | start settings random display panel => exact ⟨Machine.KeysAgree.fresh .., nofun⟩
  | operate _ o ih => exact ih.operate o

end Run

end Chip8
