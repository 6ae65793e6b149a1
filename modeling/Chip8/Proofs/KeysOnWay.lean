import Chip8.Proofs.ByteArithmetic
import Chip8.Proofs.Calls
import Chip8.Proofs.KeypadHistories
import Mathlib.Data.List.Perm.Subperm

/-!
Keys on their way to a machine. Such a key is in one of two places: the keypad has caught it, or the
machine holds it back because it came under a pause. Whatever is asked of a run, the keys it
delivers are among those that were on their way at first and those that were caught since, and none
of them is delivered twice.
-/

namespace Chip8

open scoped List

namespace Keypad

/-- The presses that are caught among some actions, in order. -/
def caughtAmong (k : Keypad) : List Run.Action → List UInt8
  | [] => []
  | .panel _ :: rest => k.caughtAmong rest
  | .keypad c :: rest => (k.caughtBy c).toList ++ (k.perform c).2.caughtAmong rest

/-- What a keypad keeps it had kept before, or has just caught. -/
theorem pending_perform (k : Keypad) (c : Command) :
    (k.perform c).2.pending.toList <+ k.pending.toList ++ (k.caughtBy c).toList := by
  by_cases hbegin : c = .beginWait
  · subst hbegin
    exact List.nil_sublist _
  by_cases hreset : c = .reset
  · subst hreset
    exact List.nil_sublist _
  rw [perform_pending k hbegin hreset]
  split
  · exact List.nil_sublist _
  · cases k.caughtBy c with
    | none => exact List.sublist_append_left _ _
    | some key => exact List.sublist_append_right _ _

end Keypad

namespace Machine

variable {σ : Type}

/-- The keys on their way to the machine, the next one first. -/
def keysOnWay (m : Machine σ) : List UInt8 :=
  m.heldKey.toList ++ m.keypad.pending.toList

theorem keysOnWay_head? (m : Machine σ) : m.keysOnWay.head? = m.transit := by
  unfold keysOnWay transit
  rw [List.head?_append, Option.head?_toList, Option.head?_toList]

theorem cons_keysOnWay_withoutTransit {m : Machine σ} {key : UInt8} (h : m.transit = some key) :
    key :: m.withoutTransit.keysOnWay = m.keysOnWay := by
  unfold keysOnWay withoutTransit
  cases hheld : m.heldKey with
  | none =>
      rw [transit_of_not_held hheld] at h
      rw [h]
      rfl
  | some held =>
      rw [transit_of_held hheld] at h
      cases h
      rfl

/-- The key by which a wait was ended between two moments: what the register holds that it was
for. -/
def received (m m' : Machine σ) : Option UInt8 :=
  match m.mode, m'.mode with
  | .waitingForKey x, .running => some (m'.byteAt x)
  | _, _ => none

theorem received_of_mode {m m' : Machine σ} (h : m'.mode = m.mode) : m.received m' = none := by
  unfold received
  rw [h]
  cases m.mode <;> rfl

theorem received_of_running {m : Machine σ} (h : m.mode = .running) (m' : Machine σ) :
    m.received m' = none := by
  unfold received
  rw [h]

/-- Between two moments no key came from nowhere: the one that was received and those that are on
their way were on their way before or were caught meanwhile, as many times at least. -/
def Accounts (m m' : Machine σ) (caught : List UInt8) : Prop :=
  (m.received m').toList ++ m'.keysOnWay <+~ m.keysOnWay ++ caught

theorem Accounts.of_none {m m' : Machine σ} {caught : List UInt8} (hnone : m.received m' = none)
    (hkeys : m'.keysOnWay <+ m.keysOnWay ++ caught) : m.Accounts m' caught := by
  unfold Accounts
  rw [hnone]
  exact hkeys.subperm

theorem accounts_refl (m : Machine σ) : m.Accounts m [] :=
  .of_none (received_of_mode rfl) (List.sublist_append_left _ _)

/-- A key that is delivered is received, or lost. -/
theorem deliver_accounts (m : Machine σ) (key : UInt8) :
    (m.received (afterwards (deliver key) m)).toList ++ (afterwards (deliver key) m).keysOnWay <+
      key :: m.keysOnWay := by
  unfold afterwards
  cases hmode : m.mode with
  | running =>
      rw [deliver_of_running hmode]
      dsimp only
      rw [received_of_mode rfl]
      exact List.sublist_cons_self _ _
  | waitingForKey x =>
      by_cases hx : x.toNat < 16
      · have hreceived : m.received (m.resumed x key) = some key := by
          simp only [received, hmode, resumed, byteAt]
          exact congrArg some ((m.registers.get_set _ _ key).trans (if_pos rfl))
        rw [deliver_of_lt hmode hx]
        dsimp only
        rw [hreceived]
        exact List.Sublist.refl _
      · rw [deliver_of_le hmode hx]
        dsimp only
        rw [received_of_mode rfl]
        exact List.sublist_cons_self _ _

theorem interrupted_heldKey (m : Machine σ) (i : Instruction) :
    (m.interrupted i).heldKey = m.heldKey := by
  cases i with
  | loadRegisters x => simp only [interrupted, loadUpTo]
  | _ => rfl

theorem interrupted_keys (m : Machine σ) (i : Instruction) :
    (m.interrupted i).mode = m.mode ∧ (m.interrupted i).keypad = m.keypad := by
  cases i with
  | loadRegisters x => simp only [interrupted, loadUpTo, and_self]
  | _ => exact ⟨rfl, rfl⟩

/-- What instructions can do about keys: they leave the keypad alone or begin a new wait. A key that
is held back they leave in any case. -/
structure Instructed (m m' : Machine σ) : Prop where
  heldKey : m'.heldKey = m.heldKey
  waits : m'.mode = m.mode ∧ m'.keypad = m.keypad ∨
    ∃ x, m'.mode = .waitingForKey x ∧ m'.keypad = m.keypad.beginWait

namespace Instructed

variable {m m' m'' : Machine σ}

theorem refl (m : Machine σ) : m.Instructed m :=
  ⟨rfl, .inl ⟨rfl, rfl⟩⟩

theorem trans (h : m.Instructed m') (h' : m'.Instructed m'') : m.Instructed m'' := by
  refine ⟨h'.heldKey.trans h.heldKey, ?_⟩
  obtain ⟨hmode', hkeypad'⟩ | ⟨x, hmode', hkeypad'⟩ := h'.waits
  · rw [hmode', hkeypad']
    exact h.waits
  · right
    refine ⟨x, hmode', ?_⟩
    obtain ⟨-, hkeypad⟩ | ⟨y, -, hkeypad⟩ := h.waits
    · rw [hkeypad', hkeypad]
    · rw [hkeypad', hkeypad]
      rfl

theorem running (h : m.Instructed m') (hmode : m'.mode = .running) : m.mode = .running := by
  obtain ⟨hsame, -⟩ | ⟨x, hwaits, -⟩ := h.waits
  · exact hsame.symm.trans hmode
  · rw [hmode] at hwaits
    cases hwaits

theorem received (h : m.Instructed m') : m.received m' = none := by
  obtain ⟨hsame, -⟩ | ⟨x, hwaits, -⟩ := h.waits
  · exact received_of_mode hsame
  · unfold Machine.received
    rw [hwaits]
    cases m.mode <;> rfl

theorem keysOnWay (h : m.Instructed m') : m'.keysOnWay <+ m.keysOnWay := by
  unfold Machine.keysOnWay
  rw [h.heldKey]
  obtain ⟨-, hkeypad⟩ | ⟨x, -, hkeypad⟩ := h.waits
  · rw [hkeypad]
  · rw [hkeypad]
    exact (List.nil_sublist _).append_left _

theorem accounts (h : m.Instructed m') : m.Accounts m' [] :=
  .of_none h.received (h.keysOnWay.trans (List.sublist_append_left _ _))

theorem interrupted (m : Machine σ) (i : Instruction) : m.Instructed (m.interrupted i) :=
  ⟨m.interrupted_heldKey i, .inl (m.interrupted_keys i)⟩

variable [Display σ]

theorem executed (m : Machine σ) (i : Instruction) : m.Instructed (m.executed i) := by
  refine ⟨m.executed_heldKey i, ?_⟩
  by_cases hawait : ∃ x, i = .awaitKey x
  · obtain ⟨x, rfl⟩ := hawait
    exact .inr ⟨x, rfl, rfl⟩
  · have hne : ∀ x, i ≠ .awaitKey x := fun x hx => hawait ⟨x, hx⟩
    exact .inl ⟨m.executed_mode i hne, m.executed_keypad i hne⟩

theorem execute (m : Machine σ) (i : Instruction) :
    m.Instructed (afterwards (Machine.execute i) m) := by
  unfold afterwards
  rw [execute_outcome]
  cases i.fault? with
  | none => exact executed m i
  | some fault => exact interrupted m i

theorem executeAll (m : Machine σ) (instructions : List Instruction) :
    m.Instructed (afterwards (Machine.executeAll instructions) m) := by
  induction instructions generalizing m with
  | nil => exact refl m
  | cons i rest ih =>
      cases hfault : i.fault? with
      | none =>
          have hrest := ih (m.executed i)
          rw [afterwards, executeAll_cons_of_none hfault]
          exact (executed m i).trans hrest
      | some fault =>
          rw [afterwards, executeAll_cons_of_some hfault]
          exact interrupted m i

end Instructed

theorem Instructed.advanced [Display σ] (m : Machine σ) : m.Instructed m.advanced := by
  cases hmode : m.mode with
  | running =>
      rw [advanced_running hmode]
      have hexecuted := Instructed.executed m.fetched (.decode m.nextOpcode)
      exact ⟨hexecuted.heldKey, hexecuted.waits⟩
  | waitingForKey x =>
      rw [advanced_waiting hmode]
      exact Instructed.refl m

theorem received_congr {m₁ m₂ : Machine σ} (h : m₁.mode = m₂.mode) (m' : Machine σ) :
    m₁.received m' = m₂.received m' := by
  unfold received
  rw [h]

/-- The presses that are caught in a cycle among some actions, which can only be taken while a frame
is shown. -/
def caughtMeanwhile [Display σ] (m : Machine σ) (meanwhile : List Run.Action) : List UInt8 :=
  if m.upcoming.any Instruction.refreshes then m.advanced.keypad.caughtAmong meanwhile else []

theorem caughtMeanwhile_running [Display σ] {m : Machine σ} (hmode : m.mode = .running)
    (meanwhile : List Run.Action) : m.caughtMeanwhile meanwhile =
      if (Instruction.decode m.nextOpcode).refreshes then m.advanced.keypad.caughtAmong meanwhile
      else [] := by
  simp only [caughtMeanwhile, upcoming, hmode, Option.any_some]

theorem caughtMeanwhile_waiting [Display σ] {m : Machine σ} {x : UInt8}
    (hmode : m.mode = .waitingForKey x) (meanwhile : List Run.Action) :
    m.caughtMeanwhile meanwhile = [] := by
  simp only [caughtMeanwhile, upcoming, hmode, Option.any_none, Bool.false_eq_true, if_false]

/-- A cycle delivers the next key on its way, or none. -/
theorem step_accounts [Display σ] (m : Machine σ) : m.Accounts (afterwards step m) [] := by
  cases hmode : m.mode with
  | running =>
      have hadvanced := Instructed.advanced m
      rw [advanced_running hmode] at hadvanced
      rw [afterwards, step_running hmode]
      exact hadvanced.accounts
  | waitingForKey x =>
      cases htransit : m.transit with
      | none =>
          rw [afterwards, step_waiting_none hmode htransit]
          exact m.accounts_refl
      | some key =>
          have hdelivered := m.withoutTransit.deliver_accounts key
          rw [cons_keysOnWay_withoutTransit htransit,
            received_congr m.withoutTransit_mode] at hdelivered
          unfold Accounts
          unfold afterwards at *
          rw [step_waiting hmode htransit, List.append_nil]
          generalize deliver key m.withoutTransit = result at *
          cases result <;> exact hdelivered.subperm

end Machine

namespace Run

variable {σ : Type}

theorem act_mode (r : Run σ) (action : Action) :
    (r.act action).machine.mode = r.machine.mode := by
  cases action <;> rfl

theorem act_keysOnWay (r : Run σ) (action : Action) :
    (r.act action).machine.keysOnWay <+
      r.machine.keysOnWay ++ r.machine.keypad.caughtAmong [action] := by
  cases action with
  | panel action => exact List.sublist_append_left _ _
  | keypad c =>
      simp only [Keypad.caughtAmong, Machine.keysOnWay, List.append_assoc, List.append_nil]
      exact (r.machine.keypad.pending_perform c).append_left _

theorem actAll_keysOnWay (r : Run σ) (actions : List Action) :
    (r.actAll actions).machine.keysOnWay <+
      r.machine.keysOnWay ++ r.machine.keypad.caughtAmong actions := by
  induction actions generalizing r with
  | nil => exact List.sublist_append_left _ _
  | cons action rest ih =>
      have hcaught : r.machine.keypad.caughtAmong (action :: rest) =
          r.machine.keypad.caughtAmong [action] ++
            (r.act action).machine.keypad.caughtAmong rest := by
        cases action <;> simp [Keypad.caughtAmong, act, Machine.onKeypad]
      rw [hcaught, ← List.append_assoc]
      exact (ih (r.act action)).trans ((r.act_keysOnWay action).append_right _)

/-- A key that has come to a wait is received, held back or lost. -/
theorem receive_accounts (r : Run σ) (stepping : Bool) (key : UInt8) :
    (r.machine.received (r.receive stepping key).machine).toList ++
        (r.receive stepping key).machine.keysOnWay <+ key :: r.machine.keysOnWay := by
  have hdelivered := r.machine.deliver_accounts key
  unfold receive
  split
  · have hheld : r.machine.received {r.machine with heldKey := some key} = none :=
      Machine.received_of_mode rfl
    rw [complete_machine]
    dsimp only
    rw [hheld]
    exact (List.sublist_append_right _ _).cons_cons key
  · unfold Machine.afterwards at hdelivered
    generalize Machine.deliver key r.machine = result at *
    cases result with
    | ok _ m =>
        rw [complete_machine]
        exact hdelivered
    | error fault m => exact hdelivered

theorem takeFromKeypad_accounts (r : Run σ) (stepping : Bool) :
    r.machine.Accounts (r.takeFromKeypad stepping).machine [] := by
  cases hpending : r.machine.keypad.pending with
  | none =>
      rw [takeFromKeypad_of_none hpending]
      exact r.machine.accounts_refl
  | some key =>
      let taken : Run σ := {r with machine.keypad.pending := none}
      have hreceived := (taken.receive_accounts stepping key).subperm
      have hway : key :: taken.machine.keysOnWay ~ r.machine.keysOnWay := by
        simp only [Machine.keysOnWay, hpending, taken, Option.toList_none, List.append_nil]
        exact (List.perm_append_singleton key _).symm
      rw [takeFromKeypad_of_some hpending]
      unfold Machine.Accounts
      rw [List.append_nil]
      exact hreceived.trans hway.subperm

variable [Display σ]

/-- The presses that are caught in the course of a request. -/
def caught (r : Run σ) : Request → List UInt8
  | .act action => r.machine.keypad.caughtAmong [action]
  | .advance meanwhile => if r.begins then r.machine.caughtMeanwhile meanwhile else []
  | _ => []

def caughtAll (r : Run σ) : List Request → List UInt8
  | [] => []
  | q :: rest => r.caught q ++ (r.fulfil q).caughtAll rest

/-- The key by which a request ends a wait, unless it is a reset that does. -/
def delivered (r : Run σ) : Request → Option UInt8
  | .reset => none
  | q => r.machine.received (r.fulfil q).machine

def deliveredAll (r : Run σ) : List Request → List UInt8
  | [] => []
  | q :: rest => (r.delivered q).toList ++ (r.fulfil q).deliveredAll rest

theorem cycle_accounts {r : Run σ} (hmode : r.machine.mode = .running)
    (meanwhile : List Action) :
    r.machine.Accounts (r.cycle fun _ => .acts meanwhile).machine
      (r.machine.caughtMeanwhile meanwhile) := by
  have hadvanced := (Machine.Instructed.advanced r.machine).keysOnWay
  refine .of_none (Machine.received_of_running hmode _) ?_
  rw [Machine.caughtMeanwhile_running hmode]
  rw [Machine.advanced_running hmode] at *
  unfold cycle
  rw [Machine.step_running hmode]
  dsimp only
  split
  · rw [complete_machine]
    exact (actAll_keysOnWay _ meanwhile).trans (hadvanced.append_right _)
  · rw [complete_machine, List.append_nil]
    exact hadvanced

theorem begin_accounts (r : Run σ) (meanwhile : List Action) (stepping : Bool) :
    r.machine.Accounts (r.begin (fun _ => .acts meanwhile) stepping).machine
      (r.machine.caughtMeanwhile meanwhile) := by
  cases hmode : r.machine.mode with
  | running =>
      rw [begin_of_running _ stepping hmode]
      exact cycle_accounts hmode meanwhile
  | waitingForKey x =>
      rw [Machine.caughtMeanwhile_waiting hmode]
      cases hheld : r.machine.heldKey with
      | some key =>
          let taken : Run σ := {r with machine.heldKey := none}
          have hreceived := (taken.receive_accounts stepping key).subperm
          have hway : key :: taken.machine.keysOnWay = r.machine.keysOnWay := by
            simp only [Machine.keysOnWay, hheld, taken]
            rfl
          rw [begin_of_held _ stepping hmode hheld]
          unfold Machine.Accounts
          rw [List.append_nil, ← hway]
          exact hreceived
      | none =>
          rw [begin_of_not_held _ stepping hmode hheld]
          exact r.takeFromKeypad_accounts stepping

/-- A step of the loop delivers or holds back the next key on its way, or leaves all of them. -/
theorem advanceWith_accounts (r : Run σ) (meanwhile : List Action) :
    r.machine.Accounts (r.advanceWith fun _ => .acts meanwhile).machine
      (r.caught (.advance meanwhile)) := by
  cases r.stepped fun _ => .acts meanwhile with
  | begun panel stepping hbegins hstep =>
      rw [hstep, caught, if_pos hbegins]
      exact begin_accounts {r with panel} meanwhile stepping
  | takenUp stepping hbegins hphase hstep =>
      rw [hstep, caught, hbegins, if_neg Bool.false_ne_true]
      exact r.takeFromKeypad_accounts stepping
  | left hbegins hstep | still hbegins hstep =>
      rw [hstep, caught, hbegins, if_neg Bool.false_ne_true]
      exact r.machine.accounts_refl

/-- What a request delivers and leaves on its way was on its way before or is caught in its course.
-/
theorem fulfil_accounts (r : Run σ) (q : Request) :
    (r.delivered q).toList ++ (r.fulfil q).machine.keysOnWay <+~
      r.machine.keysOnWay ++ r.caught q := by
  cases q with
  | reset => exact List.nil_subperm
  | advance meanwhile => exact r.advanceWith_accounts meanwhile
  | step => exact r.machine.step_accounts
  | act action =>
      have hway := r.act_keysOnWay action
      exact Machine.Accounts.of_none (Machine.received_of_mode (r.act_mode action)) hway
  | execute i => exact (Machine.Instructed.execute r.machine i).accounts
  | executeAll instructions => exact (Machine.Instructed.executeAll r.machine instructions).accounts
  | load program =>
      simp only [delivered, caught, fulfil, onMachine, Machine.load]
      cases r.machine.memory.loadProgram program with
      | ok memory =>
          exact Machine.Accounts.of_none (Machine.received_of_mode rfl)
            (List.sublist_append_left _ _)
      | error failure => exact r.machine.accounts_refl
  | tick | setDelay value | setSound value | start panel =>
      exact Machine.Accounts.of_none (Machine.received_of_mode rfl) (List.sublist_append_left _ _)

/-- So it is with any number of requests. -/
theorem fulfilAll_accounts (r : Run σ) (requests : List Request) :
    r.deliveredAll requests ++ (r.fulfilAll requests).machine.keysOnWay <+~
      r.machine.keysOnWay ++ r.caughtAll requests := by
  induction requests generalizing r with
  | nil => exact (List.sublist_append_left _ _).subperm
  | cons q rest ih =>
      have hfirst := (List.subperm_append_right ((r.fulfil q).caughtAll rest)).2
        (r.fulfil_accounts q)
      have hrest := (List.subperm_append_left (r.delivered q).toList).2 (ih (r.fulfil q))
      simp only [List.append_assoc] at hfirst
      simp only [deliveredAll, caughtAll, List.append_assoc]
      exact hrest.trans hfirst

end Run

end Chip8
