import Chip8.Proofs.Effects

/-!
One cycle, case by case. A running machine executes what it fetches, and that never fails. A
machine that waits takes the key that is on its way to it, if there is one, and goes on with it;
without one the cycle changes nothing. That can only fail for want of the register the key is
for.
-/

namespace Chip8.Machine

variable {σ : Type}

/-- The key on its way to the machine: one that was held back, or else one the keypad caught. -/
def transit (m : Machine σ) : Option UInt8 :=
  m.heldKey.or m.keypad.pending

def withoutTransit (m : Machine σ) : Machine σ :=
  match m.heldKey with
  | some _ => {m with heldKey := none}
  | none => {m with keypad.pending := none}

/-- The machine once its wait for the register `x` has ended with a key. -/
def resumed (m : Machine σ) (x key : UInt8) : Machine σ :=
  {m with
    registers := {m.registers.set (slot x) key with pc := m.registers.pc + 2}
    mode := .running}

def fetched (m : Machine σ) : Machine σ :=
  {m with lastOpcode := m.nextOpcode}

/-- The instruction that the next cycle executes, unless the machine waits. -/
def upcoming (m : Machine σ) : Option Instruction :=
  match m.mode with
  | .running => some (.decode m.nextOpcode)
  | .waitingForKey _ => none

theorem get_bind {α : Type} (f : Machine σ → Exec σ α) (m : Machine σ) :
    (get >>= f) m = f m m := rfl

theorem takeKey_eq (m : Machine σ) : takeKey m = .ok m.transit m.withoutTransit := by
  obtain ⟨_, _, _, _, _, _, _, _, heldKey, _, _, _⟩ := m
  cases heldKey <;> rfl

theorem transit_of_held {m : Machine σ} {key : UInt8} (h : m.heldKey = some key) :
    m.transit = some key := by
  rw [transit, h, Option.some_or]

theorem transit_of_not_held {m : Machine σ} (h : m.heldKey = none) :
    m.transit = m.keypad.pending := by
  rw [transit, h, Option.none_or]

theorem withoutTransit_of_none {m : Machine σ} (h : m.transit = none) : m.withoutTransit = m := by
  obtain ⟨_, _, _, _, _, keypad, _, _, heldKey, _, _, _⟩ := m
  obtain ⟨hheld, hpending⟩ : heldKey = none ∧ keypad.pending = none := by
    simpa [transit] using h
  subst hheld
  obtain ⟨keys, waiting, pending, cancelled⟩ := keypad
  cases hpending
  rfl

theorem withoutTransit_mode (m : Machine σ) : m.withoutTransit.mode = m.mode := by
  unfold withoutTransit
  split <;> rfl

theorem withoutTransit_cancelled (m : Machine σ) :
    m.withoutTransit.keypad.cancelled = m.keypad.cancelled := by
  unfold withoutTransit
  split <;> rfl

theorem deliver_of_running {m : Machine σ} (hmode : m.mode = .running) (key : UInt8) :
    deliver key m = .ok () m := by
  unfold deliver
  rw [get_bind, hmode]
  rfl

theorem deliver_of_lt {m : Machine σ} {x : UInt8} (hmode : m.mode = .waitingForKey x)
    (hx : x.toNat < 16) (key : UInt8) : deliver key m = .ok () (m.resumed x key) := by
  unfold deliver
  rw [get_bind]
  simp only [hmode, bind, EStateM.bind]
  rw [writeRegister_of_lt hx]
  rfl

theorem deliver_of_le {m : Machine σ} {x : UInt8} (hmode : m.mode = .waitingForKey x)
    (hx : ¬ x.toNat < 16) (key : UInt8) :
    deliver key m = .error (.noSuchRegister x.toNat) m := by
  unfold deliver
  rw [get_bind]
  simp only [hmode, bind, EStateM.bind, writeRegister, lookup, Registers.find?, hx]
  rfl

/-- A running machine executes the instruction at its program counter, whatever is there. -/
theorem step_running [Display σ] {m : Machine σ} (hmode : m.mode = .running) :
    step m = .ok (.executed (.decode m.nextOpcode))
      (m.fetched.executed (.decode m.nextOpcode)) := by
  unfold step
  rw [get_bind]
  simp only [hmode]
  change EStateM.bind (execute (.decode m.nextOpcode)) _ m.fetched = _
  rw [EStateM.bind, execute_decode]
  rfl

theorem step_waiting_none [Display σ] {m : Machine σ} {x : UInt8}
    (hmode : m.mode = .waitingForKey x) (h : m.transit = none) : step m = .ok .waiting m := by
  unfold step
  rw [get_bind]
  simp only [hmode, bind, EStateM.bind, takeKey_eq, h, withoutTransit_of_none h]
  rfl

/-- A machine that waits goes on with the key on its way, or fails to. -/
theorem step_waiting [Display σ] {m : Machine σ} {x key : UInt8}
    (hmode : m.mode = .waitingForKey x) (h : m.transit = some key) :
    step m = match deliver key m.withoutTransit with
      | .ok _ m' => .ok (.resumed key) m'
      | .error fault m' => .error fault m' := by
  unfold step
  rw [get_bind]
  simp only [hmode, bind, EStateM.bind, takeKey_eq, h]
  cases deliver key m.withoutTransit <;> rfl

theorem eq_of_step_waiting [Display σ] {m m' : Machine σ} (h : step m = .ok .waiting m') :
    m' = m ∧ m.mode ≠ .running ∧ m.transit = none := by
  cases hmode : m.mode with
  | running =>
      rw [step_running hmode] at h
      cases h
  | waitingForKey x =>
      cases htransit : m.transit with
      | none =>
          rw [step_waiting_none hmode htransit] at h
          cases h
          exact ⟨rfl, nofun, rfl⟩
      | some key =>
          rw [step_waiting hmode htransit] at h
          split at h <;> cases h

theorem step_waiting_some [Display σ] {m : Machine σ} {x key : UInt8}
    (hmode : m.mode = .waitingForKey x) (hx : x.toNat < 16) (h : m.transit = some key) :
    step m = .ok (.resumed key) (m.withoutTransit.resumed x key) := by
  rw [step_waiting hmode h, deliver_of_lt ((withoutTransit_mode m).trans hmode) hx]

end Chip8.Machine
