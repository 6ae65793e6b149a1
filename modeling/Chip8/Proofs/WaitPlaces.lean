import Chip8.Proofs.KeyWaits

/-!
Where a wait for a key stands. There are three places for it: the keypad listens, the keypad has
caught a key, or a key is held back. A machine that waits has just one of them taken and a machine
that runs has none, in every reachable state. So no wait is ever left with nothing armed, and a
key that is pressed while the program runs is not kept for a wait to come.
-/

namespace Chip8

namespace Machine

variable {σ : Type}

def waitPlaces (m : Machine σ) : List Bool :=
  [m.keypad.waiting, m.keypad.pending.isSome, m.heldKey.isSome]

/-- The places agree with the mode, and every key in one of them is a key of the keypad. -/
structure WaitAccounted (m : Machine σ) : Prop where
  running : m.mode = .running →
    m.keypad.waiting = false ∧ m.keypad.pending = none ∧ m.heldKey = none
  register_lt : ∀ x, m.mode = .waitingForKey x → x.toNat < 16
  one_place : ∀ x, m.mode = .waitingForKey x → m.waitPlaces.count true = 1
  pending_lt : ∀ key, m.keypad.pending = some key → key.toNat < 16
  held_lt : ∀ key, m.heldKey = some key → key.toNat < 16

theorem Awaits.count_waitPlaces {m : Machine σ} (h : m.Awaits) : m.waitPlaces.count true = 1 := by
  unfold waitPlaces
  cases h with
  | listening hwaiting hpending hheld => rw [hwaiting, hpending, hheld]; rfl
  | caught key _ hwaiting hpending hheld => rw [hwaiting, hpending, hheld]; rfl
  | held key _ hwaiting hpending hheld => rw [hwaiting, hpending, hheld]; rfl

theorem Awaits.key_lt {m : Machine σ} (h : m.Awaits) {key : UInt8}
    (hkey : m.keypad.pending = some key ∨ m.heldKey = some key) : key.toNat < 16 := by
  cases h with
  | listening _ hpending hheld =>
      rw [hpending, hheld] at hkey
      rcases hkey with hnone | hnone
      · cases hnone
      · cases hnone
  | caught caught hlt _ hpending hheld =>
      rw [hpending, hheld] at hkey
      rcases hkey with hsome | hnone
      · cases hsome
        exact hlt
      · cases hnone
  | held held hlt _ hpending hheld =>
      rw [hpending, hheld] at hkey
      rcases hkey with hnone | hsome
      · cases hnone
      · cases hsome
        exact hlt

theorem KeysAgree.key_lt {m : Machine σ} (h : m.KeysAgree) {key : UInt8}
    (hkey : m.keypad.pending = some key ∨ m.heldKey = some key) : key.toNat < 16 := by
  cases hmode : m.mode with
  | waitingForKey x => exact (h.awaits x hmode).key_lt hkey
  | running =>
      obtain ⟨-, hpending, hheld⟩ := h.idle hmode
      rw [hpending, hheld] at hkey
      rcases hkey with hnone | hnone
      · cases hnone
      · cases hnone

theorem KeysAgree.waitAccounted {m : Machine σ} (h : m.KeysAgree) : m.WaitAccounted where
  running := h.idle
  register_lt := h.register_lt
  one_place x hmode := (h.awaits x hmode).count_waitPlaces
  pending_lt _ hpending := h.key_lt (.inl hpending)
  held_lt _ hheld := h.key_lt (.inr hheld)

/-- Once a key that was up is pressed, the next cycle ends the wait. -/
theorem KeysAgree.resumed_after_press [Display σ] {m : Machine σ} (h : m.KeysAgree) {x key : UInt8}
    (hmode : m.mode = .waitingForKey x) (hlt : key.toNat < 16)
    (hup : m.keypad.isDown key = false) :
    ∃ served m', Machine.step (m.onKeypad fun k => k.press key) = .ok (.resumed served) m' := by
  have hpress := transit_press h hmode key
  rw [if_pos ⟨hlt, hup⟩] at hpress
  obtain ⟨served, hserved⟩ : ∃ served, m.transit.or (some key) = some served := by
    cases m.transit with
    | none => exact ⟨key, rfl⟩
    | some first => exact ⟨first, rfl⟩
  have hregister := h.register_lt x hmode
  refine ⟨served, _, step_waiting_some (x := x) ?_ hregister (hpress.trans hserved)⟩
  exact hmode

end Machine

namespace Run

variable {σ : Type} [Display σ]

/-- In every reachable state the places of a wait agree with the mode. A key that is pressed while
the machine runs is neither kept nor listened for, and a key that is pressed while it waits, when
it was up, lets the next cycle end the wait. -/
theorem reachable_waits_accounted {r : Run σ} (h : r.Reachable) :
    r.machine.WaitAccounted ∧
    (r.machine.mode = .running → ∀ key,
      let keypad := (r.occur (.press key)).machine.keypad
      keypad.waiting = false ∧ keypad.pending = none) ∧
    (∀ x, r.machine.mode = .waitingForKey x → ∀ key : UInt8, key.toNat < 16 →
      r.machine.keypad.isDown key = false →
      ∃ served m, Machine.step (r.occur (.press key)).machine = .ok (.resumed served) m) := by
  have hkeys := h.sound.keysAgree
  refine ⟨hkeys.waitAccounted, ?_, ?_⟩
  · intro hrunning key
    obtain ⟨hwaiting, hpending, -⟩ := (hkeys.press key).idle hrunning
    exact ⟨hwaiting, hpending⟩
  · intro x hmode key hlt hup
    exact hkeys.resumed_after_press hmode hlt hup

/-- A wait that has gone through two of its places: the loop took the key that the keypad had
caught, and held it back because the run was paused meanwhile. -/
theorem waits_accounted_held_back :
    let r := (loaded [0xFF, 0x0A]).occurAll
      [.advance, .advance, .panel .pause, .press 4, .advance]
    r.machine.mode = .waitingForKey 15 ∧ r.machine.heldKey = some 4 ∧ r.machine.WaitAccounted ∧
      ∃ served m, Machine.step (r.occur (.press 5)).machine = .ok (.resumed served) m := by
  intro r
  have hreachable : r.Reachable := (loaded_reachable [0xFF, 0x0A]).occurAll _
  have hmode : r.machine.mode = .waitingForKey 15 := by decide +kernel
  have hup : r.machine.keypad.isDown 5 = false := by decide +kernel
  obtain ⟨haccounted, -, hserves⟩ := reachable_waits_accounted hreachable
  exact ⟨hmode, by decide +kernel, haccounted, hserves 15 hmode 5 (by decide) hup⟩

end Run

end Chip8
