/-!
The keypad of sixteen keys. Besides which keys are held it knows whether the machine listens
for a press: while it listens, the first press of a key that was up is caught and kept until
the machine takes it. A cancelled keypad makes nobody wait, but it goes on listening.
-/

namespace Chip8

structure Keypad where
  keys : Vector Bool 16
  /-- The next fresh press is wanted. -/
  waiting : Bool
  /-- The press that was caught and not yet taken. -/
  pending : Option UInt8
  cancelled : Bool
deriving DecidableEq

namespace Keypad

def initial : Keypad :=
  ⟨Vector.replicate 16 false, false, none, false⟩

/-- Whether a key is held. No code above fifteen ever is. -/
def isDown (k : Keypad) (key : UInt8) : Bool :=
  if h : key.toNat < 16 then k.keys[key.toNat] else false

/-- Whether a press of the key now would be caught. -/
def catches (k : Keypad) (key : UInt8) : Bool :=
  key.toNat < 16 && !k.isDown key && k.waiting && k.pending.isNone

/-- A key goes down. The press is caught if it is wanted and the key was up. -/
def press (k : Keypad) (key : UInt8) : Keypad :=
  if h : key.toNat < 16 then
    let held := k.keys.set key.toNat true
    if k.catches key then {k with keys := held, waiting := false, pending := some key}
    else {k with keys := held}
  else k

/-- A key goes up, which is never what a listening machine wants. -/
def release (k : Keypad) (key : UInt8) : Keypad :=
  if h : key.toNat < 16 then {k with keys := k.keys.set key.toNat false} else k

/-- Starts to listen for the next press; one that was caught before no longer counts. -/
def beginWait (k : Keypad) : Keypad :=
  {k with waiting := true, pending := none}

/-- Takes the press that was caught, if there is one. -/
def take (k : Keypad) : Option UInt8 × Keypad :=
  (k.pending, {k with pending := none})

/-- Whether somebody who wants a press would have to wait for it. -/
def blocks (k : Keypad) : Bool :=
  k.pending.isNone && !k.cancelled

def cancel (k : Keypad) : Keypad :=
  {k with cancelled := true}

def clearCancellation (k : Keypad) : Keypad :=
  {k with cancelled := false}

/-- The held keys in ascending order. -/
def heldKeys (k : Keypad) : List UInt8 :=
  (List.range 16).filterMap fun n =>
    if k.isDown n.toUInt8 then some n.toUInt8 else none

theorem catches_iff {k : Keypad} {key : UInt8} : k.catches key = true ↔
    key.toNat < 16 ∧ k.isDown key = false ∧ k.waiting = true ∧ k.pending = none := by
  simp [catches, and_assoc]

theorem press_of_catches {k : Keypad} {key : UInt8} (h : k.catches key = true) :
    k.press key = {k with
      keys := (k.press key).keys, waiting := false, pending := some key} := by
  have hlt := (catches_iff.1 h).1
  simp [press, hlt, h]

theorem press_of_not_catches {k : Keypad} {key : UInt8} (h : k.catches key = false) :
    k.press key = {k with keys := (k.press key).keys} := by
  unfold press
  split
  · simp [h]
  · rfl

theorem press_of_not_waiting {k : Keypad} (h : k.waiting = false) (key : UInt8) :
    k.press key = {k with keys := (k.press key).keys} := by
  apply press_of_not_catches
  simp [catches, h]

theorem release_eq (k : Keypad) (key : UInt8) :
    k.release key = {k with keys := (k.release key).keys} := by
  unfold release
  split <;> rfl

end Keypad

end Chip8
