import Chip8.Keypad.Basic
import Chip8.Keypad.Layout

/-!
Held keys of a terminal, which reports presses and their repeats but never releases. A key
counts as held from its first report until it has not been reported for a while.
-/

namespace Chip8.Keypad

/-- The keys held at present, each with the time of its latest report, and how long after
that it counts as released. Times are in milliseconds. -/
structure Hold where
  timeout : Nat
  held : List (UInt8 × Nat)
deriving DecidableEq

namespace Hold

/-- How long a key is held when nobody says otherwise. -/
def defaultTimeout : Nat := 250

def empty (timeout : Nat) : Hold :=
  ⟨timeout, []⟩

def holds (h : Hold) (key : UInt8) : Bool :=
  h.held.any (·.1 == key)

/-- Notes a report of a key. -/
def note (h : Hold) (key : UInt8) (now : Nat) : Hold :=
  {h with held := (key, now) :: h.held.filter (·.1 != key)}

/-- Whether a key last reported at some time is due for release. Time that runs backwards
counts as standing still. -/
def expired (h : Hold) (now last : Nat) : Bool :=
  h.timeout ≤ now - last

/-- The keys due for release. -/
def due (h : Hold) (now : Nat) : List UInt8 :=
  (h.held.filter fun entry => h.expired now entry.2).map (·.1)

/-- A keyboard key is reported. Only the first report of a key presses it on the keypad; the
answer is whether it is a key of the keypad at all. -/
def press (h : Hold) (pad : Keypad) (code : KeyCode) (now : Nat) : Bool × Hold × Keypad :=
  match code.key? with
  | none => (false, h, pad)
  | some key => (true, h.note key now, if h.holds key then pad else pad.press key)

/-- Releases every key that is due. -/
def releaseExpired (h : Hold) (pad : Keypad) (now : Nat) : Hold × Keypad :=
  ({h with held := h.held.filter fun entry => !h.expired now entry.2},
    (h.due now).foldl Keypad.release pad)

end Hold

end Chip8.Keypad
