import Chip8.Keypad.Basic

/-!
What can be asked of a keypad, as data, so that a whole history of a keypad is a list.
-/

namespace Chip8.Keypad

/-- A request to the keypad. -/
inductive Command
  | press (key : UInt8)
  | release (key : UInt8)
  | isDown (key : UInt8)
  | beginWait
  | isWaiting
  /-- Takes a caught press if there is one. -/
  | take
  /-- Takes a caught press, and waits for one unless the keypad is cancelled. -/
  | await
  /-- Like `await`, but gives up after a while. -/
  | awaitFor (milliseconds : Nat)
  | cancel
  | clearCancellation
  | isCancelled
  | reset
deriving DecidableEq, Repr

/-- What the keypad answers. -/
inductive Reply
  | done
  | flag (value : Bool)
  | key (taken : Option UInt8)
  /-- There is no answer before somebody presses a key or cancels. -/
  | blocked
deriving DecidableEq, Repr

/-- Carries out a request while nobody else touches the keypad; waiting for a while is then no
different from not waiting at all. -/
def perform (k : Keypad) : Command → Reply × Keypad
  | .press key => (.done, k.press key)
  | .release key => (.done, k.release key)
  | .isDown key => (.flag (k.isDown key), k)
  | .beginWait => (.done, k.beginWait)
  | .isWaiting => (.flag k.waiting, k)
  | .take => (.key k.take.1, k.take.2)
  | .await => if k.blocks then (.blocked, k) else (.key k.take.1, k.take.2)
  | .awaitFor _ => (.key k.take.1, k.take.2)
  | .cancel => (.done, k.cancel)
  | .clearCancellation => (.done, k.clearCancellation)
  | .isCancelled => (.flag k.cancelled, k)
  | .reset => (.done, initial)

end Chip8.Keypad
