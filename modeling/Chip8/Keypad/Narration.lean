import Chip8.Keypad.Command
import Chip8.Keypad.Hold
import Chip8.Notice

/-!
What the keypad and the held keys of a terminal have to say, told from the state before.
-/

namespace Chip8.Keypad

def pressNotices (k : Keypad) (key : UInt8) : List Notice :=
  if key.toNat < 16 then if k.catches key then [.caughtKey key] else []
  else [.unknownPress key]

def releaseNotices (key : UInt8) : List Notice :=
  if key.toNat < 16 then [] else [.unknownRelease key]

/-- What a request makes the keypad say. -/
def notices (k : Keypad) : Command → List Notice
  | .press key => k.pressNotices key
  | .release key => releaseNotices key
  | _ => []

/-- What the report of a key makes both say. -/
def Hold.pressNotices (h : Hold) (pad : Keypad) (code : KeyCode) : List Notice :=
  match code.key? with
  | none => []
  | some key => if h.holds key then [] else .reportedDown key :: pad.pressNotices key

def Hold.releaseNotices (h : Hold) (now : Nat) : List Notice :=
  (h.due now).map .reportedUp

end Chip8.Keypad
