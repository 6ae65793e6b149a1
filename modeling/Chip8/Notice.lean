import Chip8.Instruction.Mnemonic

/-!
What the parts of the machine have to say while they work. A notice is the fact itself; how
severe it is and how it reads follows from it.
-/

namespace Chip8

open Text

/-- How severe a notice is, the most severe first. -/
inductive Level
  | error
  | warn
  | info
  | debug
  | trace
deriving DecidableEq, Repr

def Level.rank : Level → Nat
  | .error => 1
  | .warn => 2
  | .info => 3
  | .debug => 4
  | .trace => 5

def Level.name : Level → String
  | .error => "ERROR"
  | .warn => "WARN"
  | .info => "INFO"
  | .debug => "DEBUG"
  | .trace => "TRACE"

inductive Notice
  | loaded (size : Nat)
  | fetched (pc : UInt16) (opcode : Opcode)
  | skippedUnknown (opcode : Opcode) (pc : UInt16)
  | callDropped (address : UInt16)
  | returnOnEmpty
  | awaitingKey (register : UInt8)
  | deliveredKey (key register : UInt8)
  | caughtKey (key : UInt8)
  | unknownPress (key : UInt8)
  | unknownRelease (key : UInt8)
  | reportedDown (key : UInt8)
  | reportedUp (key : UInt8)
  | pausing
  | resuming
  | stepIgnored
  | runningFrom (pc : UInt16)
  | heldBack (key : UInt8)
  | waitCancelled
  | stoppedAt (pc : UInt16)
deriving DecidableEq, Repr

namespace Notice

def level : Notice → Level
  | callDropped _ | returnOnEmpty | unknownPress _ | unknownRelease _ => .warn
  | loaded _ | runningFrom _ | stoppedAt _ => .info
  | fetched .. => .trace
  | skippedUnknown .. | awaitingKey _ | deliveredKey .. | caughtKey _ | reportedDown _
  | reportedUp _ | pausing | resuming | stepIgnored | heldBack _ | waitCancelled => .debug

/-- The digits of a key, as few as it needs. -/
def keyText (key : UInt8) : List Char :=
  hex 1 key.toUInt16

def text : Notice → List Char
  | loaded size => "Loaded a ".toList ++ decimal size ++ " byte program".toList
  | fetched pc opcode =>
      hexMarked 3 pc ++ ": ".toList ++ hexMarked 4 opcode ++ ' ' ::
        (Instruction.decode opcode).mnemonic
  | skippedUnknown opcode pc =>
      "Skipping unknown opcode ".toList ++ hexMarked 4 opcode ++ " at ".toList ++ hexMarked 3 pc
  | callDropped address =>
      "Stack overflow, dropping return address ".toList ++ hexMarked 3 address
  | returnOnEmpty => "Return with an empty stack".toList
  | awaitingKey register => "Waiting for a key for ".toList ++ registerName register
  | deliveredKey key register =>
      "Got key ".toList ++ keyText key ++ " for ".toList ++ registerName register
  | caughtKey key => "Key ".toList ++ keyText key ++ " satisfies the key wait".toList
  | unknownPress key => "Ignoring press of unknown key ".toList ++ hexMarked 1 key.toUInt16
  | unknownRelease key => "Ignoring release of unknown key ".toList ++ hexMarked 1 key.toUInt16
  | reportedDown key => "Key ".toList ++ keyText key ++ " down".toList
  | reportedUp key => "Key ".toList ++ keyText key ++ " up".toList
  | pausing => "Pausing".toList
  | resuming => "Resuming".toList
  | stepIgnored => "Ignoring single step while running".toList
  | runningFrom pc => "Running from ".toList ++ hexMarked 3 pc
  | heldBack key => "Holding key ".toList ++ keyText key ++ " until resumed".toList
  | waitCancelled => "Key wait cancelled".toList
  | stoppedAt pc => "Stopped at ".toList ++ hexMarked 3 pc

/-- The line of a notice: its level and its text. -/
def line (n : Notice) : String :=
  n.level.name ++ " " ++ String.ofList n.text

/-- The notices that are at least as severe as a threshold, in order. -/
def upTo (threshold : Level) (notices : List Notice) : List Notice :=
  notices.filter fun n => n.level.rank ≤ threshold.rank

end Notice

end Chip8
