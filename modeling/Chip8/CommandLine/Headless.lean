import Chip8.CommandLine.Options
import Chip8.Machine.Readout
import Chip8.Run.Session
import Chip8.Screen.Picture

/-!
Running a program without a screen for a while, and what is printed at the end: the picture
and a readout. Time is counted, not waited for: every cycle takes the pause between two cycles,
or a microsecond if there is none, and the timers tick by the same clock. A program that has
come to rest does not change any more, so the rest of its time is passed over at once. Without a
pause between cycles nothing says how many of them fit into a time, and a program is given all it
needs to come to rest.
-/

namespace Chip8.CommandLine

/-- Why a file could not be read. -/
inductive ReadError
  | notFound
  | permissionDenied
  | isDirectory
deriving DecidableEq, Repr

def ReadError.text : ReadError → String
  | .notFound =>
      "Io(Os \x7b code: 2, kind: NotFound, message: \"No such file or directory\" \x7d)"
  | .permissionDenied =>
      "Io(Os \x7b code: 13, kind: PermissionDenied, message: \"Permission denied\" \x7d)"
  | .isDirectory => "Io(Os \x7b code: 21, kind: IsADirectory, message: \"Is a directory\" \x7d)"

/-- What the program leaves behind: its exit code and what it printed on both channels. -/
structure Outcome where
  code : UInt32
  out : String
  err : String
deriving DecidableEq

/-- A failure ends the program with its name and details. -/
def Outcome.failed (details : String) : Outcome :=
  ⟨1, "", "Error: " ++ details ++ "\n"⟩

def failureText : Failure → String
  | .programTooLarge size limit =>
      "ProgramTooLarge \x7b size: " ++ toString size ++ ", max: " ++ toString limit ++ " \x7d"
  | .interpreterCrashed => "InterpreterPanicked"
  | .unreadable reason => "Io(" ++ reason ++ ")"

/-- A run and the time since it began, in nanoseconds. -/
structure Clocked (σ : Type) where
  run : Run σ
  now : Nat

namespace Clocked

variable {σ : Type}

/-- The time between two ticks of the timers. -/
def tickPeriod (s : Settings) : Nat :=
  1000000000 / max s.timerFrequency 1

/-- The time that a cycle takes. -/
def cycleTime (s : Settings) : Nat :=
  max s.cycleDelay 1 * 1000

/-- Moves the clock, and the timers with it. They are at zero after 255 ticks at most. -/
def moveTo (c : Clocked σ) (time : Nat) : Clocked σ :=
  let period := tickPeriod c.run.machine.settings
  let count := min 255 (time / period - c.now / period)
  ⟨{c.run with machine.timers := c.run.machine.timers.ticks count}, max c.now time⟩

/-- Whether going on would change nothing: the loop is left or blocked, or the instruction just
executed is a jump to itself. -/
def atRest (c : Clocked σ) : Bool :=
  let m := c.run.machine
  match c.run.phase with
  | .blocked _ => m.keypad.blocks
  | .ended | .crashed _ => true
  | .ready =>
      m.mode == .running && m.lastOpcode == m.nextOpcode
        && Instruction.decode m.nextOpcode == .jump m.registers.pc

/-- Runs until a time, in a bounded number of steps. -/
def runUntil [Display σ] (deadline : Nat) : Nat → Clocked σ → Clocked σ
  | 0, c => c.moveTo deadline
  | n + 1, c =>
      if deadline ≤ c.now || c.atRest then c.moveTo deadline
      else
        let time := c.now + cycleTime c.run.machine.settings
        runUntil deadline n (moveTo {c with run := c.run.advance} time)

/-- How many cycles may pass between two events of the command line. -/
def stepLimit : Nat := 2000000

/-- How many more cycles a program without pauses may take to come to rest. -/
def restLimit : Nat := 16000000

def runFor [Display σ] (c : Clocked σ) (time : Nat) : Clocked σ :=
  let c := c.runUntil (c.now + time) stepLimit
  if c.run.machine.settings.cycleDelay = 0 && !c.atRest then
    {c with run := c.run.goToRest restLimit}
  else c

/-- Presses keys one after the other: each after a slice of time, and held for fifty
milliseconds or for a slice, whichever is shorter. -/
def pressAll [Display σ] (slice : Nat) : List UInt8 → Clocked σ → Clocked σ
  | [], c => c
  | key :: rest, c =>
      let c := c.runFor slice
      let c := {c with run := c.run.act (.keypad (.press key))}
      let c := c.runFor (min 50000000 slice)
      pressAll slice rest {c with run := c.run.act (.keypad (.release key))}

end Clocked

/-- The machine after a program has run as the options say. -/
def Options.play (o : Options) (program : List UInt8) : Except Failure (Machine Recorder) := do
  let m ← (Machine.ofSettings o.settings Recorder.empty).load program
  let slice := o.duration * 1000000 / (o.press.length + 1)
  let c : Clocked Recorder := ⟨.start m .initial, 0⟩
  let c := (Clocked.pressAll slice o.press c).runFor slice
  ((c.run.shutDown .silent .session).release).result

/-- What is printed of a machine. -/
def report (m : Machine Recorder) : String :=
  String.ofList (m.screen.picture ++ ['\n'] ++ m.readout.text)
    ++ if m.timers.soundActive then "sound on\n" else ""

/-- What is printed when arguments are refused. -/
def Refusal.text : Refusal → String
  | .missingInput => "error: The following required arguments were not provided: <input>"
  | .unknownArgument => "error: Found an argument which wasn't expected"
  | .invalidValue => "error: Invalid value"
  | .emptyValue => "error: An option requires a value but none was supplied"
  | .repeatedOption => "error: An option was provided more than once"
  | .helpRequested =>
      "usage: chip8 [-d] [--increment-index] [--cycle-delay-ms N] [--duration-ms N] [--seed N] "
        ++ "[-p KEY...] INPUT"
  | .versionRequested => "chip8 0.1.0"

def Refusal.outcome (r : Refusal) : Outcome :=
  match r with
  | .helpRequested | .versionRequested => ⟨0, r.text ++ "\n", ""⟩
  | _ => ⟨1, "", r.text ++ "\n"⟩

/-- What comes of options whose file was read, or could not be. -/
def Options.outcome (o : Options) (file : Except ReadError (List UInt8)) : Outcome :=
  match file with
  | .error error => .failed error.text
  | .ok program =>
      match o.play program with
      | .ok m => ⟨0, report m, ""⟩
      | .error failure => .failed (failureText failure)

/-- What comes of arguments that name the file. It matters only when they are in order. -/
def perform (args : List String) (file : Except ReadError (List UInt8)) : Outcome :=
  match Options.ofArguments args with
  | .error refusal => refusal.outcome
  | .ok options => options.outcome file

end Chip8.CommandLine
