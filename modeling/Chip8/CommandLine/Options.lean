import Chip8.CommandLine.Arguments
import Chip8.Keypad.Name
import Chip8.Settings

/-!
What the command line asks for: the file to run, for how long, with which settings and which
keys to press meanwhile.
-/

namespace Chip8.CommandLine

structure Options where
  input : List Char
  /-- For how many milliseconds to run. -/
  duration : Nat
  /-- The pause between two cycles, in milliseconds. -/
  cycleDelay : Nat
  seed : Option Nat
  movesIndex : Bool
  debug : Bool
  press : List UInt8
deriving DecidableEq, Repr

/-- The number a value stands for, if it fits into 64 bits. -/
def number? (value : List Char) : Option Nat :=
  (Text.readNumeral 10 value).filter (· < 0x10000000000000000)

/-- The value of an option that has one when it is not given. -/
def Name.defaultValue? : Name → Option Nat
  | .duration => some 1000
  | .cycleDelay => some 2
  | _ => none

/-- Whether an option has a value, be it its default. -/
def Scan.hasValue (s : Scan) (name : Name) : Bool :=
  name.defaultValue?.isSome || !(s.valuesOf name).isEmpty

def Name.accepts (name : Name) (value : List Char) : Bool :=
  match name with
  | .press => (Keypad.ofName? value).isSome
  | _ => (number? value).isSome

/-- Whether an option was used as it may be: with a value if it takes one, with values that it
understands, and once unless it takes many. -/
def Scan.check (s : Scan) (name : Name) : Except Refusal Unit :=
  if s.uses.contains name && !name.isSwitch && !s.hasValue name then .error .emptyValue
  else if !(s.valuesOf name).all name.accepts then .error .invalidValue
  else if 1 < s.uses.count name && !name.takesMany then .error .repeatedOption
  else .ok ()

/-- Whether the option that was last to want a value went without any. -/
def Scan.endsWanting (s : Scan) : Bool :=
  s.wanting.any fun name => !s.hasValue name

def Scan.number (s : Scan) (name : Name) : Option Nat :=
  match (s.valuesOf name).getLast? with
  | some value => number? value
  | none => name.defaultValue?

/-- The options that arguments ask for. A missing file is noticed first, an option without its
value at the very end next, and then the options are checked one by one. -/
def Options.ofScan (s : Scan) : Except Refusal Options :=
  match s.input with
  | none => .error .missingInput
  | some input => do
      if s.endsWanting then throw .emptyValue
      for name in [.duration, .cycleDelay, .seed, .press, .movesIndex, .debug] do
        s.check name
      return {
        input := input
        duration := (s.number .duration).getD 0
        cycleDelay := (s.number .cycleDelay).getD 0
        seed := s.number .seed
        movesIndex := s.uses.contains .movesIndex
        debug := s.uses.contains .debug
        press := (s.valuesOf .press).filterMap Keypad.ofName? }

/-- The options that the arguments behind the name of the program ask for. -/
def Options.ofArguments (args : List String) : Except Refusal Options := do
  Options.ofScan (← Scan.empty.readAll (args.map String.toList))

/-- The settings of a machine that is run as the options say. -/
def Options.settings (o : Options) : Settings where
  cycleDelay := o.cycleDelay * 1000
  timerFrequency := Settings.default.timerFrequency
  seed := o.seed.map Nat.toUInt64
  movesIndex := o.movesIndex
  debug := o.debug

end Chip8.CommandLine
