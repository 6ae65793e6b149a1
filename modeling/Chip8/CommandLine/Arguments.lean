/-!
Reading the arguments of a command line one after the other. Long names follow two dashes and
may carry a value behind an equals sign; short names follow one dash, several together, and the
first that takes a value takes what is left of the argument. What starts with no dash is a
value of the option that still wants one, or else the file to run, and behind two bare dashes
everything is a file. Values are kept as they stand; what they mean is decided afterwards.
-/

namespace Chip8.CommandLine

/-- Why arguments are refused, and the two requests that end the reading as well. -/
inductive Refusal
  | missingInput
  | unknownArgument
  | invalidValue
  | emptyValue
  | repeatedOption
  | helpRequested
  | versionRequested
deriving DecidableEq, Repr

/-- The options, by what they are about. -/
inductive Name
  | duration
  | cycleDelay
  | seed
  | press
  | movesIndex
  | debug
deriving DecidableEq, Repr

/-- A switch takes no value. -/
def Name.isSwitch : Name → Bool
  | .movesIndex | .debug => true
  | .duration | .cycleDelay | .seed | .press => false

/-- Whether values may follow until the next option. -/
def Name.takesMany : Name → Bool
  | .press => true
  | _ => false

inductive Word
  | option (name : Name)
  | help
  | version

def Word.ofLong? (text : List Char) : Option Word :=
  [("duration-ms".toList, .option .duration), ("cycle-delay-ms".toList, .option .cycleDelay),
    ("seed".toList, .option .seed), ("press".toList, .option .press),
    ("increment-index".toList, .option .movesIndex), ("debug".toList, .option .debug),
    ("help".toList, .help), ("version".toList, .version)].lookup text

def Word.ofShort? : Char → Option Word
  | 'p' => some (.option .press)
  | 'd' => some (.option .debug)
  | 'h' => some .help
  | 'V' => some .version
  | _ => none

/-- What was read so far. -/
structure Scan where
  input : Option (List Char)
  /-- Every use of an option, in order. -/
  uses : List Name
  /-- Every value with its option, in order. -/
  values : List (Name × List Char)
  /-- The option that would take the next value. -/
  wanting : Option Name
  /-- Two bare dashes went by. -/
  onlyInput : Bool
deriving DecidableEq, Repr

namespace Scan

def empty : Scan :=
  ⟨none, [], [], none, false⟩

def use (s : Scan) (name : Name) : Scan :=
  {s with uses := s.uses ++ [name], wanting := if name.isSwitch then none else some name}

/-- Gives a value to an option, which then wants another one or is done. -/
def giveValue (s : Scan) (name : Name) (value : List Char) : Scan :=
  {s with
    values := s.values ++ [(name, value)]
    wanting := if name.takesMany then some name else none}

/-- Gives the value behind an equals sign, which is the last one in any case. -/
def giveOnlyValue (s : Scan) (name : Name) (value : List Char) : Scan :=
  {s.giveValue name (value.dropWhile (· == '=')) with wanting := none}

def giveInput (s : Scan) (text : List Char) : Except Refusal Scan :=
  match s.input with
  | none => .ok {s with input := some text}
  | some _ => .error .unknownArgument

/-- Reads an argument with a long name. A switch does not look at a value. -/
def readLong (s : Scan) (arg : List Char) : Except Refusal Scan :=
  let body := arg.dropWhile (· == '-')
  match Word.ofLong? (body.takeWhile (· != '=')) with
  | none => .error .unknownArgument
  | some .help => .error .helpRequested
  | some .version => .error .versionRequested
  | some (.option name) =>
      match body.dropWhile (· != '=') with
      | [] => .ok (s.use name)
      | value => if name.isSwitch then .ok (s.use name) else .ok ((s.use name).giveOnlyValue name value)

/-- Reads short names up to the first that takes a value. -/
def readShort (s : Scan) : List Char → Except Refusal Scan
  | [] => .ok s
  | c :: rest =>
      match Word.ofShort? c with
      | none => .error .unknownArgument
      | some .help => .error .helpRequested
      | some .version => .error .versionRequested
      | some (.option name) =>
          if name.isSwitch then (s.use name).readShort rest
          else
            match rest with
            | [] => .ok (s.use name)
            | '=' :: value => .ok ((s.use name).giveOnlyValue name value)
            | value => .ok ((s.use name).giveValue name value)

/-- Reads one argument. -/
def read (s : Scan) (arg : List Char) : Except Refusal Scan :=
  if s.onlyInput then s.giveInput arg
  else
    match arg with
    | ['-', '-'] => .ok {s with onlyInput := true}
    | '-' :: '-' :: _ => s.readLong arg
    | '-' :: c :: rest => s.readShort (c :: rest)
    | _ =>
        match s.wanting with
        | some name => .ok (s.giveValue name arg)
        | none => s.giveInput arg

/-- Reads arguments up to the first that is refused. -/
def readAll (s : Scan) : List (List Char) → Except Refusal Scan
  | [] => .ok s
  | arg :: rest =>
      match s.read arg with
      | .ok s => s.readAll rest
      | .error refusal => .error refusal

/-- The values of an option in order. -/
def valuesOf (s : Scan) (name : Name) : List (List Char) :=
  (s.values.filter fun given => given.1 == name).map (·.2)

end Scan

end Chip8.CommandLine
