/-!
What can go wrong around the interpreter. A bad address or an unknown opcode is not among it:
those are no-ops of the machine.
-/

namespace Chip8

/-- A reason why a program could not be loaded, read or run to its end. -/
inductive Failure
  | programTooLarge (size limit : Nat)
  | interpreterCrashed
  | unreadable (reason : String)
deriving DecidableEq, Repr

/-- The reason in words. -/
def Failure.message : Failure → String
  | .programTooLarge size limit =>
      s!"program is too large ({size} bytes), at most {limit} bytes fit in memory"
  | .interpreterCrashed => "the interpreter thread panicked"
  | .unreadable reason => "I/O error: " ++ reason

/-- The one way in which executing an instruction can fail. -/
inductive Fault
  | noSuchRegister (k : Nat)
deriving DecidableEq, Repr

/-- The fault in words. -/
def Fault.message : Fault → String
  | .noSuchRegister k => s!"index out of bounds: the len is 16 but the index is {k}"

end Chip8
