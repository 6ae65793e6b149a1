/-!
Natural numbers as text: writing in base ten, and reading in a base of up to thirty-six. A
number to read is an optional plus sign and then one or more digits; it may be of any size, so
a caller that has room for less compares the value with its own bound.
-/

namespace Chip8.Text

/-- A number in base ten. -/
def decimal (n : Nat) : List Char :=
  Nat.toDigits 10 n

/-- The value of an ASCII digit or letter, either case, when it is a digit of the base. -/
def digitValue? (base : Nat) (c : Char) : Option Nat :=
  let value? :=
    if '0' ≤ c ∧ c ≤ '9' then some (c.toNat - 48)
    else if 'a' ≤ c ∧ c ≤ 'z' then some (c.toNat - 87)
    else if 'A' ≤ c ∧ c ≤ 'Z' then some (c.toNat - 55)
    else none
  value?.filter (· < base)

/-- Reads digits behind those already worth `value`; any other character refuses the text. -/
def readDigits (base : Nat) (value : Nat) : List Char → Option Nat
  | [] => some value
  | c :: rest =>
    match digitValue? base c with
    | some digit => readDigits base (value * base + digit) rest
    | none => none

/-- Reads one or more digits; the empty text is no number. -/
def readUnsigned (base : Nat) : List Char → Option Nat
  | [] => none
  | digits => readDigits base 0 digits

/-- Reads a number that may carry one plus sign. -/
def readNumeral (base : Nat) : List Char → Option Nat
  | '+' :: digits => readUnsigned base digits
  | digits => readUnsigned base digits

end Chip8.Text
