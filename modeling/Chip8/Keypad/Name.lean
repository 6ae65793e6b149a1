import Chip8.Text.Numeral
import Chip8.Text.Quoted

/-!
Keys by name: the name of a key is its number in base sixteen.
-/

namespace Chip8.Keypad

/-- The key a text names. The number may carry a plus sign and leading zeros. -/
def ofName? (name : List Char) : Option UInt8 :=
  match Text.readNumeral 16 name with
  | some n => if n < 16 then some n.toUInt8 else none
  | none => none

/-- Why a text names no key. -/
def refusal (name : List Char) : List Char :=
  Text.quoted name ++ " is not a key, use 0-F".toList

end Chip8.Keypad
