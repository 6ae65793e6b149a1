/-!
Which keys of a computer keyboard stand for which keys of the keypad: the four columns at the
left, so that the places on both are the same.
-/

namespace Chip8.Keypad

/-- A key of a computer keyboard: one that writes a character, a function key, or another one
by its name. -/
inductive KeyCode
  | char (c : Char)
  | function (n : Nat)
  | named (name : String)
deriving DecidableEq, Repr

/-- The characters and their keypad keys, row by row. -/
def layout : List (Char × UInt8) :=
  [ ('1', 0x1), ('2', 0x2), ('3', 0x3), ('4', 0xC),
    ('q', 0x4), ('w', 0x5), ('e', 0x6), ('r', 0xD),
    ('a', 0x7), ('s', 0x8), ('d', 0x9), ('f', 0xE),
    ('z', 0xA), ('x', 0x0), ('c', 0xB), ('v', 0xF) ]

/-- The keypad key of a keyboard key. Capital letters count as small ones. -/
def KeyCode.key? : KeyCode → Option UInt8
  | .char c => layout.lookup c.toLower
  | .function _ | .named _ => none

end Chip8.Keypad
