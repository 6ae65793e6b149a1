/-!
Words written in hexadecimal with capital digits. The four digits of a word are read off by
division; leading zeros are then dropped as long as more than the least width remains, so a
text is never shorter than asked for and never loses a digit that carries value.
-/

namespace Chip8.Text

/-- The digit that stands for a value modulo sixteen. -/
def hexDigit (value : Nat) : Char :=
  if value % 16 < 10 then Char.ofNat (48 + value % 16) else Char.ofNat (55 + value % 16)

/-- Drops leading zeros while more than `width` characters remain. -/
def trimZeros (width : Nat) : List Char → List Char
  | [] => []
  | c :: rest => if c = '0' ∧ width ≤ rest.length then trimZeros width rest else c :: rest

/-- The four digits of a word, most significant first. -/
def hexDigits (word : UInt16) : List Char :=
  [hexDigit (word.toNat / 4096), hexDigit (word.toNat / 256), hexDigit (word.toNat / 16),
    hexDigit word.toNat]

/-- A word in at least `width` digits, for a width of one to four. -/
def hex (width : Nat) (word : UInt16) : List Char :=
  trimZeros width (hexDigits word)

/-- A word in at least `width` digits behind the mark of a hexadecimal number. -/
def hexMarked (width : Nat) (word : UInt16) : List Char :=
  '0' :: 'x' :: hex width word

/-- The two digits of a byte, most significant first. -/
def hexByte (byte : UInt8) : List Char :=
  [hexDigit (byte.toNat / 16), hexDigit byte.toNat]

theorem hexDigits_length (word : UInt16) : (hexDigits word).length = 4 := rfl

end Chip8.Text
