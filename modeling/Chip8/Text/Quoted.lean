import Chip8.Text.GraphemeExtend
import Chip8.Text.Unassigned

/-!
A text in double quotes, safe to show on one line: quotes and backslashes are escaped by a
backslash, the usual control characters have letters of their own, and any other character
without a picture is written as its code point in braces.
-/

namespace Chip8.Text

/-- Characters that leave no ink: controls, spaces and separators of lines and paragraphs, format
characters, private use and the fillers of Hangul. The ASCII space is not among them. -/
def inkless : CodePoints :=
  [(0x0000, 0x001F), (0x007F, 0x00A0), (0x00AD, 0x00AD), (0x0600, 0x0605), (0x061C, 0x061C),
    (0x06DD, 0x06DD), (0x070F, 0x070F), (0x0890, 0x0891), (0x08E2, 0x08E2), (0x115F, 0x1160),
    (0x1680, 0x1680), (0x180E, 0x180E), (0x2000, 0x200F), (0x2028, 0x202F), (0x205F, 0x2064),
    (0x2066, 0x206F), (0x3000, 0x3000), (0x3164, 0x3164), (0xE000, 0xF8FF), (0xFEFF, 0xFEFF),
    (0xFFA0, 0xFFA0), (0xFFF9, 0xFFFB), (0x110BD, 0x110BD), (0x110CD, 0x110CD),
    (0x13430, 0x1343F), (0x1BCA0, 0x1BCA3), (0x1D173, 0x1D17A), (0xE0001, 0xE0001),
    (0xE0020, 0xE007F), (0xF0000, 0xFFFFD), (0x100000, 0x10FFFD)]

/-- The halfwidth sound marks of katakana. They extend the character before them, yet they take a
place of their own. -/
def soundMarks : CodePoints := [(0xFF9E, 0xFF9F)]

/-- Whether a character can be shown as it is: it is assigned, leaves ink (or is the ASCII space),
and does not need another character to stand on. -/
def hasPicture (c : Char) : Bool :=
  !(inkless.has c || unassigned.has c || graphemeExtend.has c && !soundMarks.has c)

/-- How one character stands between double quotes. -/
def escape (c : Char) : List Char :=
  match c with
  | '"' => ['\\', '"']
  | '\\' => ['\\', '\\']
  | '\n' => ['\\', 'n']
  | '\r' => ['\\', 'r']
  | '\t' => ['\\', 't']
  | '\x00' => ['\\', '0']
  | c =>
    if hasPicture c then [c]
    else ['\\', 'u', '\x7b'] ++ Nat.toDigits 16 c.toNat ++ ['\x7d']

/-- A text between double quotes. -/
def quoted (text : List Char) : List Char :=
  '"' :: text.flatMap escape ++ ['"']

end Chip8.Text
