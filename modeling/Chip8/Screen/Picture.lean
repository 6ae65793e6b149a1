import Chip8.Screen.Basic

/-!
A screen as text: a line for every row and a character for every pixel.
-/

namespace Chip8

/-- A lit pixel is a hash and a dark one a dot. -/
def pixelChar (lit : Bool) : Char :=
  if lit then '#' else '.'

/-- The rows as lines, each with its line end. -/
def Screen.picture (s : Screen) : List Char :=
  s.rows.flatMap fun row => row.map pixelChar ++ ['\n']

/-- The picture under a heading. -/
def Screen.titledPicture (s : Screen) : List Char :=
  "Framebuffer\n".toList ++ s.picture

end Chip8
