/-!
The monochrome screen, 64 pixels wide and 32 high, joined at its edges. A pixel is only ever
toggled, never set, because drawing has to know when it darkens a lit one.
-/

namespace Chip8

structure Screen where
  pixels : Vector Bool 2048
deriving DecidableEq

namespace Screen

def blank : Screen :=
  ⟨Vector.replicate 2048 false⟩

/-- Where the pixel of a column and a row is kept. Both wrap around. -/
def place (x y : Nat) : Fin 2048 :=
  ⟨y % 32 * 64 + x % 64, by omega⟩

def get (s : Screen) (x y : Nat) : Bool :=
  s.pixels[place x y]

/-- Inverts a pixel, and tells whether it was lit. -/
def toggle (s : Screen) (x y : Nat) : Bool × Screen :=
  let p := place x y
  let wasLit := s.pixels[p]
  (wasLit, ⟨s.pixels.set p (!wasLit)⟩)

/-- Inverts pixels one after the other, and counts those that were lit when their turn came. -/
def toggleAll (s : Screen) : List (Nat × Nat) → Nat × Screen
  | [] => (0, s)
  | (x, y) :: rest =>
      let (hit, s) := s.toggle x y
      let (hits, s) := s.toggleAll rest
      (hits + hit.toNat, s)

/-- How many pixels are lit. -/
def lit (s : Screen) : Nat :=
  s.pixels.toList.count true

/-- The pixels of a row, leftmost first. -/
def row (s : Screen) (y : Nat) : List Bool :=
  (List.range 64).map fun x => s.get x y

/-- All rows, topmost first. -/
def rows (s : Screen) : List (List Bool) :=
  (List.range 32).map s.row

/-- The rows that differ between two moments, with their numbers and new pixels. -/
def rowsSince (now before : Screen) : List (Nat × List Bool) :=
  (List.range 32).filterMap fun y =>
    if now.row y = before.row y then none else some (y, now.row y)

/-- The pixels that a sprite covers when its corner is at `(x, y)`: one for every set bit, bits
from the left and rows from the top. -/
def spritePixels (x y : Nat) (sprite : List UInt8) : List (Nat × Nat) :=
  sprite.zipIdx.flatMap fun (bits, row) =>
    (List.range 8).filterMap fun column =>
      if bits.toNat.testBit (7 - column) then some (x + column, y + row) else none

/-- Two pixels share a place when they agree modulo the size of the screen. -/
theorem place_eq_iff (x y a b : Nat) :
    place x y = place a b ↔ x % 64 = a % 64 ∧ y % 32 = b % 32 := by
  simp only [place, Fin.mk.injEq]
  omega

theorem get_blank (x y : Nat) : blank.get x y = false := by
  simp [get, blank]

end Screen

end Chip8
