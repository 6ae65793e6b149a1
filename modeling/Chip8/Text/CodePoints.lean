/-!
Sets of characters written as ranges of code points, the form in which the tables of Unicode
give a property. The ranges ascend, so a search for a character ends at the first one that lies
above it.
-/

namespace Chip8.Text

/-- A set of characters as closed ranges of code points, first and last of each, in ascending
order. -/
abbrev CodePoints := List (Nat × Nat)

namespace CodePoints

/-- Whether a character lies in one of the ranges. -/
def has : CodePoints → Char → Bool
  | [], _ => false
  | (first, last) :: rest, c => first ≤ c.toNat && (c.toNat ≤ last || has rest c)

end CodePoints

end Chip8.Text
