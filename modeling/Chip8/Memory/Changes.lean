import Chip8.Memory.Basic

/-!
What happened to memory between two moments, as runs of neighbouring cells whose bytes differ.
-/

namespace Chip8

/-- The runs of differing bytes in paired cells, with the place of the first byte of each. -/
def changedRuns (place : Nat) : List (UInt8 × UInt8) → List (Nat × List UInt8)
  | [] => []
  | (before, after) :: rest =>
      let runs := changedRuns (place + 1) rest
      if before = after then runs
      else
        match runs with
        | [] => [(place, [after])]
        | (start, bytes) :: more =>
            if start = place + 1 then (place, after :: bytes) :: more
            else (place, [after]) :: (start, bytes) :: more

/-- The changed cells in ascending order, adjacent ones in one run, with their new bytes. -/
def Memory.changesSince (now before : Memory) : List (Nat × List UInt8) :=
  changedRuns 0 (before.cells.toList.zip now.cells.toList)

end Chip8
