/-!
The stack of calls, at most sixteen deep. A call on a full stack is not remembered and a return
on an empty one finds address zero; neither stops the machine. Slots above the last call are
kept at zero, so that two stacks with the same calls are the same value.
-/

namespace Chip8

structure CallStack where
  slots : Vector UInt16 16
  depth : Nat
  depth_le : depth ≤ 16
deriving DecidableEq

namespace CallStack

def empty : CallStack :=
  ⟨Vector.replicate 16 0, 0, by decide⟩

/-- The remembered addresses, the oldest first. -/
def toList (s : CallStack) : List UInt16 :=
  s.slots.toList.take s.depth

def isEmpty (s : CallStack) : Bool :=
  s.depth == 0

def isFull (s : CallStack) : Bool :=
  s.depth == 16

/-- Remembers an address if there is room. -/
def push (s : CallStack) (address : UInt16) : CallStack :=
  if h : s.depth < 16 then ⟨s.slots.set s.depth address, s.depth + 1, h⟩ else s

/-- Takes the latest address, or zero from an empty stack. -/
def pop (s : CallStack) : UInt16 × CallStack :=
  if h : s.depth = 0 then (0, s)
  else
    have hle := s.depth_le
    (s.slots[s.depth - 1], ⟨s.slots.set (s.depth - 1) 0, s.depth - 1, by omega⟩)

theorem length_toList (s : CallStack) : s.toList.length = s.depth := by
  simp [toList, s.depth_le]

theorem toList_empty : empty.toList = [] := by
  simp [toList, empty]

/-- A push appends to the list, as long as there is room. -/
theorem toList_push (s : CallStack) (address : UInt16) :
    (s.push address).toList = if s.depth < 16 then s.toList ++ [address] else s.toList := by
  unfold push
  split
  · next h =>
      simp only [toList, Vector.toList_set]
      rw [List.take_succ_eq_append_getElem (by simpa using h)]
      have hlen : (s.slots.toList.take s.depth).length ≤ s.depth := List.length_take_le ..
      simp [List.take_set, List.set_eq_of_length_le hlen]
  · rfl

/-- A pop takes the last address of the list, and finds zero when there is none. -/
theorem pop_fst (s : CallStack) : s.pop.1 = s.toList.getLast?.getD 0 := by
  unfold pop
  split
  · next h => simp [toList, h]
  · next h =>
      have hle := s.depth_le
      rw [List.getLast?_eq_getElem?, length_toList, toList,
        List.getElem?_take_of_lt (by omega), List.getElem?_eq_getElem (by simp; omega)]
      simp

/-- What a pop leaves is the list without its last address. -/
theorem toList_pop_snd (s : CallStack) : s.pop.2.toList = s.toList.dropLast := by
  unfold pop
  split
  · next h => simp [toList, h]
  · next h =>
      have hle := s.depth_le
      simp only [toList, Vector.toList_set, List.take_set, List.dropLast_eq_take,
        List.length_take, Vector.length_toList, List.take_take]
      rw [List.set_eq_of_length_le (by rw [List.length_take]; omega)]
      congr 1
      omega

end CallStack

end Chip8
