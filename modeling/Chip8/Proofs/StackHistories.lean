import Chip8.Proofs.Calls

/-!
Histories of a stack of calls. Whatever is asked of a new stack, it answers as a list of addresses
would that takes up to sixteen of them and drops the others. The stack is that list and zeros behind
it, because a slot is cleared when its address is taken, so the list tells all there is to tell.
-/

namespace Chip8.CallStack

/-- A request to a stack of calls. -/
inductive Command
  | push (address : UInt16)
  | pop
  | reset
deriving DecidableEq, Repr

/-- Carries out a request. Only a pop is answered, with the address it takes. -/
def perform (s : CallStack) : Command → Option UInt16 × CallStack
  | .push address => (none, s.push address)
  | .pop => (some s.pop.1, s.pop.2)
  | .reset => (none, empty)

/-- What a request does to a list of addresses, the latest at its end, with room for sixteen. -/
def Command.onList (calls : List UInt16) : Command → Option UInt16 × List UInt16
  | .push address => (none, if calls.length < 16 then calls ++ [address] else calls)
  | .pop => (some (calls.getLast?.getD 0), calls.dropLast)
  | .reset => (none, [])

/-- The answers to some requests, and what is left after them. -/
def carryOut {σ : Type} (step : σ → Command → Option UInt16 × σ) (s : σ) :
    List Command → List (Option UInt16) × σ
  | [] => ([], s)
  | c :: rest =>
      let (answer, next) := step s c
      let (answers, last) := carryOut step next rest
      (answer :: answers, last)

/-- A new stack after a history of requests. -/
abbrev after (history : List Command) : CallStack :=
  (carryOut perform empty history).2

section CarryOut

variable {σ τ : Type} {step : σ → Command → Option UInt16 × σ}

/-- What every request keeps, a history keeps. -/
theorem carryOut_keeps {Kept : σ → Prop} (hstep : ∀ s c, Kept s → Kept (step s c).2) {s : σ}
    (h : Kept s) (history : List Command) : Kept (carryOut step s history).2 := by
  induction history generalizing s with
  | nil => exact h
  | cons c rest ih => exact ih (hstep s c h)

/-- If every request does to a view what it does to the thing viewed, a history does. -/
theorem carryOut_view {step' : τ → Command → Option UInt16 × τ} {view : σ → τ}
    (hstep : ∀ s c, step' (view s) c = ((step s c).1, view (step s c).2)) (s : σ)
    (history : List Command) :
    carryOut step' (view s) history =
      ((carryOut step s history).1, view (carryOut step s history).2) := by
  induction history generalizing s with
  | nil => rfl
  | cons c rest ih => simp only [carryOut, hstep, ih]

end CarryOut

theorem onList_toList (s : CallStack) (c : Command) :
    c.onList s.toList = ((s.perform c).1, (s.perform c).2.toList) := by
  cases c with
  | push address => rw [Command.onList, perform, toList_push, length_toList]
  | pop => rw [Command.onList, perform, pop_fst, toList_pop_snd]
  | reset => rw [Command.onList, perform, toList_empty]

theorem Tidy.perform {s : CallStack} (h : s.Tidy) (c : Command) : (s.perform c).2.Tidy := by
  cases c with
  | push address => exact h.push address
  | pop => exact h.pop
  | reset => exact tidy_empty

theorem tidy_after (history : List Command) : (after history).Tidy :=
  carryOut_keeps (fun _ c h => h.perform c) tidy_empty history

/-- A tidy stack is the list of its calls and zeros behind it. -/
theorem Tidy.slots_eq {s : CallStack} (h : s.Tidy) :
    s.slots.toList = s.toList ++ List.replicate (16 - s.depth) 0 := by
  have hbehind : s.slots.toList.drop s.depth = List.replicate (16 - s.depth) 0 := by
    rw [List.eq_replicate_iff, List.length_drop, Vector.length_toList]
    refine ⟨rfl, ?_⟩
    intro address hmem
    obtain ⟨k, hk, rfl⟩ := List.mem_drop_iff_getElem.1 hmem
    have hslot : s.depth + k < 16 := by
      rw [Vector.length_toList] at hk
      omega
    rw [Vector.getElem_toList]
    exact h (s.depth + k) hslot (Nat.le_add_right ..)
  rw [← hbehind]
  exact (List.take_append_drop ..).symm

theorem isEmpty_toList (s : CallStack) : s.toList.isEmpty = s.isEmpty := by
  rw [isEmpty, ← length_toList]
  cases s.toList <;> rfl

/-- A stack of calls is a list with room for sixteen. Whatever is asked of a new one, it answers and
ends up as the list does, and its depth and its being empty are those of the list. Behind the list
all slots are zero, so two stacks are the same as soon as their lists are. -/
theorem requests_refine_list (history : List Command) :
    let s := after history
    carryOut Command.onList [] history = ((carryOut perform empty history).1, s.toList) ∧
      s.depth = s.toList.length ∧ s.isEmpty = s.toList.isEmpty ∧ s.toList.length ≤ 16 ∧
      s.slots.toList = s.toList ++ List.replicate (16 - s.depth) 0 ∧
      ∀ others, s = after others ↔ s.toList = (after others).toList := by
  intro s
  refine ⟨?_, s.length_toList.symm, s.isEmpty_toList.symm, ?_, (tidy_after history).slots_eq, ?_⟩
  · rw [← toList_empty]
    exact carryOut_view onList_toList empty history
  · rw [length_toList]
    exact s.depth_le
  · intro others
    constructor
    · exact congrArg toList
    · exact (tidy_after history).ext (tidy_after others)

/-- The seventeenth address is dropped, and the sixteenth comes back. -/
example : (carryOut perform empty (List.replicate 16 (.push 0x20F) ++ [.push 0xFFF, .pop])).1 =
    List.replicate 17 none ++ [some 0x20F] := by
  decide

end Chip8.CallStack
