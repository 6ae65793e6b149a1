import Chip8.Proofs.LoopEffects
import Chip8.Proofs.MissingRegisters

/-!
Calls and returns. Where they are properly nested and the stack has room for the depth they go to,
every return leads behind the call that it belongs to, and in the end the stack is as it was. What
is executed between them, by which way it came to be executed and what happens to the keys and the
timers meanwhile, makes no difference to that.
-/

namespace Chip8

namespace CallStack

/-- The slots that hold no call are zero. -/
def Tidy (s : CallStack) : Prop :=
  ∀ k (h : k < 16), s.depth ≤ k → s.slots[k] = 0

theorem tidy_empty : empty.Tidy := by
  intro k hk _
  simp [empty]

theorem Tidy.push {s : CallStack} (h : s.Tidy) (address : UInt16) : (s.push address).Tidy := by
  unfold CallStack.push
  split
  · intro k hk hdepth
    dsimp only at hdepth ⊢
    rw [Vector.getElem_set_ne _ _ (by omega)]
    exact h k hk (by omega)
  · exact h

theorem Tidy.pop {s : CallStack} (h : s.Tidy) : s.pop.2.Tidy := by
  unfold CallStack.pop
  split
  · exact h
  · intro k hk hdepth
    dsimp only at hdepth ⊢
    rw [Vector.getElem_set]
    split
    · rfl
    · exact h k hk (by omega)

/-- Tidy stacks with the same calls are the same. -/
theorem Tidy.ext {s t : CallStack} (hs : s.Tidy) (ht : t.Tidy) (h : s.toList = t.toList) :
    s = t := by
  have hdepth : s.depth = t.depth := by
    rw [← length_toList, h, length_toList]
  have hslots : s.slots = t.slots := by
    apply Vector.ext
    intro k hk
    by_cases hcall : k < s.depth
    · have hget := congrArg (fun calls : List UInt16 => calls[k]?) h
      simp only [toList, List.getElem?_take, hcall, hdepth ▸ hcall, if_true] at hget
      simpa [hk] using hget
    · rw [hs k hk (by omega), ht k hk (by omega)]
  obtain ⟨slots, depth, hle⟩ := s
  obtain ⟨slots', depth', hle'⟩ := t
  subst hdepth hslots
  rfl

end CallStack

/-- Whether an instruction leaves the stack alone. -/
def Instruction.keepsStack : Instruction → Bool
  | .call _ | .ret => false
  | _ => true

/-- Calls and returns are properly nested in some instructions, to a depth of at most `d`. -/
inductive Nested : Nat → List Instruction → Prop
  | nil {d : Nat} : Nested d []
  | other {d : Nat} {i : Instruction} {rest : List Instruction} (hkeeps : i.keepsStack = true)
      (hrest : Nested d rest) : Nested d (i :: rest)
  | call {d : Nat} {address : UInt16} {inside rest : List Instruction} (hinside : Nested d inside)
      (hrest : Nested (d + 1) rest) : Nested (d + 1) (.call address :: (inside ++ .ret :: rest))

/-- An instruction that was executed successfully, with the machine before and after it. -/
structure Execution (σ : Type) [Display σ] where
  before : Machine σ
  instruction : Instruction
  after : Machine σ
  done : Machine.execute instruction before = .ok () after

namespace Machine

variable {σ : Type} [Display σ]

/-- The executions that come about when instructions are to be executed one after the other. -/
def executions (m : Machine σ) : List Instruction → List (Execution σ)
  | [] => []
  | i :: rest =>
      if h : i.fault? = none then
        ⟨m, i, m.executed i, execute_of_none h m⟩ :: (m.executed i).executions rest
      else []

/-- The execution that comes about in the next cycle, unless the machine waits. -/
def cycleExecutions (m : Machine σ) : List (Execution σ) :=
  match m.mode with
  | .running => [⟨m.fetched, .decode m.nextOpcode, _, execute_decode m.fetched m.nextOpcode⟩]
  | .waitingForKey _ => []

end Machine

namespace Run

variable {σ : Type} [Display σ]

/-- The executions that a request brings about. -/
def executions (r : Run σ) : Request → List (Execution σ)
  | .advance _ => if r.begins then r.machine.cycleExecutions else []
  | .step => r.machine.cycleExecutions
  | .execute i => r.machine.executions [i]
  | .executeAll instructions => r.machine.executions instructions
  | .act _ | .tick | .setDelay _ | .setSound _ | .start _ | .load _ | .reset => []

def executionsAll (r : Run σ) : List Request → List (Execution σ)
  | [] => []
  | q :: rest => r.executions q ++ (r.fulfil q).executionsAll rest

end Run

/-! What executions do to the stack. -/

namespace Machine

variable {σ : Type} [Display σ]

theorem executed_stack (m : Machine σ) {i : Instruction} (h : i.keepsStack = true) :
    (m.executed i).stack = m.stack := by
  cases i with
  | call address | ret => cases h
  | storeRegisters x => rw [executed_storeRegisters]
  | loadRegisters x => rw [executed_loadRegisters]
  | _ => rfl

omit [Display σ] in
theorem interrupted_stack (m : Machine σ) (i : Instruction) :
    (m.interrupted i).stack = m.stack := by
  cases i with
  | loadRegisters x => simp only [interrupted, loadUpTo]
  | _ => rfl

end Machine

namespace Execution

variable {σ : Type} [Display σ]

theorem after_eq (e : Execution σ) : e.after = e.before.executed e.instruction := by
  have houtcome := Machine.execute_outcome e.before e.instruction
  rw [e.done] at houtcome
  cases hfault : e.instruction.fault? with
  | none =>
      rw [hfault] at houtcome
      exact (EStateM.Result.ok.inj houtcome).2
  | some fault =>
      rw [hfault] at houtcome
      cases houtcome

theorem fault?_none (e : Execution σ) : e.instruction.fault? = none := by
  cases hfault : e.instruction.fault? with
  | none => rfl
  | some fault =>
      have hdone := e.done
      rw [Machine.execute_of_some hfault] at hdone
      cases hdone

/-- Only an instruction that waits for a key may name a register that the machine does not have. -/
theorem registers_lt (e : Execution σ) (hawait : ∀ x, e.instruction ≠ .awaitKey x) :
    ∀ k ∈ e.instruction.registers, k.toNat < 16 :=
  Machine.toNat_lt_of_fault?_none e.fault?_none hawait

theorem stack_of_keepsStack (e : Execution σ) (h : e.instruction.keepsStack = true) :
    e.after.stack = e.before.stack := by
  rw [e.after_eq]
  exact e.before.executed_stack h

theorem stack_of_call (e : Execution σ) {address : UInt16} (h : e.instruction = .call address) :
    e.after.stack = e.before.stack.push e.before.registers.pc := by
  rw [e.after_eq, h]
  rfl

theorem stack_of_ret (e : Execution σ) (h : e.instruction = .ret) :
    e.after.stack = e.before.stack.pop.2 ∧
      e.after.registers.pc = e.before.stack.pop.1 + 2 := by
  rw [e.after_eq, h]
  exact ⟨rfl, rfl⟩

theorem tidy (e : Execution σ) (h : e.before.stack.Tidy) : e.after.stack.Tidy := by
  cases hi : e.instruction with
  | call address =>
      rw [e.stack_of_call hi]
      exact h.push _
  | ret =>
      rw [(e.stack_of_ret hi).1]
      exact h.pop
  | _ =>
      rw [e.stack_of_keepsStack (by rw [hi]; rfl)]
      exact h

/-- Executions that follow one another from one stack to another: each finds the stack as the one
before it left it. -/
def Linked (s : CallStack) : List (Execution σ) → CallStack → Prop
  | [], t => t = s
  | e :: rest, t => e.before.stack = s ∧ Linked e.after.stack rest t

theorem linked_append {s t : CallStack} {first second : List (Execution σ)} :
    Linked s (first ++ second) t ↔ ∃ u, Linked s first u ∧ Linked u second t := by
  induction first generalizing s with
  | nil => simp [Linked]
  | cons e rest ih => simp [Linked, ih, and_assoc]

theorem Linked.tidy {s t : CallStack} {executions : List (Execution σ)}
    (h : Linked s executions t) (hs : s.Tidy) : t.Tidy := by
  induction executions generalizing s with
  | nil => exact h ▸ hs
  | cons e rest ih =>
      obtain ⟨hbefore, hrest⟩ := h
      exact ih hrest (e.tidy (hbefore ▸ hs))

end Execution

namespace Machine

variable {σ : Type} [Display σ]

theorem executions_linked (m : Machine σ) (instructions : List Instruction) :
    Execution.Linked m.stack (m.executions instructions)
      (afterwards (executeAll instructions) m).stack := by
  induction instructions generalizing m with
  | nil => rfl
  | cons i rest ih =>
      unfold executions
      by_cases hfault : i.fault? = none
      · rw [dif_pos hfault, afterwards, executeAll_cons_of_none hfault]
        exact ⟨rfl, ih (m.executed i)⟩
      · obtain ⟨fault, hfault'⟩ := Option.ne_none_iff_exists'.1 hfault
        rw [dif_neg hfault, afterwards, executeAll_cons_of_some hfault']
        exact m.interrupted_stack i

theorem afterwards_executeAll_single (m : Machine σ) (i : Instruction) :
    afterwards (executeAll [i]) m = afterwards (execute i) m := by
  simp only [afterwards, executeAll, bind, EStateM.bind]
  cases execute i m <;> rfl

theorem execute_linked (m : Machine σ) (i : Instruction) :
    Execution.Linked m.stack (m.executions [i]) (afterwards (execute i) m).stack := by
  rw [← m.afterwards_executeAll_single i]
  exact m.executions_linked [i]

/-- The instructions of the executions are those that are executed successfully. -/
theorem executions_instructions (m : Machine σ) (instructions : List Instruction) :
    (m.executions instructions).map Execution.instruction = m.completed instructions := by
  induction instructions generalizing m with
  | nil => rfl
  | cons i rest ih =>
      unfold executions completed
      by_cases hfault : i.fault? = none
      · rw [dif_pos hfault, execute_of_none hfault, List.map_cons, ih]
      · obtain ⟨fault, hfault'⟩ := Option.ne_none_iff_exists'.1 hfault
        rw [dif_neg hfault, execute_of_some hfault']
        rfl

theorem cycleExecutions_instructions (m : Machine σ) :
    m.cycleExecutions.map Execution.instruction = m.upcoming.toList := by
  unfold cycleExecutions upcoming
  cases m.mode <;> rfl

omit [Display σ] in
theorem stack_unkeyed : Unkeyed (Machine.stack (σ := σ)) :=
  ⟨fun _ _ => rfl, fun _ _ => rfl, fun _ _ _ => rfl⟩

theorem advanced_linked (m : Machine σ) :
    Execution.Linked m.stack m.cycleExecutions m.advanced.stack := by
  unfold cycleExecutions
  cases hmode : m.mode with
  | running =>
      rw [advanced_running hmode]
      exact ⟨rfl, rfl⟩
  | waitingForKey x =>
      rw [advanced_waiting hmode]
      rfl

end Machine

namespace Run

variable {σ : Type} [Display σ]

/-- Between two stands of a run the stack changes by the executions in between only. -/
theorem fulfil_linked (r : Run σ) {q : Request} (hreset : q ≠ .reset) :
    Execution.Linked r.machine.stack (r.executions q) (r.fulfil q).machine.stack := by
  cases q with
  | reset => exact absurd rfl hreset
  | act action =>
      cases action with
      | panel action => rfl
      | keypad command => rfl
  | tick | setDelay value | setSound value | start panel => rfl
  | load program =>
      simp only [executions, fulfil, onMachine, Machine.load]
      cases r.machine.memory.loadProgram program with
      | ok memory => rfl
      | error failure => rfl
  | execute i => exact r.machine.execute_linked i
  | executeAll instructions => exact r.machine.executions_linked instructions
  | step =>
      have hstack := Machine.stack_unkeyed.step r.machine
      simp only [executions, fulfil, onMachine]
      rw [hstack]
      exact r.machine.advanced_linked
  | advance meanwhile =>
      have hstack := advanceWith_unkeyed Machine.stack_unkeyed r meanwhile
      simp only [executions, fulfil]
      rw [hstack]
      split
      · exact r.machine.advanced_linked
      · rfl

theorem fulfilAll_linked (r : Run σ) {requests : List Request}
    (hreset : Request.reset ∉ requests) :
    Execution.Linked r.machine.stack (r.executionsAll requests)
      (r.fulfilAll requests).machine.stack := by
  induction requests generalizing r with
  | nil => rfl
  | cons q rest ih =>
      rw [List.mem_cons, not_or] at hreset
      obtain ⟨hfirst, hrest⟩ := hreset
      exact Execution.linked_append.2
        ⟨_, r.fulfil_linked (Ne.symm hfirst), ih (r.fulfil q) hrest⟩

theorem executions_instructions (r : Run σ) (q : Request) :
    (r.executions q).map Execution.instruction = r.completed q := by
  cases q with
  | advance meanwhile =>
      simp only [executions, completed]
      split
      · exact r.machine.cycleExecutions_instructions
      · rfl
  | step => exact r.machine.cycleExecutions_instructions
  | execute i => exact r.machine.executions_instructions [i]
  | executeAll instructions => exact r.machine.executions_instructions instructions
  | act action | tick | setDelay value | setSound value | start panel | load program | reset => rfl

theorem executionsAll_instructions (r : Run σ) (requests : List Request) :
    (r.executionsAll requests).map Execution.instruction = r.completedAll requests := by
  induction requests generalizing r with
  | nil => rfl
  | cons q rest ih =>
      rw [executionsAll, completedAll, List.map_append, ih, r.executions_instructions q]

end Run

/-! Calls and returns. -/

namespace Execution

variable {σ : Type} [Display σ]

/-- An execution does right by the stack, after some others: a call is remembered, and a return
finds a call and goes on behind it. That call is the one from which on all is properly nested. -/
structure Orderly (sofar : List (Execution σ)) (e : Execution σ) : Prop where
  remembered : ∀ address, e.instruction = .call address →
    e.after.stack.toList = e.before.stack.toList ++ [e.before.registers.pc]
  goesBack : e.instruction = .ret → e.before.stack.isEmpty = false ∧
    ∃ earlier c inside, sofar = earlier ++ c :: inside ∧
      (∃ address, c.instruction = .call address) ∧
      (∃ d, Nested d (inside.map Execution.instruction)) ∧
      e.after.registers.pc = c.before.registers.pc + 2

/-- All of some executions do right by the stack, after some others. -/
def AllOrderly : List (Execution σ) → List (Execution σ) → Prop
  | _, [] => True
  | sofar, e :: rest => Orderly sofar e ∧ AllOrderly (sofar ++ [e]) rest

theorem allOrderly_append {sofar first second : List (Execution σ)} :
    AllOrderly sofar (first ++ second) ↔
      AllOrderly sofar first ∧ AllOrderly (sofar ++ first) second := by
  induction first generalizing sofar with
  | nil => simp [AllOrderly]
  | cons e rest ih => simp [AllOrderly, ih, and_assoc]

theorem orderly_of_keepsStack (sofar : List (Execution σ)) {e : Execution σ}
    (h : e.instruction.keepsStack = true) : Orderly sofar e := by
  constructor
  · intro address hcall
    rw [hcall] at h
    cases h
  · intro hret
    rw [hret] at h
    cases h

end Execution

theorem CallStack.depth_of_toList {s : CallStack} {calls : List UInt16} (h : s.toList = calls) :
    s.depth = calls.length := by
  rw [← h, length_toList]

namespace Execution

variable {σ : Type} [Display σ]

theorem orderly_of_call {c : Execution σ} {address : UInt16}
    (hcall : c.instruction = .call address) (hroom : c.before.stack.depth < 16)
    (sofar : List (Execution σ)) :
    c.after.stack.toList = c.before.stack.toList ++ [c.before.registers.pc] ∧
      Orderly sofar c := by
  have hpushed : c.after.stack.toList = c.before.stack.toList ++ [c.before.registers.pc] := by
    rw [c.stack_of_call hcall, CallStack.toList_push, if_pos hroom]
  refine ⟨hpushed, fun _ _ => hpushed, fun hret => ?_⟩
  rw [hret] at hcall
  cases hcall

/-- A return with a call on top of the stack goes on behind it, and takes it off. -/
theorem orderly_of_ret {c e : Execution σ} {address : UInt16} {d : Nat}
    {earlier inside : List (Execution σ)} {calls : List UInt16}
    (hcall : c.instruction = .call address)
    (hinside : Nested d (inside.map Execution.instruction)) (hret : e.instruction = .ret)
    (htop : e.before.stack.toList = calls ++ [c.before.registers.pc]) :
    e.after.stack.toList = calls ∧ Orderly (earlier ++ c :: inside) e := by
  obtain ⟨hpopped, htarget⟩ := e.stack_of_ret hret
  rw [CallStack.pop_fst, htop, List.getLast?_concat, Option.getD_some] at htarget
  refine ⟨by rw [hpopped, CallStack.toList_pop_snd, htop, List.dropLast_concat], ?_, ?_⟩
  · intro _ hcalls
    rw [hret] at hcalls
    cases hcalls
  · intro _
    refine ⟨?_, earlier, c, inside, rfl, ⟨address, hcall⟩, ⟨d, hinside⟩, htarget⟩
    have hdepth := CallStack.depth_of_toList htop
    rw [List.length_append, List.length_singleton] at hdepth
    simp only [CallStack.isEmpty, beq_eq_false_iff_ne]
    omega

end Execution

/-- Executions in which calls and returns are properly nested, and that find room on the stack for
the depth they go to, all do right by it and leave the calls that were on it. The induction is on
the nesting, over every stack that has the room. -/
theorem Nested.allOrderly {σ : Type} [Display σ] {d : Nat} {code : List Instruction}
    (h : Nested d code) {executions : List (Execution σ)}
    (hcode : executions.map Execution.instruction = code) {s t : CallStack}
    (hlinked : Execution.Linked s executions t) (hroom : s.depth + d ≤ 16)
    (sofar : List (Execution σ)) :
    t.toList = s.toList ∧ Execution.AllOrderly sofar executions := by
  induction h generalizing executions s t sofar with
  | nil =>
      rw [List.map_eq_nil_iff] at hcode
      subst hcode
      have hsame : t = s := hlinked
      rw [hsame]
      exact ⟨rfl, trivial⟩
  | other hkeeps _ ih =>
      obtain ⟨e, rest, rfl, rfl, hrest⟩ := List.map_eq_cons_iff.1 hcode
      obtain ⟨hbefore, hafter⟩ := hlinked
      rw [e.stack_of_keepsStack hkeeps, hbefore] at hafter
      obtain ⟨hcalls, horderly⟩ := ih hrest hafter hroom (sofar ++ [e])
      exact ⟨hcalls, Execution.orderly_of_keepsStack sofar hkeeps, horderly⟩
  | call hinside _ ihInside ihRest =>
      obtain ⟨c, behind, rfl, hcall, hbehind⟩ := List.map_eq_cons_iff.1 hcode
      obtain ⟨inside, closing, rfl, rfl, hclosing⟩ := List.map_eq_append_iff.1 hbehind
      obtain ⟨e, rest, rfl, hret, hrest⟩ := List.map_eq_cons_iff.1 hclosing
      obtain ⟨rfl, hlinkedBehind⟩ := hlinked
      obtain ⟨u, hlinkedInside, hfinds, hlinkedRest⟩ := Execution.linked_append.1 hlinkedBehind
      obtain ⟨hpushed, hcallOrderly⟩ := Execution.orderly_of_call hcall (by omega) sofar
      have hdepth := CallStack.depth_of_toList hpushed
      rw [List.length_append, CallStack.length_toList, List.length_singleton] at hdepth
      obtain ⟨hkept, hinsideOrderly⟩ := ihInside rfl hlinkedInside (by omega) (sofar ++ [c])
      -- The inside leaves the call where it was: on top of the stack.
      have htop : e.before.stack.toList = c.before.stack.toList ++ [c.before.registers.pc] := by
        rw [hfinds, hkept, hpushed]
      obtain ⟨hleft, hretOrderly⟩ : e.after.stack.toList = c.before.stack.toList ∧
          Execution.Orderly (sofar ++ c :: inside) e :=
        Execution.orderly_of_ret hcall hinside hret htop
      have hdepthLeft := CallStack.depth_of_toList hleft
      rw [CallStack.length_toList] at hdepthLeft
      obtain ⟨hkeptRest, hrestOrderly⟩ :=
        ihRest hrest hlinkedRest (by omega) (sofar ++ c :: inside ++ [e])
      have hbefore : sofar ++ [c] ++ inside = sofar ++ c :: inside := by simp
      refine ⟨hkeptRest.trans hleft, hcallOrderly, ?_⟩
      rw [Execution.allOrderly_append, hbefore]
      exact ⟨hinsideOrderly, hretOrderly, hrestOrderly⟩

namespace Run

variable {σ : Type} [Display σ]

theorem fulfil_tidy {r : Run σ} (h : r.machine.stack.Tidy) (q : Request) :
    (r.fulfil q).machine.stack.Tidy := by
  by_cases hreset : q = .reset
  · subst hreset
    exact CallStack.tidy_empty
  · exact (r.fulfil_linked hreset).tidy h

/-- The stack of a machine is always tidy. -/
theorem Reachable.tidy {r : Run σ} (h : r.Reachable) : r.machine.stack.Tidy := by
  induction h with
  | start => exact CallStack.tidy_empty
  | @operate s _ o ih =>
      obtain ⟨q, hq⟩ := s.operate_eq_fulfil o
      rw [hq]
      exact fulfil_tidy ih q

/-- Calls and returns that are properly nested. Whatever is asked of a run, a reset apart, if the
instructions executed on the way have their calls and returns properly nested, no deeper than there
is room on the stack, then no call is dropped, no return finds the stack empty, each return goes on
behind the call it belongs to, and the stack ends up as it was. -/
theorem nested_calls_return (r : Run σ) (requests : List Request)
    (hreset : Request.reset ∉ requests)
    (hnested : Nested (16 - r.machine.stack.toList.length) (r.completedAll requests)) :
    let s := r.fulfilAll requests
    s.machine.stack.toList = r.machine.stack.toList ∧
      (r.machine.stack.Tidy → s.machine.stack = r.machine.stack) ∧
      ∀ sofar e rest, r.executionsAll requests = sofar ++ e :: rest → e.Orderly sofar := by
  intro s
  have hlinked := r.fulfilAll_linked hreset
  have hle := r.machine.stack.depth_le
  rw [CallStack.length_toList] at hnested
  obtain ⟨hcalls, horderly⟩ :=
    hnested.allOrderly (r.executionsAll_instructions requests) hlinked (by omega) []
  refine ⟨hcalls, fun htidy => (hlinked.tidy htidy).ext htidy hcalls, ?_⟩
  intro sofar e rest hsplit
  rw [hsplit, Execution.allOrderly_append] at horderly
  exact horderly.2.1

/-- A program that calls from within a call, with a tick, a key and two instructions executed
directly in between. -/
theorem nested_calls_return_twice :
    let r := loaded [0x22, 0x06, 0x60, 0x01, 0x12, 0x04, 0x22, 0x0A, 0x00, 0xEE, 0x6A, 0x07, 0x00,
      0xEE]
    let requests : List Request := [.step, .tick, .advance [], .advance [],
      .act (.keypad (.press 3)), .execute (.draw 0 0 5), .execute (.jump 0x20C), .step, .step,
      .step]
    let s := r.fulfilAll requests
    r.completedAll requests = [.call 0x206, .call 0x20A, .load 10 7, .draw 0 0 5, .jump 0x20C,
        .ret, .ret, .load 0 1] ∧
      s.machine.stack = r.machine.stack ∧
      ∀ sofar e rest, r.executionsAll requests = sofar ++ e :: rest → e.Orderly sofar := by
  intro r requests s
  have hcode : r.completedAll requests = [.call 0x206, .call 0x20A, .load 10 7, .draw 0 0 5,
      .jump 0x20C, .ret, .ret, .load 0 1] := by
    decide +kernel
  have hplain : Nested 14 [.load 10 7, .draw 0 0 5, .jump 0x20C] :=
    .other rfl (.other rfl (.other rfl .nil))
  have hinner : Nested 15 [.call 0x20A, .load 10 7, .draw 0 0 5, .jump 0x20C, .ret] :=
    hplain.call .nil
  have hnested : Nested 16 (r.completedAll requests) := by
    rw [hcode]
    exact hinner.call (.other rfl .nil)
  obtain ⟨-, hstack, horderly⟩ := nested_calls_return r requests (by decide) hnested
  exact ⟨hcode, hstack (loaded_reachable _).tidy, horderly⟩

end Run

end Chip8
