import Chip8.Proofs.Footprints
import Mathlib.Data.List.DropRight

/-!
What the timers show. Over a whole history, and whatever else happens in it, each of them shows the
value that was stored in it last, less one for every tick since then, and zero when there were more
ticks than that. Instructions store values and so may somebody beside the run; a reset stores zero
in both.
-/

namespace Chip8

/-- One of the two timers. -/
inductive Timer
  | delay
  | sound
deriving DecidableEq, Repr

def Timers.value (t : Timers) : Timer → UInt8
  | .delay => t.delay
  | .sound => t.sound

/-- The register from which an instruction stores a value in a timer, if it does. -/
def Instruction.storesFrom (timer : Timer) : Instruction → Option UInt8
  | .setDelay x => if timer = .delay then some x else none
  | .setSound x => if timer = .sound then some x else none
  | _ => none

/-- What may happen to the timers. An instruction that is executed happens to them in any case. -/
inductive Happening (σ : Type) [Display σ]
  | tick
  | stored (timer : Timer) (value : UInt8)
  | executed (e : Execution σ)

namespace Happening

variable {σ : Type} [Display σ]

def isTick : Happening σ → Bool
  | .tick => true
  | .stored .. | .executed _ => false

/-- The instruction that is executed, if one is. -/
def instruction? : Happening σ → Option Instruction
  | .tick | .stored .. => none
  | .executed e => some e.instruction

/-- The value that is stored in a timer, if one is. -/
def stores (timer : Timer) : Happening σ → Option UInt8
  | .tick => none
  | .stored t value => if t = timer then some value else none
  | .executed e => (e.instruction.storesFrom timer).map e.before.byteAt

/-- The value stored in a timer last, or zero if there was none yet. -/
def lastStored (timer : Timer) (happenings : List (Happening σ)) : UInt8 :=
  (happenings.filterMap (stores timer)).getLast?.getD 0

/-- How many ticks there were since a value was stored in a timer last. -/
def ticksSince (timer : Timer) (happenings : List (Happening σ)) : Nat :=
  (happenings.rtakeWhile fun h => (h.stores timer).isNone).countP isTick

end Happening

/-- What a timer is to show after some happenings. -/
def Timer.due {σ : Type} [Display σ] (timer : Timer) (happenings : List (Happening σ)) : Nat :=
  (Happening.lastStored timer happenings).toNat - Happening.ticksSince timer happenings

namespace Run

variable {σ : Type} [Display σ]

/-- What happens to the timers by a request. -/
def happenings (r : Run σ) (q : Request) : List (Happening σ) :=
  match q with
  | .tick => [.tick]
  | .setDelay value => [.stored .delay value]
  | .setSound value => [.stored .sound value]
  | .reset => [.stored .delay 0, .stored .sound 0]
  | .advance _ | .step | .act _ | .start _ | .load _ | .execute _ | .executeAll _ =>
      (r.executions q).map .executed

def happeningsAll (r : Run σ) : List Request → List (Happening σ)
  | [] => []
  | q :: rest => r.happenings q ++ (r.fulfil q).happeningsAll rest

end Run

namespace Timers

variable {σ : Type} [Display σ]

/-- The timers after a happening. -/
def undergo (t : Timers) (h : Happening σ) : Timers :=
  if h.isTick then t.tick
  else ⟨(h.stores .delay).getD t.delay, (h.stores .sound).getD t.sound⟩

@[simp] theorem undergo_tick (t : Timers) : t.undergo (.tick : Happening σ) = t.tick := rfl

@[simp] theorem undergo_stored_delay (t : Timers) (value : UInt8) :
    t.undergo (.stored .delay value : Happening σ) = {t with delay := value} := rfl

@[simp] theorem undergo_stored_sound (t : Timers) (value : UInt8) :
    t.undergo (.stored .sound value : Happening σ) = {t with sound := value} := rfl

theorem value_tick (t : Timers) (timer : Timer) :
    t.tick.value timer = countDown (t.value timer) := by
  cases timer <;> rfl

theorem value_undergo_tick (t : Timers) (timer : Timer) {h : Happening σ}
    (htick : h.isTick = true) : (t.undergo h).value timer = countDown (t.value timer) := by
  rw [undergo, if_pos htick, value_tick]

theorem value_undergo_stores (t : Timers) (timer : Timer) {h : Happening σ}
    (htick : h.isTick = false) :
    (t.undergo h).value timer = (h.stores timer).getD (t.value timer) := by
  rw [undergo, htick, if_neg Bool.false_ne_true]
  cases timer <;> rfl

/-- From zero on, a timer shows what is due. -/
theorem value_undergoAll (timer : Timer) (happenings : List (Happening σ)) :
    ((happenings.foldl undergo zero).value timer).toNat = timer.due happenings := by
  unfold Timer.due Happening.lastStored Happening.ticksSince
  induction happenings using List.reverseRecOn with
  | nil => cases timer <;> rfl
  | append_singleton earlier h ih =>
      rw [List.foldl_concat, List.filterMap_append]
      cases hstores : h.stores timer with
      | some value =>
          have htick : h.isTick = false := by
            cases h with
            | tick => cases hstores
            | stored | executed => rfl
          rw [value_undergo_stores _ _ htick, hstores,
            List.rtakeWhile_concat_neg _ _ _ (by simp [hstores])]
          simp [hstores]
      | none =>
          rw [List.rtakeWhile_concat_pos _ _ _ (by simp [hstores])]
          simp only [List.filterMap_cons, hstores, List.filterMap_nil, List.append_nil,
            List.countP_append, List.countP_singleton]
          cases htick : h.isTick with
          | true =>
              rw [value_undergo_tick _ _ htick, toNat_countDown, ih]
              simp
              omega
          | false =>
              rw [value_undergo_stores _ _ htick, hstores]
              simpa using ih

/-- Happenings that lead from one state of the timers to another: each execution among them finds
the timers as what came before left them. -/
def Follow (s : Timers) : List (Happening σ) → Timers → Prop
  | [], t => t = s
  | h :: rest, t => (∀ e, h = .executed e → e.before.timers = s) ∧ Follow (s.undergo h) rest t

theorem follow_append {s t : Timers} {first second : List (Happening σ)} :
    Follow s (first ++ second) t ↔ ∃ u, Follow s first u ∧ Follow u second t := by
  induction first generalizing s with
  | nil => simp [Follow]
  | cons h rest ih => simp [Follow, ih, and_assoc]

theorem Follow.eq_undergoAll {s t : Timers} {happenings : List (Happening σ)}
    (h : Follow s happenings t) : t = happenings.foldl undergo s := by
  induction happenings generalizing s with
  | nil => exact h
  | cons first rest ih => exact ih h.2

theorem Follow.found {s t : Timers} {before after : List (Happening σ)} {e : Execution σ}
    (h : Follow s (before ++ .executed e :: after) t) :
    e.before.timers = before.foldl undergo s := by
  obtain ⟨u, hbefore, hfound, -⟩ := follow_append.1 h
  rw [hfound e rfl, hbefore.eq_undergoAll]

end Timers

theorem Machine.executed_timers {σ : Type} [Display σ] (m : Machine σ) (i : Instruction) :
    (m.executed i).timers = ⟨((i.storesFrom .delay).map m.byteAt).getD m.timers.delay,
      ((i.storesFrom .sound).map m.byteAt).getD m.timers.sound⟩ := by
  cases i with
  | storeRegisters x => rw [executed_storeRegisters]; rfl
  | loadRegisters x => rw [executed_loadRegisters]; rfl
  | _ => rfl

namespace Execution

variable {σ : Type} [Display σ]

theorem follow_timers (e : Execution σ) :
    Timers.Follow e.before.timers [.executed e] e.after.timers := by
  constructor
  · intro other hother
    cases hother
    rfl
  · rw [e.after_eq, Machine.executed_timers]
    rfl

/-- What an instruction that reads the delay timer puts into its register. -/
theorem read_of_readDelay (e : Execution σ) {x : UInt8} (h : e.instruction = .readDelay x) :
    ∃ hx : x.toNat < 16, e.after.registers.get ⟨x.toNat, hx⟩ = e.before.timers.delay := by
  have hx : x.toNat < 16 := by
    apply e.registers_lt
    · intro y hy
      rw [h] at hy
      cases hy
    · rw [h]
      exact List.mem_singleton_self x
  refine ⟨hx, ?_⟩
  rw [e.after_eq, h, ← Machine.slot_of_lt hx]
  exact (Registers.get_set ..).trans (if_pos rfl)

end Execution

namespace Machine

variable {σ : Type} [Display σ]

omit [Display σ] in
theorem timers_unkeyed : Unkeyed (Machine.timers (σ := σ)) :=
  ⟨fun _ _ => rfl, fun _ _ => rfl, fun _ _ _ => rfl⟩

omit [Display σ] in
theorem interrupted_timers (m : Machine σ) (i : Instruction) :
    (m.interrupted i).timers = m.timers := by
  cases i with
  | loadRegisters x => simp only [interrupted, loadUpTo]
  | _ => rfl

theorem executions_follow (m : Machine σ) (instructions : List Instruction) :
    Timers.Follow m.timers ((m.executions instructions).map .executed)
      (afterwards (executeAll instructions) m).timers := by
  induction instructions generalizing m with
  | nil => rfl
  | cons i rest ih =>
      unfold executions
      by_cases hfault : i.fault? = none
      · rw [dif_pos hfault, afterwards, executeAll_cons_of_none hfault]
        let e : Execution σ := ⟨m, i, m.executed i, execute_of_none hfault m⟩
        have hfirst : Timers.Follow m.timers [.executed e] (m.executed i).timers := e.follow_timers
        exact Timers.follow_append.2 ⟨_, hfirst, ih (m.executed i)⟩
      · obtain ⟨fault, hfault'⟩ := Option.ne_none_iff_exists'.1 hfault
        rw [dif_neg hfault, afterwards, executeAll_cons_of_some hfault']
        exact m.interrupted_timers i

theorem execute_follow (m : Machine σ) (i : Instruction) :
    Timers.Follow m.timers ((m.executions [i]).map .executed)
      (afterwards (execute i) m).timers := by
  rw [← m.afterwards_executeAll_single i]
  exact m.executions_follow [i]

theorem advanced_follow (m : Machine σ) :
    Timers.Follow m.timers (m.cycleExecutions.map .executed) m.advanced.timers := by
  unfold cycleExecutions
  cases hmode : m.mode with
  | running =>
      rw [advanced_running hmode]
      exact Execution.follow_timers
        ⟨m.fetched, .decode m.nextOpcode, _, execute_decode m.fetched m.nextOpcode⟩
  | waitingForKey x =>
      rw [advanced_waiting hmode]
      rfl

end Machine

namespace Run

variable {σ : Type} [Display σ]

/-- The timers of a run follow what happens to them by a request. -/
theorem fulfil_follow (r : Run σ) (q : Request) :
    Timers.Follow r.machine.timers (r.happenings q) (r.fulfil q).machine.timers := by
  cases q with
  | tick => simp [happenings, Timers.Follow, fulfil, onMachine, Machine.tick]
  | setDelay value | setSound value => simp [happenings, Timers.Follow, fulfil, onMachine]
  | reset =>
      simp [happenings, Timers.Follow, fulfil, onMachine, Machine.reset_eq_fresh, Machine.fresh,
        Timers.zero]
  | act action =>
      cases action with
      | panel action => rfl
      | keypad command => rfl
  | start panel => rfl
  | load program =>
      simp only [happenings, executions, fulfil, onMachine, Machine.load]
      cases r.machine.memory.loadProgram program with
      | ok memory => rfl
      | error failure => rfl
  | execute i => exact r.machine.execute_follow i
  | executeAll instructions => exact r.machine.executions_follow instructions
  | step =>
      have htimers := Machine.timers_unkeyed.step r.machine
      simp only [happenings, executions, fulfil, onMachine]
      rw [htimers]
      exact r.machine.advanced_follow
  | advance meanwhile =>
      have htimers := advanceWith_unkeyed Machine.timers_unkeyed r meanwhile
      simp only [happenings, executions, fulfil]
      rw [htimers]
      split
      · exact r.machine.advanced_follow
      · rfl

theorem fulfilAll_follow (r : Run σ) (requests : List Request) :
    Timers.Follow r.machine.timers (r.happeningsAll requests)
      (r.fulfilAll requests).machine.timers := by
  induction requests generalizing r with
  | nil => rfl
  | cons q rest ih => exact Timers.follow_append.2 ⟨_, r.fulfil_follow q, ih (r.fulfil q)⟩

/-- Both timers count exactly the ticks since they were set. Whatever is asked of a run, from the
construction of its machine on, each timer shows what was stored in it last less the ticks since
then, and never less than zero; so a program that reads the delay timer meanwhile gets just that,
and the tone sounds as long as it is above zero for the other one. -/
theorem timers_count_ticks (settings : Settings) (random : Random.Source) (d : σ) (panel : Panel)
    (requests : List Request) :
    let r := start (.fresh settings random d) panel
    let timers := (r.fulfilAll requests).machine.timers
    (∀ timer, (timers.value timer).toNat = timer.due (r.happeningsAll requests)) ∧
      (timers.soundActive = true ↔ 0 < Timer.sound.due (r.happeningsAll requests)) ∧
      ∀ before e after x, r.happeningsAll requests = before ++ .executed e :: after →
        e.instruction = .readDelay x → ∃ hx : x.toNat < 16,
          (e.after.registers.get ⟨x.toNat, hx⟩).toNat = Timer.delay.due before := by
  intro r timers
  have hfollow : Timers.Follow .zero (r.happeningsAll requests) timers :=
    r.fulfilAll_follow requests
  have hdue : ∀ timer, (timers.value timer).toNat = timer.due (r.happeningsAll requests) := by
    intro timer
    rw [← Timers.value_undergoAll, ← hfollow.eq_undergoAll]
  refine ⟨hdue, ?_, ?_⟩
  · rw [← hdue]
    exact decide_eq_true_iff
  · intro before e after x hsplit hread
    rw [hsplit] at hfollow
    obtain ⟨hx, hvalue⟩ := e.read_of_readDelay hread
    refine ⟨hx, ?_⟩
    rw [hvalue, hfollow.found]
    exact Timers.value_undergoAll .delay before

/-- The delay timer is set to three by the program and ticks twice before it is read, once while the
program waits for a key. The sound timer is set to one from outside and stays at zero. -/
theorem timers_count_ticks_waiting :
    let program : List UInt8 := [0x60, 0x03, 0xF0, 0x15, 0xF1, 0x0A, 0xF2, 0x07]
    let r := start (.fresh .default (.cycling #[]) Recorder.empty) .initial
    let requests : List Request := [.load program, .setSound 1, .advance [], .step, .tick,
      .advance [], .tick, .act (.keypad (.press 5)), .step, .advance []]
    (r.fulfilAll requests).machine.timers.soundActive = false ∧
      ∃ e, (r.happeningsAll requests)[6]? = some (.executed e) ∧
        e.instruction = .readDelay 2 ∧ e.after.registers.get 2 = 1 := by
  intro program r requests
  obtain ⟨-, hsounds, hread⟩ :=
    timers_count_ticks .default (.cycling #[]) Recorder.empty .initial requests
  have hsilent : Timer.sound.due (r.happeningsAll requests) = 0 := by decide +kernel
  have hdue : Timer.delay.due ((r.happeningsAll requests).take 6) = 1 := by decide +kernel
  have hcode : (r.happeningsAll requests)[6]?.bind Happening.instruction? =
      some (.readDelay 2) := by
    decide +kernel
  obtain ⟨h, hsixth, hinstruction⟩ := Option.bind_eq_some_iff.1 hcode
  obtain ⟨hlt, hget⟩ := List.getElem?_eq_some_iff.1 hsixth
  cases h with
  | tick | stored timer value => cases hinstruction
  | executed e =>
      have hreads : e.instruction = .readDelay 2 := Option.some.inj hinstruction
      have hsplit := (List.take_append_drop 6 (r.happeningsAll requests)).symm
      rw [List.drop_eq_getElem_cons hlt, hget] at hsplit
      obtain ⟨hx, hvalue⟩ := hread _ e _ 2 hsplit hreads
      refine ⟨?_, e, hsixth, hreads, UInt8.toNat_inj.1 (hvalue.trans hdue)⟩
      rw [← Bool.not_eq_true, hsounds, hsilent]
      decide

end Run

end Chip8
