import Chip8.Proofs.Footprints
import Chip8.Proofs.Publishing

/-!
The random words that a program gets. Every random instruction takes the next word of the source, in
the order in which the instructions are executed over a whole history, and nothing else takes any:
no reset, no wait for a key and no new run begins the words anew or leaves one out.
-/

namespace Chip8

/-- The source behind its next words. -/
def Random.Source.skip (s : Source) (count : Nat) : Source :=
  {s with drawn := s.drawn + count}

theorem Random.Source.skip_skip (s : Source) (a b : Nat) : (s.skip a).skip b = s.skip (a + b) := by
  simp only [skip, Nat.add_assoc]

/-- Whether an instruction takes a random word. -/
def Instruction.drawsWord : Instruction → Bool
  | .random .. => true
  | _ => false

/-- Whether an answer says that instructions were to be executed directly, and one of them
failed. -/
def Run.Response.tellsFailure : Response → Bool
  | .executed (.error _) => true
  | _ => false

namespace Execution

variable {σ : Type} [Display σ]

/-- The executions of random instructions among some. -/
def draws (executions : List (Execution σ)) : List (Execution σ) :=
  executions.filter fun e => e.instruction.drawsWord

theorem draws_append (first second : List (Execution σ)) :
    draws (first ++ second) = draws first ++ draws second :=
  List.filter_append ..

theorem draws_instructions (executions : List (Execution σ)) :
    (draws executions).map Execution.instruction =
      (executions.map Execution.instruction).filter Instruction.drawsWord := by
  rw [List.filter_map]
  rfl

/-- Executions take the words from one source to another: each random instruction finds the source
where the one before it left it, and takes one word. -/
structure TakeWords (s : Random.Source) (executions : List (Execution σ)) (t : Random.Source) :
    Prop where
  left : t = s.skip (draws executions).length
  found : ∀ k e, (draws executions)[k]? = some e → e.before.random = s.skip k

theorem takeWords_nil (s : Random.Source) : TakeWords s ([] : List (Execution σ)) s where
  left := rfl
  found := by
    intro k e he
    cases he

theorem TakeWords.append {s t u : Random.Source} {first second : List (Execution σ)}
    (h : TakeWords s first t) (h' : TakeWords t second u) : TakeWords s (first ++ second) u where
  left := by rw [h'.left, h.left, Random.Source.skip_skip, draws_append, List.length_append]
  found := by
    intro k e he
    rw [draws_append, List.getElem?_append] at he
    split at he
    · exact h.found k e he
    · next hsecond =>
        rw [h'.found _ e he, h.left, Random.Source.skip_skip,
          Nat.add_sub_of_le (Nat.not_lt.1 hsecond)]

/-- One execution takes a word if it is one of a random instruction, and none otherwise. -/
theorem takeWords_single (e : Execution σ) :
    TakeWords e.before.random [e] e.after.random := by
  have hafter := e.after_eq
  cases hdraws : e.instruction.drawsWord with
  | true =>
      have hone : draws [e] = [e] := by simp [draws, hdraws]
      constructor
      · rw [hone, hafter]
        cases hi : e.instruction with
        | random x mask => rfl
        | _ => simp [hi, Instruction.drawsWord] at hdraws
      · intro k e' he
        rw [hone, List.getElem?_singleton] at he
        split at he
        · next hk =>
            cases he
            rw [hk]
            rfl
        · cases he
  | false =>
      have hnone : draws [e] = [] := by simp [draws, hdraws]
      constructor
      · have hkept := (e.before.executed_timers_random e.instruction).2.2
        rw [hnone, hafter]
        apply hkept
        intro x mask hi
        rw [hi] at hdraws
        cases hdraws
      · intro k e' he
        rw [hnone] at he
        cases he

/-- What a random instruction puts into its register, which is one that the machine has. -/
theorem written_of_random (e : Execution σ) {x mask : UInt8} (h : e.instruction = .random x mask) :
    ∃ hx : x.toNat < 16, e.after.registers.get ⟨x.toNat, hx⟩ =
      e.before.random.next.1.toUInt8 &&& mask := by
  have hx : x.toNat < 16 := by
    apply e.registers_lt
    · intro y hy
      rw [h] at hy
      cases hy
    · rw [h]
      exact List.mem_singleton_self x
  refine ⟨hx, ?_⟩
  rw [e.after_eq, h, ← Machine.slot_of_lt hx]
  exact (Registers.get_set ..).trans (if_pos rfl)

end Execution

namespace Machine

variable {σ : Type} [Display σ]

omit [Display σ] in
theorem random_unkeyed : Unkeyed (Machine.random (σ := σ)) :=
  ⟨fun _ _ => rfl, fun _ _ => rfl, fun _ _ _ => rfl⟩

theorem advanced_takesWords (m : Machine σ) :
    Execution.TakeWords m.random m.cycleExecutions m.advanced.random := by
  unfold cycleExecutions
  cases hmode : m.mode with
  | running =>
      rw [advanced_running hmode]
      exact Execution.takeWords_single
        ⟨m.fetched, .decode m.nextOpcode, _, execute_decode m.fetched m.nextOpcode⟩
  | waitingForKey x =>
      rw [advanced_waiting hmode]
      exact Execution.takeWords_nil _

theorem executions_takeWords (m : Machine σ) {instructions : List Instruction} {m' : Machine σ}
    (h : executeAll instructions m = .ok () m') :
    Execution.TakeWords m.random (m.executions instructions) m'.random := by
  induction instructions generalizing m with
  | nil =>
      cases h
      exact Execution.takeWords_nil _
  | cons i rest ih =>
      unfold executions
      by_cases hfault : i.fault? = none
      · rw [dif_pos hfault]
        rw [executeAll_cons_of_none hfault] at h
        have hfirst : Execution.TakeWords m.random _ (m.executed i).random :=
          Execution.takeWords_single ⟨m, i, m.executed i, execute_of_none hfault m⟩
        exact hfirst.append (ih (m.executed i) h)
      · obtain ⟨fault, hfault'⟩ := Option.ne_none_iff_exists'.1 hfault
        rw [executeAll_cons_of_some hfault'] at h
        cases h

theorem execute_takesWords (m : Machine σ) {i : Instruction} {m' : Machine σ}
    (h : execute i m = .ok () m') :
    Execution.TakeWords m.random (m.executions [i]) m'.random := by
  apply m.executions_takeWords
  rw [executeAll_cons_of_ok h]
  rfl

omit [Display σ] in
theorem ok_of_not_tellsFailure {x : Exec σ Unit} {m : Machine σ}
    (h : (Run.Response.executed (outcome x m)).tellsFailure = false) :
    x m = .ok () (afterwards x m) := by
  unfold outcome at h
  unfold afterwards
  generalize x m = result at *
  cases result with
  | ok _ m' => rfl
  | error fault m' => cases h

end Machine

namespace Run

variable {σ : Type} [Display σ]

/-- Between two stands of a run the words are taken by the executions in between only, unless one
that was asked for directly fails. -/
theorem fulfil_takesWords (r : Run σ) {q : Request} (h : (r.response q).tellsFailure = false) :
    Execution.TakeWords r.machine.random (r.executions q) (r.fulfil q).machine.random := by
  cases q with
  | act action =>
      cases action with
      | panel action => exact Execution.takeWords_nil _
      | keypad command => exact Execution.takeWords_nil _
  | tick | setDelay value | setSound value | start panel => exact Execution.takeWords_nil _
  | reset =>
      simp only [executions, fulfil, onMachine, Machine.reset_eq_fresh, Machine.fresh]
      exact Execution.takeWords_nil _
  | load program =>
      simp only [executions, fulfil, onMachine, Machine.load]
      cases r.machine.memory.loadProgram program with
      | ok memory => exact Execution.takeWords_nil _
      | error failure => exact Execution.takeWords_nil _
  | execute i => exact r.machine.execute_takesWords (Machine.ok_of_not_tellsFailure h)
  | executeAll instructions =>
      exact r.machine.executions_takeWords (Machine.ok_of_not_tellsFailure h)
  | step =>
      have hrandom := Machine.random_unkeyed.step r.machine
      simp only [executions, fulfil, onMachine]
      rw [hrandom]
      exact r.machine.advanced_takesWords
  | advance meanwhile =>
      have hrandom := advanceWith_unkeyed Machine.random_unkeyed r meanwhile
      simp only [executions, fulfil]
      rw [hrandom]
      split
      · exact r.machine.advanced_takesWords
      · exact Execution.takeWords_nil _

theorem fulfilAll_takesWords (r : Run σ) {requests : List Request}
    (h : ∀ answer ∈ r.responses requests, answer.tellsFailure = false) :
    Execution.TakeWords r.machine.random (r.executionsAll requests)
      (r.fulfilAll requests).machine.random := by
  induction requests generalizing r with
  | nil => exact Execution.takeWords_nil _
  | cons q rest ih =>
      obtain ⟨hfirst, hrest⟩ := List.forall_mem_cons.1 h
      exact (r.fulfil_takesWords hfirst).append (ih (r.fulfil q) hrest)

/-- Two machines with one seed, whatever their displays are and whatever is set for their player,
answer alike, show the same frames and come to stand in the same place. Nothing is said about what
the seed makes of the source. -/
theorem seeded_alike {τ : Type} [Display τ] (source : UInt64 → Random.Source) (settings : Settings)
    (d : σ) (e : τ) (panel : Panel) (cycleDelay timerFrequency : Nat) (debug : Bool)
    (requests : List Request) :
    let tuned := settings.tuned cycleDelay timerFrequency debug
    let one := start (.seededBy source settings d) panel
    let other := start (.seededBy source tuned e) panel
    other.responses requests = one.responses requests ∧
      other.framesShown requests = one.framesShown requests ∧
      ((other.fulfilAll requests).withDisplay ()).unpublished =
        (((one.fulfilAll requests).tuned cycleDelay timerFrequency debug).withDisplay
          ()).unpublished := by
  intro tuned one other
  have hother : other.withDisplay () =
      (one.tuned cycleDelay timerFrequency debug).withDisplay () := by
    simp only [tuned, one, other, start, withDisplay, Run.tuned, onMachine, Machine.withDisplay,
      Machine.tuned, Machine.seededBy, Machine.fresh, Settings.tuned]
  have hlike := one.like_tuned cycleDelay timerFrequency debug
  refine ⟨?_, ?_, ?_⟩
  · rw [responses_congr hother requests]
    exact (hlike.responses_eq requests).symm
  · rw [framesShown_congr hother requests]
    exact one.framesShown_tuned cycleDelay timerFrequency debug requests
  · have htuned := one.fulfilAll_tuned cycleDelay timerFrequency debug requests
    change ((other.fulfilAll requests).withDisplay ()).unpublished = _
    unfold unpublished at htuned ⊢
    rw [fulfilAll_congr hother requests]
    exact congrArg (fun r : Run σ => r.withDisplay ()) htuned

/-- One random word for each random instruction. From construction on, over resets, waits for keys,
stops and new runs, the words taken are as many as random instructions were executed, and the one
executed after `k` others puts the low byte of the `k`-th word, with its mask, into its register. So
machines with one seed never come apart, whatever is asked of both of them, and whichever way a
seed gives its words. -/
theorem one_word_per_random {τ : Type} [Display τ] (settings : Settings) (random : Random.Source)
    (d : σ) (panel : Panel) (requests : List Request)
    (hsucceeds : ∀ answer ∈ (start (.fresh settings random d) panel).responses requests,
      answer.tellsFailure = false) :
    let r := start (.fresh settings random d) panel
    let draws := Execution.draws (r.executionsAll requests)
    (r.fulfilAll requests).machine.random = random.skip draws.length ∧
      (∀ k e x mask, draws[k]? = some e → e.instruction = .random x mask →
        ∃ hx : x.toNat < 16, (e.after.registers.get ⟨x.toNat, hx⟩).toNat =
          (random.word (random.drawn + k)).toNat % 256 &&& mask.toNat) ∧
      ∀ (source : UInt64 → Random.Source) (seed : UInt64) (cycleDelay timerFrequency : Nat)
        (debug : Bool) (d' : τ) (operations : List Request),
        let seeded := {settings with seed := some seed}
        let tuned := seeded.tuned cycleDelay timerFrequency debug
        let one := start (.seededBy source seeded d) panel
        let other := start (.seededBy source tuned d') panel
        other.responses operations = one.responses operations ∧
          other.framesShown operations = one.framesShown operations ∧
          ((other.fulfilAll operations).withDisplay ()).unpublished =
            (((one.fulfilAll operations).tuned cycleDelay timerFrequency debug).withDisplay
              ()).unpublished := by
  intro r draws
  have hwords := r.fulfilAll_takesWords hsucceeds
  refine ⟨hwords.left, ?_, ?_⟩
  · intro k e x mask he hrandom
    obtain ⟨hx, hwritten⟩ := e.written_of_random hrandom
    refine ⟨hx, ?_⟩
    rw [hwritten, hwords.found k e he, UInt8.toNat_and, UInt32.toNat_toUInt8]
    rfl
  · intro source seed cycleDelay timerFrequency debug d' operations seeded
    exact seeded_alike source seeded d d' panel cycleDelay timerFrequency debug operations

/-- Words drawn by the loop before a wait for a key, after a reset by hand and in a list of
instructions, and again by a new run: the fourth word, `0x366`, comes to the fourth of them. -/
theorem one_word_per_random_after_reset :
    let program : List UInt8 := [0xC0, 0xFF, 0xF1, 0x0A, 0xC2, 0x3F]
    let r := start (.fresh .default (.arithmetic 0x300 0x22) Recorder.empty) .initial
    let requests : List Request := [.load program, .advance [], .advance [], .advance [],
      .act (.keypad (.press 3)), .act (.panel .stop), .advance [], .reset, .load program,
      .executeAll [.random 4 0xFF, .load 3 7, .random 5 0x0F], .start .initial,
      .execute (.jump 0x204), .advance []]
    (r.fulfilAll requests).machine.random.drawn = 4 ∧
      (r.fulfilAll requests).machine.registers.get 2 = 0x26 ∧
      ∃ e, (Execution.draws (r.executionsAll requests))[3]? = some e ∧
        e.instruction = .random 2 0x3F ∧ e.after.registers.get 2 = 0x26 := by
  intro program r requests
  have hsucceeds : ∀ answer ∈ r.responses requests, answer.tellsFailure = false := by
    decide +kernel
  have hdrawn : (r.fulfilAll requests).machine.random.drawn = 4 := by decide +kernel
  have hcode : (r.completedAll requests).filter Instruction.drawsWord =
      [.random 0 0xFF, .random 4 0xFF, .random 5 0x0F, .random 2 0x3F] := by
    decide +kernel
  obtain ⟨-, hwritten, -⟩ := one_word_per_random (τ := Recorder) .default
    (.arithmetic 0x300 0x22) Recorder.empty .initial requests hsucceeds
  rw [← executionsAll_instructions, ← Execution.draws_instructions] at hcode
  obtain ⟨e, he, hi⟩ : ∃ e, (Execution.draws (r.executionsAll requests))[3]? = some e ∧
      e.instruction = .random 2 0x3F := by
    have hfourth := congrArg (fun code => code[3]?) hcode
    simpa using hfourth
  obtain ⟨hx, hbyte⟩ := hwritten 3 e 2 0x3F he hi
  refine ⟨hdrawn, by decide +kernel, e, he, hi, ?_⟩
  exact UInt8.toNat_inj.1 hbyte

end Run

end Chip8
