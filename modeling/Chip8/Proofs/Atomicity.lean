import Chip8.Proofs.LoopIterations
import Chip8.Proofs.MissingRegisters
import Chip8.Proofs.RegisterBlocks

/-!
What a failure leaves behind. An instruction that is executed directly fails exactly when it looks
up a register that the machine does not have, and then it has done nothing, but for three kinds:
storing and loading have gone through all registers there are, and a random word has been drawn.
Several instructions are executed up to the first that fails. A wait for a register that is missing
fails when the key comes; the key is gone then, and the machine still waits.
-/

namespace Chip8

/-- An instruction looks up a register that the machine does not have. -/
def Instruction.GoesAstray (i : Instruction) : Prop :=
  ∃ k ∈ i.operands, 16 ≤ k.toNat

namespace Machine

variable {σ : Type}

/-- What an instruction that failed made of the machine. -/
def LeftBy (m m' : Machine σ) : Instruction → Prop
  | .random .. => m' = {m with random := ⟨m.random.word, m.random.drawn + 1⟩}
  | .storeRegisters _ => ∃ memory,
      m.memory.StoredAt memory m.registers.index m.registers.v.toList ∧ m' = {m with memory}
  | .loadRegisters _ => ∃ v : Vector UInt8 16,
      (∀ k : Fin 16, v.get k = m.memory.read (m.registers.index + k.val.toUInt16)) ∧
        m' = {m with registers := {m.registers with v}}
  | _ => m' = m

/-- A machine runs through some instructions: each of them is executed, and succeeds, on the machine
that those before it left. -/
inductive RunsThrough [Display σ] : Machine σ → List Instruction → Machine σ → Prop
  | nil {m : Machine σ} : RunsThrough m [] m
  | cons {m m₁ m' : Machine σ} {i : Instruction} {rest : List Instruction}
      (hfirst : execute i m = .ok () m₁) (hrest : RunsThrough m₁ rest m') :
      RunsThrough m (i :: rest) m'

/-- How far instructions get that are executed one after the other: through all of them, or through
those before the first that looks up a register in vain. The machine is then as they left it, but
for what that one did to it. -/
inductive GoesUpTo [Display σ] (m : Machine σ) (instructions : List Instruction) : Prop
  | all {m' : Machine σ} (hfine : ∀ i ∈ instructions, ¬ i.GoesAstray)
      (hthrough : m.RunsThrough instructions m') (hdone : executeAll instructions m = .ok () m')
  | first {done rest : List Instruction} {i : Instruction} {m₁ m' : Machine σ} {fault : Fault}
      (hsplit : instructions = done ++ i :: rest) (hfine : ∀ j ∈ done, ¬ j.GoesAstray)
      (hastray : i.GoesAstray) (hthrough : m.RunsThrough done m₁)
      (hdone : executeAll done m = .ok () m₁) (hfails : execute i m₁ = .error fault m')
      (hleft : m₁.LeftBy m' i) (hstops : executeAll instructions m = .error fault m')

/-- A key on its way to the machine has been taken, the one that was held back if there is one, and
nothing else happened. -/
def KeyTaken (m : Machine σ) (key : UInt8) (m' : Machine σ) : Prop :=
  m.heldKey = some key ∧ m' = {m with heldKey := none} ∨
    m.heldKey = none ∧ m.keypad.pending = some key ∧ m' = {m with keypad.pending := none}

end Machine

namespace Instruction

/-- Looking up operands in turn, one meets the first that is missing. -/
theorem find?_of_missing {operands : List UInt8} (h : ∃ k ∈ operands, 16 ≤ k.toNat) :
    ∃ k, 16 ≤ k ∧ (operands.find? fun k => 16 ≤ k.toNat).map (fun k => .noSuchRegister k.toNat) =
      some (Fault.noSuchRegister k) := by
  obtain ⟨k, hk, hmissing⟩ := h
  cases hfind : operands.find? fun k => 16 ≤ k.toNat with
  | none => exact absurd hmissing (by simpa using List.find?_eq_none.1 hfind k hk)
  | some first =>
      have hfirst := List.find?_some hfind
      exact ⟨first.toNat, of_decide_eq_true hfirst, rfl⟩

/-- Looking up operands in turn, one meets none that is missing where all are there. -/
theorem find?_of_present {operands : List UInt8} (h : ∀ k ∈ operands, k.toNat < 16) :
    (operands.find? fun k => 16 ≤ k.toNat).map (fun k => Fault.noSuchRegister k.toNat) = none := by
  rw [Option.map_eq_none_iff, List.find?_eq_none]
  intro k hk
  simpa using h k hk

/-- Where only one operand is looked up, it is the missing one. -/
theorem GoesAstray.le_of_operands_eq {i : Instruction} {x : UInt8} (h : i.GoesAstray)
    (hone : i.operands = [x]) : 16 ≤ x.toNat := by
  obtain ⟨k, hk, hmissing⟩ := h
  rw [hone, List.mem_singleton] at hk
  rwa [← hk]

theorem fault?_of_goesAstray {i : Instruction} (h : i.GoesAstray) :
    ∃ k, 16 ≤ k ∧ i.fault? = some (.noSuchRegister k) := by
  cases i with
  | storeRegisters x | loadRegisters x =>
      have hmissing := h.le_of_operands_eq rfl
      exact ⟨16, Nat.le_refl 16, if_neg (Nat.not_lt.2 hmissing)⟩
  | _ => exact find?_of_missing h

theorem fault?_of_not_goesAstray {i : Instruction} (h : ¬ i.GoesAstray) : i.fault? = none := by
  have hfine : ∀ k ∈ i.operands, k.toNat < 16 := by
    intro k hk
    by_contra hmissing
    exact h ⟨k, hk, Nat.not_lt.1 hmissing⟩
  cases i with
  | storeRegisters x | loadRegisters x => exact if_pos (hfine x List.mem_cons_self)
  | _ => exact find?_of_present hfine

end Instruction

namespace Machine

variable {σ : Type}

theorem interrupted_leftBy (m : Machine σ) {i : Instruction} (h : i.GoesAstray) :
    m.LeftBy (m.interrupted i) i := by
  cases i with
  | storeRegisters x =>
      have hmissing := h.le_of_operands_eq rfl
      have hall : m.registers.upTo x = m.registers.v.toList := by
        apply List.take_of_length_le
        rw [Vector.length_toList]
        omega
      refine ⟨_, m.memory.storedAt_overlay m.registers.index ?_, ?_⟩
      · rw [Vector.length_toList]
        omega
      · rw [← hall]
        rfl
  | loadRegisters x =>
      have hmissing := h.le_of_operands_eq rfl
      refine ⟨(loadUpTo x m).registers.v, fun register => ?_, rfl⟩
      have hlt := register.isLt
      exact (m.registers.get_replaceUpTo x _ register).trans (if_pos (by omega))
  | _ => rfl

variable [Display σ]

theorem execute_of_goesAstray {i : Instruction} (h : i.GoesAstray) (m : Machine σ) :
    ∃ k, 16 ≤ k ∧ execute i m = .error (.noSuchRegister k) (m.interrupted i) := by
  obtain ⟨k, hk, hfault⟩ := Instruction.fault?_of_goesAstray h
  exact ⟨k, hk, execute_of_some hfault m⟩

theorem execute_of_not_goesAstray {i : Instruction} (h : ¬ i.GoesAstray) (m : Machine σ) :
    execute i m = .ok () (m.executed i) :=
  execute_of_none (Instruction.fault?_of_not_goesAstray h) m

theorem RunsThrough.executeAll {m m' : Machine σ} {instructions : List Instruction}
    (h : m.RunsThrough instructions m') : executeAll instructions m = .ok () m' := by
  induction h with
  | nil => rfl
  | cons hfirst hrest ih =>
      rw [executeAll_cons_of_ok hfirst]
      exact ih

/-- After those that a machine runs through, one that fails ends the execution. -/
theorem RunsThrough.executeAll_error {m m₁ m' : Machine σ} {done rest : List Instruction}
    {i : Instruction} {fault : Fault} (h : m.RunsThrough done m₁)
    (hfails : execute i m₁ = .error fault m') :
    Machine.executeAll (done ++ i :: rest) m = .error fault m' := by
  induction h with
  | nil => exact executeAll_cons_of_error hfails rest
  | cons hfirst hrest ih =>
      rw [List.cons_append, executeAll_cons_of_ok hfirst]
      exact ih hfails

/-- The induction is on the instructions that are still to come. -/
theorem goesUpTo (m : Machine σ) (instructions : List Instruction) : m.GoesUpTo instructions := by
  induction instructions generalizing m with
  | nil => exact .all (fun i hi => absurd hi List.not_mem_nil) .nil rfl
  | cons i rest ih =>
      by_cases hastray : i.GoesAstray
      · obtain ⟨k, -, hfails⟩ := execute_of_goesAstray hastray m
        have hsplit : i :: rest = [] ++ i :: rest := rfl
        exact .first hsplit (fun j hj => absurd hj List.not_mem_nil) hastray .nil rfl hfails
          (m.interrupted_leftBy hastray) (RunsThrough.nil.executeAll_error hfails)
      · have hfirst := execute_of_not_goesAstray hastray m
        cases ih (m.executed i) with
        | all hfine hrest =>
            have hthrough := RunsThrough.cons hfirst hrest
            exact .all (List.forall_mem_cons.2 ⟨hastray, hfine⟩) hthrough hthrough.executeAll
        | first hsplit hfine hastray' hrest _ hfails hleft =>
            have hthrough := RunsThrough.cons hfirst hrest
            refine .first (congrArg (i :: ·) hsplit) (List.forall_mem_cons.2 ⟨hastray, hfine⟩)
              hastray' hthrough hthrough.executeAll hfails hleft ?_
            rw [hsplit]
            exact hthrough.executeAll_error hfails

omit [Display σ] in
theorem KeyTaken.transit {m m' : Machine σ} {key : UInt8} (h : m.KeyTaken key m') :
    m.transit = some key ∧ m.withoutTransit = m' := by
  rcases h with ⟨hheld, rfl⟩ | ⟨hheld, hpending, rfl⟩
  · exact ⟨transit_of_held hheld, by simp only [withoutTransit, hheld]⟩
  · exact ⟨(transit_of_not_held hheld).trans hpending, by simp only [withoutTransit, hheld]⟩

/-- A key that comes for a register which the machine does not have is lost. -/
theorem step_of_missing {m m' : Machine σ} {x key : UInt8} (hx : 16 ≤ x.toNat)
    (hmode : m.mode = .waitingForKey x) (htaken : m.KeyTaken key m') :
    step m = .error (.noSuchRegister x.toNat) m' := by
  obtain ⟨htransit, rfl⟩ := htaken.transit
  have hwaits := (withoutTransit_mode m).trans hmode
  rw [step_waiting hmode htransit, deliver_of_le hwaits (Nat.not_lt.2 hx)]

/-- Direct execution fails exactly on instructions that look up a register which the machine does
not have. What it leaves then is the machine as it was, but for the registers that were stored or
loaded and the word that was drawn. Several instructions are executed up to the first that fails.
A key that is delivered, by a cycle or by the loop, to a wait for such a register makes it fail: the
key is gone, and the machine is as it was otherwise, with the program counter on the wait. -/
theorem direct_execution_atomic (m : Machine σ) :
    (∀ i, (∃ fault m', execute i m = .error fault m') ↔ i.GoesAstray) ∧
      (∀ i fault m', execute i m = .error fault m' →
        (∃ k, 16 ≤ k ∧ fault = .noSuchRegister k) ∧ m.LeftBy m' i) ∧
      (∀ instructions, m.GoesUpTo instructions) ∧
      ∀ x key m', 16 ≤ x.toNat → m.mode = .waitingForKey x → m.KeyTaken key m' →
        step m = .error (.noSuchRegister x.toNat) m' ∧
          ∀ r : Run σ, r.machine = m → r.Proceeds → r.advance.machine = m' ∧
            r.advance.phase = .crashed (.fault (.noSuchRegister x.toNat)) := by
  have hastray_of_fails : ∀ i fault m', execute i m = .error fault m' → i.GoesAstray := by
    intro i fault m' hfails
    by_contra hfine
    rw [execute_of_not_goesAstray hfine] at hfails
    cases hfails
  refine ⟨fun i => ⟨?_, fun hastray => ?_⟩, ?_, m.goesUpTo, ?_⟩
  · rintro ⟨fault, m', hfails⟩
    exact hastray_of_fails i fault m' hfails
  · obtain ⟨k, -, hfails⟩ := execute_of_goesAstray hastray m
    exact ⟨_, _, hfails⟩
  · intro i fault m' hfails
    have hastray := hastray_of_fails i fault m' hfails
    obtain ⟨k, hk, hexecute⟩ := execute_of_goesAstray hastray m
    rw [hexecute] at hfails
    cases hfails
    exact ⟨⟨k, hk, rfl⟩, m.interrupted_leftBy hastray⟩
  · intro x key m' hx hmode htaken
    have hstep := step_of_missing hx hmode htaken
    refine ⟨hstep, ?_⟩
    rintro r rfl hproceeds
    have hfollows := hproceeds.follows
    rw [hstep] at hfollows
    exact hfollows

/-- Seventeen registers are stored before the last cell: the first of them is there and the others
are lost. The index stays, although the settings ask to move it. On a machine that waits to put a
key into the seventeenth register, the key that was held back is lost. -/
theorem direct_execution_atomic_storing :
    let registers := {Registers.initial.set 0 5 with index := 0xFFE}
    let settings := {Settings.default with movesIndex := true}
    let m := {Machine.fresh settings (.cycling #[]) Recorder.empty with registers := registers}
    let waiting := {m with mode := .waitingForKey 16, heldKey := some 7}
    (∃ fault memory, execute (.storeRegisters 16) m = .error fault {m with memory} ∧
        memory.read 0xFFE = 5 ∧ memory.read 0x100D = 0) ∧
      step waiting = .error (.noSuchRegister 16) {waiting with heldKey := none} ∧
      (Run.start waiting .initial).advance.phase = .crashed (.fault (.noSuchRegister 16)) := by
  intro registers settings m waiting
  obtain ⟨hfails, hleft, -, -⟩ := direct_execution_atomic m
  obtain ⟨-, -, -, hkey⟩ := direct_execution_atomic waiting
  obtain ⟨fault, m', hexecute⟩ :=
    (hfails (.storeRegisters 16)).2 ⟨16, List.mem_cons_self, by decide⟩
  obtain ⟨-, memory, hstored, rfl⟩ := hleft _ _ _ hexecute
  obtain ⟨hstep, hloop⟩ :=
    hkey 16 7 {waiting with heldKey := none} (by decide) rfl (.inl ⟨rfl, rfl⟩)
  refine ⟨⟨fault, memory, hexecute, ?_, ?_⟩, hstep, ?_⟩
  · exact hstored.there 0 (by decide)
  · exact hstored.there 15 (by decide)
  · exact (hloop (Run.start waiting .initial) rfl (.inl rfl)).2

end Machine

end Chip8
