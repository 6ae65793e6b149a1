import Chip8.Proofs.Histories
import Chip8.Proofs.Stores

/-!
Code without jumps. Instructions that all fall through to the next one can be executed directly,
one after the other, or be loaded as a program and fetched. Both come to the same, as long as
nothing is stored where the program lies.
-/

namespace Chip8

/-- Whether the instruction behind this one always comes next: it is no jump, call or return, it
skips nothing and waits for no key. -/
def Instruction.fallsThrough : Instruction → Bool
  | .ret | .jump _ | .call _ | .jumpOffset _ | .skipEq .. | .skipNe .. | .skipEqReg ..
  | .skipNeReg .. | .skipDown _ | .skipUp _ | .awaitKey _ => false
  | _ => true

def Instruction.program (code : List Instruction) : List UInt8 :=
  code.flatMap fun i => i.encode.bytes

/-- Instructions lie in memory from an address on. -/
def Memory.Holds (memory : Memory) : UInt16 → List Instruction → Prop
  | _, [] => True
  | a, i :: rest => memory.opcodeAt a = i.encode ∧ memory.Holds (a + 2) rest

theorem Instruction.program_length (code : List Instruction) :
    (program code).length = 2 * code.length := by
  induction code with
  | nil => rfl
  | cons i rest ih =>
      have hcons : program (i :: rest) = i.encode.bytes ++ program rest := rfl
      have hbytes : i.encode.bytes.length = 2 := rfl
      rw [hcons, List.length_append, ih, hbytes, List.length_cons]
      omega

theorem toNat_behind {a : UInt16} (h : a.toNat + 2 < 0x10000) :
    (a + 1).toNat = a.toNat + 1 ∧ (a + 2).toNat = a.toNat + 2 := by
  rw [UInt16.toNat_add, UInt16.toNat_add]
  change (a.toNat + 1) % 0x10000 = _ ∧ (a.toNat + 2) % 0x10000 = _
  omega

namespace Memory

theorem opcodeAt_congr {m m' : Memory} {a : UInt16} (hhigh : m'.read a = m.read a)
    (hlow : m'.read (a + 1) = m.read (a + 1)) : m'.opcodeAt a = m.opcodeAt a := by
  unfold opcodeAt
  rw [hhigh, hlow]

/-- Code that lies between two bounds stays there when nothing between them changes. -/
theorem Holds.congr {m m' : Memory} {a : UInt16} {code : List Instruction}
    (h : m.Holds a code) {low high : Nat} (hlow : low ≤ a.toNat)
    (hhigh : a.toNat + 2 * code.length ≤ high) (hbound : high < bound)
    (hsame : ∀ b : UInt16, low ≤ b.toNat → b.toNat < high → m'.read b = m.read b) :
    m'.Holds a code := by
  induction code generalizing a with
  | nil => trivial
  | cons i rest ih =>
      obtain ⟨hopcode, hrest⟩ := h
      rw [List.length_cons] at hhigh
      have hsize : bound = 4095 := rfl
      obtain ⟨hsecond, hnext⟩ := toNat_behind (a := a) (by omega)
      constructor
      · rw [← hopcode]
        exact opcodeAt_congr (hsame a hlow (by omega)) (hsame (a + 1) (by omega) (by omega))
      · exact ih hrest (by omega) (by omega)

theorem holds_of_read {m : Memory} {a : UInt16} {code : List Instruction}
    (hbound : a.toNat + 2 * code.length < bound)
    (h : ∀ k (hk : k < (Instruction.program code).length) (b : UInt16),
      b.toNat = a.toNat + k → m.read b = (Instruction.program code)[k]) :
    m.Holds a code := by
  induction code generalizing a with
  | nil => trivial
  | cons i rest ih =>
      rw [List.length_cons] at hbound
      have hsize : bound = 4095 := rfl
      have hlength := Instruction.program_length (i :: rest)
      rw [List.length_cons] at hlength
      obtain ⟨hsecond, hnext⟩ := toNat_behind (a := a) (by omega)
      constructor
      · have hhigh : m.read a = (i.encode / 0x100).toUInt8 := h 0 (by omega) a rfl
        have hlow : m.read (a + 1) = i.encode.toUInt8 := h 1 (by omega) (a + 1) hsecond
        have hne : a ≠ 0xFFFF := by
          intro hlast
          rw [hlast] at hsecond
          exact absurd hsecond (by decide)
        unfold opcodeAt
        rw [if_neg hne, hhigh, hlow]
        exact Opcode.ofBytes_bytes i.encode
      · refine ih (by omega) fun k hk b hb => ?_
        have hrest := Instruction.program_length rest
        exact h (k + 2) (by omega) b (by omega)

theorem holds_loadProgram {m m' : Memory} {code : List Instruction} (hfits : code.length ≤ 1791)
    (h : m.loadProgram (Instruction.program code) = .ok m') : m'.Holds programStart code := by
  have hstart : programStart.toNat = 0x200 := rfl
  have hsize : bound = 4095 := rfl
  refine holds_of_read (by omega) fun k hk a ha => ?_
  exact read_loadProgram h hk (by omega)

end Memory

namespace Machine

variable {σ : Type} [Display σ]

/-- Several cycles, and what each of them came to. -/
def cycles : Nat → Exec σ (List Cycle)
  | 0 => return []
  | n + 1 => do
      let c ← step
      return c :: (← cycles n)

/-- Whether instructions that are executed directly, one after the other, store nothing from one
address up to another. -/
def spares (low high : Nat) : List Instruction → Machine σ → Bool
  | [], _ => true
  | i :: rest, m =>
      (m.storesTo i).all (fun a => a.toNat < low || high ≤ a.toNat) &&
        spares low high rest (afterwards (execute i) m)

theorem executed_lastOpcode (m : Machine σ) (i : Instruction) (op : Opcode) :
    executed {m with lastOpcode := op} i = {m.executed i with lastOpcode := op} := by
  cases i with
  | storeRegisters x => rw [executed_storeRegisters, executed_storeRegisters]; rfl
  | loadRegisters x => rw [executed_loadRegisters, executed_loadRegisters]; rfl
  | _ => rfl

theorem executed_pc_of_fallsThrough {m : Machine σ} {i : Instruction}
    (h : i.fallsThrough = true) : (m.executed i).registers.pc = m.registers.pc + 2 := by
  have hflow : m.flow i = .next := by
    cases i with
    | ret | jump _ | call _ | jumpOffset _ | skipEq _ _ | skipNe _ _ | skipEqReg _ _
    | skipNeReg _ _ | skipDown _ | skipUp _ | awaitKey _ => cases h
    | _ => rfl
  simp only [executed, hflow, Flow.target]

theorem executed_mode_of_fallsThrough {m : Machine σ} {i : Instruction}
    (h : i.fallsThrough = true) : (m.executed i).mode = m.mode := by
  refine executed_mode m i fun x hx => ?_
  rw [hx] at h
  cases h

/-- A running machine is about to fetch some code that lies between two bounds. -/
structure AtCode (m : Machine σ) (low high : Nat) (code : List Instruction) : Prop where
  mode : m.mode = .running
  holds : m.memory.Holds m.registers.pc code
  low_le : low ≤ m.registers.pc.toNat
  le_high : m.registers.pc.toNat + 2 * code.length ≤ high

theorem AtCode.step {m : Machine σ} {low high : Nat} {i : Instruction}
    {rest : List Instruction} (h : m.AtCode low high (i :: rest))
    (hdecode : ∃ op, Instruction.decode op = i) :
    Machine.step m = .ok (.executed i) {m.executed i with lastOpcode := i.encode} := by
  obtain ⟨op, rfl⟩ := hdecode
  have hnext : m.nextOpcode = op := by
    rw [nextOpcode, h.holds.1]
    exact Instruction.encode_decode op
  rw [step_running h.mode, fetched, hnext, executed_lastOpcode, Instruction.encode_decode]

/-- An instruction that falls through and stores nothing between the bounds leads on to the rest
of the code. -/
theorem AtCode.executed {m : Machine σ} {low high : Nat} {i : Instruction}
    {rest : List Instruction} (h : m.AtCode low high (i :: rest)) (hhigh : high < Memory.bound)
    (hfalls : i.fallsThrough = true)
    (hstores : ∀ a ∈ m.storesTo i, a.toNat < low ∨ high ≤ a.toNat) :
    (m.executed i).AtCode low high rest := by
  have hpc := executed_pc_of_fallsThrough (m := m) hfalls
  have hle := h.le_high
  have hlow := h.low_le
  have hsize : Memory.bound = 4095 := rfl
  rw [List.length_cons] at hle
  obtain ⟨-, hnext⟩ := toNat_behind (a := m.registers.pc) (by omega)
  refine ⟨(executed_mode_of_fallsThrough hfalls).trans h.mode, ?_, ?_, ?_⟩
  · rw [hpc]
    refine h.holds.2.congr (by omega : low ≤ _) (by omega) hhigh ?_
    intro b hbl hbh
    refine executed_read_of_not_mem m i fun hmem => ?_
    rcases hstores b hmem with hbelow | habove
    · omega
    · omega
  · rw [hpc]
    omega
  · rw [hpc]
    omega

/-- Fetching code comes to what executing it directly comes to, but for the opcode fetched last.
The induction is on the code that is still to come, over every opcode that may have been fetched
before. -/
theorem AtCode.cycles {m : Machine σ} {low high : Nat} {code : List Instruction}
    (h : m.AtCode low high code) (hhigh : high < Memory.bound)
    (hdecode : ∀ i ∈ code, ∃ op, Instruction.decode op = i)
    (hfalls : ∀ i ∈ code, i.fallsThrough = true)
    (hspares : spares low high code m = true) (last : Opcode) :
    ∃ m', executeAll code m = .ok () m' ∧
      Machine.cycles code.length {m with lastOpcode := last} = .ok (code.map .executed)
        {m' with lastOpcode := (code.getLast?.map Instruction.encode).getD last} := by
  induction code generalizing m last with
  | nil => exact ⟨m, rfl, rfl⟩
  | cons i rest ih =>
      obtain ⟨op, hop⟩ := hdecode i List.mem_cons_self
      have hexecute : execute i m = .ok () (m.executed i) := by
        rw [← hop]
        exact execute_decode m op
      simp only [spares, afterwards, hexecute, Bool.and_eq_true, List.all_eq_true,
        Bool.or_eq_true, decide_eq_true_eq] at hspares
      obtain ⟨hstores, hspares⟩ := hspares
      have hnext := h.executed hhigh (hfalls i List.mem_cons_self) hstores
      obtain ⟨m', hdirect, hcycles⟩ := ih hnext
        (fun j hj => hdecode j (List.mem_cons_of_mem _ hj))
        (fun j hj => hfalls j (List.mem_cons_of_mem _ hj)) hspares i.encode
      refine ⟨m', ?_, ?_⟩
      · rw [executeAll_cons_of_ok hexecute]
        exact hdirect
      · have hfetch : AtCode {m with lastOpcode := last} low high (i :: rest) :=
          ⟨h.mode, h.holds, h.low_le, h.le_high⟩
        have hstep := hfetch.step ⟨op, hop⟩
        rw [executed_lastOpcode] at hstep
        simp only [List.length_cons, Machine.cycles, bind, EStateM.bind, hstep, hcycles]
        rw [List.getLast?_cons, Option.map_some, Option.getD_some, Option.getD_map]
        rfl

omit [Display σ] in
theorem atCode_load {m₀ m : Machine σ} {code : List Instruction} (hfits : code.length ≤ 1791)
    (hmode : m₀.mode = .running) (hpc : m₀.registers.pc = Memory.programStart)
    (hload : m₀.load (Instruction.program code) = .ok m) :
    m.AtCode 0x200 (0x200 + 2 * code.length) code := by
  unfold load at hload
  split at hload
  · next memory hmemory =>
      cases hload
      have hstart : m₀.registers.pc.toNat = 0x200 := by rw [hpc]; rfl
      have hholds : memory.Holds m₀.registers.pc code := by
        rw [hpc]
        exact Memory.holds_loadProgram hfits hmemory
      refine ⟨hmode, hholds, Nat.le_of_eq hstart.symm, ?_⟩
      dsimp only
      omega
  · cases hload

/-- Code without jumps that was loaded and is fetched, and the same code executed directly: the
cycles execute just these instructions, in order, and leave the same machine but for the opcode
fetched last. -/
theorem cycles_eq_executeAll (m₀ : Machine σ) (code : List Instruction)
    (hfits : code.length ≤ 1791) (hdecode : ∀ i ∈ code, ∃ op, Instruction.decode op = i)
    (hfalls : ∀ i ∈ code, i.fallsThrough = true) (hmode : m₀.mode = .running)
    (hpc : m₀.registers.pc = Memory.programStart) :
    ∃ m, m₀.load (Instruction.program code) = .ok m ∧
      (spares 0x200 (0x200 + 2 * code.length) code m = true →
        ∃ m', executeAll code m = .ok () m' ∧
          Machine.cycles code.length m = .ok (code.map .executed)
            {m' with lastOpcode := (code.getLast?.map Instruction.encode).getD m.lastOpcode}) := by
  have hlength := Instruction.program_length code
  have hlimit : Memory.programLimit = 3583 := rfl
  have haccepted : ∃ m, m₀.load (Instruction.program code) = .ok m := by
    unfold load Memory.loadProgram
    rw [if_pos (by omega)]
    exact ⟨_, rfl⟩
  obtain ⟨m, hload⟩ := haccepted
  refine ⟨m, hload, fun hspares => ?_⟩
  have hcode := atCode_load hfits hmode hpc hload
  have hsize : Memory.bound = 4095 := rfl
  exact hcode.cycles (by omega) hdecode hfalls hspares m.lastOpcode

/-- Code that stores, behind its own end: it puts the digits of 254 at `0x300`. -/
theorem cycles_eq_executeAll_storing :
    let m₀ := Machine.fresh .default (.cycling #[]) Recorder.empty
    let code := [0x60FE, 0xA300, 0xF033, 0xF01E].map Instruction.decode
    ∃ m m', m₀.load (Instruction.program code) = .ok m ∧ executeAll code m = .ok () m' ∧
      Machine.cycles 4 m = .ok (code.map .executed) {m' with lastOpcode := 0xF01E} := by
  intro m₀ code
  have hdecode : ∀ i ∈ code, ∃ op, Instruction.decode op = i := by
    intro i hi
    obtain ⟨op, -, hop⟩ := List.mem_map.1 hi
    exact ⟨op, hop⟩
  obtain ⟨m, hload, hagree⟩ :=
    cycles_eq_executeAll m₀ code (by decide) hdecode (by decide) rfl rfl
  have hspares : (m₀.load (Instruction.program code)).toOption.any
      (spares 0x200 (0x200 + 2 * code.length) code) = true := by decide +kernel
  rw [hload] at hspares
  obtain ⟨m', hdirect, hcycles⟩ := hagree hspares
  exact ⟨m, m', hload, hdirect, hcycles⟩

end Machine

end Chip8
