import Chip8.Proofs.StraightLine

/-!
Opcodes and instructions match one to one. On the side of the instructions these are the
well-formed ones: every operand fits the field it is encoded in, and an unknown opcode has none
of the known forms. The forms are listed here once more as patterns of nibbles, apart from the
decoder, so that what is unknown does not depend on how decoding goes about it. Code that is
loaded, high byte first, is fetched as the code it was.
-/

namespace Chip8

namespace Opcode

def nibbles (op : Opcode) : List UInt8 :=
  [op.family, op.x, op.y, op.n]

/-- The forms of the opcodes that name an instruction. A nibble that is left open belongs to an
operand. -/
def forms : List (List (Option UInt8)) :=
  [ [some 0x0, some 0x0, some 0xE, some 0x0],
    [some 0x0, some 0x0, some 0xE, some 0xE],
    [some 0x1, none, none, none],
    [some 0x2, none, none, none],
    [some 0x3, none, none, none],
    [some 0x4, none, none, none],
    [some 0x5, none, none, some 0x0],
    [some 0x6, none, none, none],
    [some 0x7, none, none, none],
    [some 0x8, none, none, some 0x0],
    [some 0x8, none, none, some 0x1],
    [some 0x8, none, none, some 0x2],
    [some 0x8, none, none, some 0x3],
    [some 0x8, none, none, some 0x4],
    [some 0x8, none, none, some 0x5],
    [some 0x8, none, none, some 0x6],
    [some 0x8, none, none, some 0x7],
    [some 0x8, none, none, some 0xE],
    [some 0x9, none, none, some 0x0],
    [some 0xA, none, none, none],
    [some 0xB, none, none, none],
    [some 0xC, none, none, none],
    [some 0xD, none, none, none],
    [some 0xE, none, some 0x9, some 0xE],
    [some 0xE, none, some 0xA, some 0x1],
    [some 0xF, none, some 0x0, some 0x7],
    [some 0xF, none, some 0x0, some 0xA],
    [some 0xF, none, some 0x1, some 0x5],
    [some 0xF, none, some 0x1, some 0x8],
    [some 0xF, none, some 0x1, some 0xE],
    [some 0xF, none, some 0x2, some 0x9],
    [some 0xF, none, some 0x3, some 0x3],
    [some 0xF, none, some 0x5, some 0x5],
    [some 0xF, none, some 0x6, some 0x5] ]

def fits (op : Opcode) (form : List (Option UInt8)) : Bool :=
  (form.zip op.nibbles).all fun (wanted, nibble) => wanted.all (nibble == ·)

def isKnown (op : Opcode) : Bool :=
  forms.any op.fits

theorem eq_iff_nibbles {op op' : Opcode} :
    op = op' ↔ op.family = op'.family ∧ op.x = op'.x ∧ op.y = op'.y ∧ op.n = op'.n := by
  constructor
  · rintro rfl
    exact ⟨rfl, rfl, rfl, rfl⟩
  · rintro ⟨hfamily, hx, hy, hn⟩
    rw [← ofNibbles_fields op, hfamily, hx, hy, hn]
    exact ofNibbles_fields op'

theorem nn_eq_iff {op : Opcode} {byte : UInt8} :
    op.nn = byte ↔ op.y = byte / 0x10 ∧ op.n = byte % 0x10 := by
  have hnn : op.nn.toNat = 16 * op.y.toNat + op.n.toNat := by
    rw [toNat_nn, toNat_y, toNat_n]
    omega
  have hn : op.n.toNat < 16 := by
    rw [toNat_n]
    omega
  simp only [← UInt8.toNat_inj, UInt8.toNat_div, UInt8.toNat_mod, UInt8.reduceToNat]
  omega

/-- The decoder names an instruction just for the opcodes of a known form. The proof goes through
the families; in two of them the decoder reads the low byte where the forms have two nibbles. -/
theorem isKnown_eq (op : Opcode) : op.isKnown = (Instruction.ofOpcode? op).isSome := by
  unfold Instruction.ofOpcode? isKnown
  split
  case h_1 hfamily =>
    have hclear : op = 0x00E0 ↔ op.x = 0 ∧ op.y = 0xE ∧ op.n = 0 := by
      rw [eq_iff_nibbles, hfamily]
      exact and_iff_right rfl
    have hret : op = 0x00EE ↔ op.x = 0 ∧ op.y = 0xE ∧ op.n = 0xE := by
      rw [eq_iff_nibbles, hfamily]
      exact and_iff_right rfl
    simp [forms, fits, nibbles, hfamily, hclear, hret]
    grind
  case h_6 hfamily | h_10 hfamily =>
    simp [forms, fits, nibbles, hfamily]
    split <;> simp_all
  case h_9 hfamily =>
    simp [forms, fits, nibbles, hfamily]
    unfold AluOp.ofNibble?
    grind
  case h_15 hfamily =>
    simp [forms, fits, nibbles, hfamily]
    unfold Instruction.ofKeyByte?
    split <;> simp_all [nn_eq_iff]
  case h_16 hfamily =>
    simp [forms, fits, nibbles, hfamily]
    unfold Instruction.ofMiscByte?
    split <;> simp_all [nn_eq_iff]
  case h_17 => simp_all [forms, fits, nibbles]
  -- The other families have one form, and all of it but the family is operands.
  all_goals
    next hfamily => simp [forms, fits, nibbles, hfamily]

theorem read_ofAddress {family : UInt8} {address : UInt16} (hfamily : family.toNat < 16)
    (haddress : address.toNat < 0x1000) :
    (ofAddress family address).family = family ∧ (ofAddress family address).nnn = address := by
  have hword : (ofAddress family address).toNat = 4096 * family.toNat + address.toNat := by
    simp [ofAddress]
    omega
  constructor
  · rw [← UInt8.toNat_inj, toNat_family, hword]
    omega
  · rw [← UInt16.toNat_inj, toNat_nnn, hword]
    omega

theorem read_ofByte {family x nn : UInt8} (hfamily : family.toNat < 16) (hx : x.toNat < 16) :
    (ofByte family x nn).family = family ∧ (ofByte family x nn).x = x ∧
      (ofByte family x nn).nn = nn := by
  have hbyte := nn.toNat_lt
  have hword : (ofByte family x nn).toNat = 4096 * family.toNat + 256 * x.toNat + nn.toNat := by
    simp [ofByte]
    omega
  refine ⟨?_, ?_, ?_⟩
  · rw [← UInt8.toNat_inj, toNat_family, hword]
    omega
  · rw [← UInt8.toNat_inj, toNat_x, hword]
    omega
  · rw [← UInt8.toNat_inj, toNat_nn, hword]
    omega

theorem read_ofNibbles {family x y n : UInt8} (hfamily : family.toNat < 16) (hx : x.toNat < 16)
    (hy : y.toNat < 16) (hn : n.toNat < 16) :
    (ofNibbles family x y n).family = family ∧ (ofNibbles family x y n).x = x ∧
      (ofNibbles family x y n).y = y ∧ (ofNibbles family x y n).n = n := by
  have hword : (ofNibbles family x y n).toNat =
      4096 * family.toNat + 256 * x.toNat + 16 * y.toNat + n.toNat := by
    simp [ofNibbles]
    omega
  refine ⟨?_, ?_, ?_, ?_⟩
  · rw [← UInt8.toNat_inj, toNat_family, hword]
    omega
  · rw [← UInt8.toNat_inj, toNat_x, hword]
    omega
  · rw [← UInt8.toNat_inj, toNat_y, hword]
    omega
  · rw [← UInt8.toNat_inj, toNat_n, hword]
    omega

theorem toNat_ofBytes (high low : UInt8) :
    (ofBytes high low).toNat = 256 * high.toNat + low.toNat := by
  have hhigh := high.toNat_lt
  have hlow := low.toNat_lt
  simp [ofBytes]
  omega

theorem ofBytes_eq_or (high low : UInt8) :
    ofBytes high low = high.toUInt16 <<< 8 ||| low.toUInt16 := by
  have hhigh := high.toNat_lt
  have hlow : low.toNat < 2 ^ 8 := low.toNat_lt
  have hor := Nat.shiftLeft_add_eq_or_of_lt hlow high.toNat
  have hword : (high.toUInt16 <<< 8).toNat = high.toNat <<< 8 := by
    simp [Nat.shiftLeft_eq]
    omega
  rw [← UInt16.toNat_inj, UInt16.toNat_or, hword, UInt8.toNat_toUInt16, ← hor, toNat_ofBytes,
    Nat.shiftLeft_eq]
  omega

end Opcode

theorem AluOp.ofNibble?_nibble (op : AluOp) :
    ofNibble? op.nibble = some op ∧ op.nibble.toNat < 16 := by
  cases op <;> exact ⟨rfl, by decide⟩

namespace Instruction

def addresses : Instruction → List UInt16
  | .jump address | .call address | .loadIndex address | .jumpOffset address => [address]
  | _ => []

def heights : Instruction → List UInt8
  | .draw _ _ height => [height]
  | _ => []

structure WellFormed (i : Instruction) : Prop where
  registers_lt : ∀ k ∈ i.registers, k.toNat < 16
  addresses_lt : ∀ address ∈ i.addresses, address.toNat < 0x1000
  heights_lt : ∀ height ∈ i.heights, height.toNat < 16
  unknown : ∀ raw, i = .unknown raw → Opcode.isKnown raw = false

/-- Where the operands that `registers` leaves out come from, and that a known opcode does not
become an unknown one. -/
theorem ofOpcode?_operands {op : Opcode} {i : Instruction} (h : ofOpcode? op = some i) :
    (∀ address ∈ i.addresses, address = op.nnn) ∧ (∀ height ∈ i.heights, height = op.n) ∧
      ∀ raw, i ≠ .unknown raw := by
  unfold ofOpcode? at h
  split at h
  case h_1 =>
    split at h
    · cases h
      simp [addresses, heights]
    · split at h
      · cases h
        simp [addresses, heights]
      · cases h
  case h_6 | h_10 =>
    split at h
    · cases h
      simp [addresses, heights]
    · cases h
  case h_9 =>
    obtain ⟨alu, -, rfl⟩ := Option.map_eq_some_iff.1 h
    simp [addresses, heights]
  case h_15 =>
    unfold ofKeyByte? at h
    split at h <;> cases h <;> simp [addresses, heights]
  case h_16 =>
    unfold ofMiscByte? at h
    split at h <;> cases h <;> simp [addresses, heights]
  case h_17 => cases h
  all_goals
    cases h
    simp [addresses, heights]

theorem decode_wellFormed (op : Opcode) : (decode op).WellFormed := by
  have hregisters := (decode_comesFrom op).2
  cases h : ofOpcode? op with
  | none =>
      have hdecode : decode op = .unknown op := by
        unfold decode
        rw [h]
        rfl
      rw [hdecode]
      refine ⟨by simp [registers], by simp [addresses], by simp [heights], ?_⟩
      rintro raw ⟨⟩
      rw [Opcode.isKnown_eq, h]
      rfl
  | some i =>
      have hdecode : decode op = i := by
        unfold decode
        rw [h]
        rfl
      obtain ⟨haddresses, hheights, hnamed⟩ := ofOpcode?_operands h
      rw [hdecode] at hregisters ⊢
      refine ⟨hregisters, ?_, ?_, ?_⟩
      · intro address ha
        rw [haddresses address ha, Opcode.toNat_nnn]
        omega
      · intro height hheight
        rw [hheights height hheight, Opcode.toNat_n]
        omega
      · intro raw hraw
        exact absurd hraw (hnamed raw)

/-- The cases are the layouts of the operands in the opcode. -/
theorem decode_encode {i : Instruction} (h : i.WellFormed) : decode i.encode = i := by
  have hregisters := h.registers_lt
  have haddresses := h.addresses_lt
  have hheights := h.heights_lt
  cases i with
  | clearScreen | ret => decide
  | unknown raw =>
      have hunknown := h.unknown raw rfl
      rw [Opcode.isKnown_eq, Option.isSome_eq_false_iff, Option.isNone_iff_eq_none] at hunknown
      unfold decode encode
      rw [hunknown]
      rfl
  | jump address | call address | loadIndex address | jumpOffset address =>
      simp only [addresses, List.forall_mem_singleton] at haddresses
      simp [decode, encode, ofOpcode?, Opcode.read_ofAddress, haddresses]
  | skipEqReg x y | skipNeReg x y =>
      simp only [registers, List.forall_mem_cons] at hregisters
      simp [decode, encode, ofOpcode?, Opcode.read_ofNibbles, hregisters]
  | alu op x y =>
      simp only [registers, List.forall_mem_cons] at hregisters
      obtain ⟨halu, hnibble⟩ := AluOp.ofNibble?_nibble op
      simp [decode, encode, ofOpcode?, Opcode.read_ofNibbles, hregisters, halu, hnibble]
  | draw x y height =>
      simp only [registers, List.forall_mem_cons] at hregisters
      simp only [heights, List.forall_mem_singleton] at hheights
      simp [decode, encode, ofOpcode?, Opcode.read_ofNibbles, hregisters, hheights]
  | skipEq x value | skipNe x value | load x value | add x value | random x value =>
      simp only [registers, List.forall_mem_singleton] at hregisters
      simp [decode, encode, ofOpcode?, Opcode.read_ofByte, hregisters]
  | skipDown x | skipUp x =>
      simp only [registers, List.forall_mem_singleton] at hregisters
      simp [decode, encode, ofOpcode?, ofKeyByte?, Opcode.read_ofByte, hregisters]
  | _ x =>
      simp only [registers, List.forall_mem_singleton] at hregisters
      simp [decode, encode, ofOpcode?, ofMiscByte?, Opcode.read_ofByte, hregisters]

end Instruction

theorem Memory.Holds.opcodeAt {m : Memory} {a : UInt16} {code : List Instruction}
    (h : m.Holds a code) (k : Nat) (hk : k < code.length) :
    m.opcodeAt (a + (2 * k).toUInt16) = code[k].encode := by
  induction code generalizing a k with
  | nil => exact absurd hk (Nat.not_lt_zero k)
  | cons i rest ih =>
      obtain ⟨hfirst, hrest⟩ := h
      cases k with
      | zero =>
          have hsame : a + (2 * 0).toUInt16 = a := UInt16.add_zero a
          rw [hsame]
          exact hfirst
      | succ k =>
          have hshift : a + (2 * (k + 1)).toUInt16 = a + 2 + (2 * k).toUInt16 := by
            rw [← UInt16.toNat_inj]
            simp
            omega
          rw [hshift]
          exact ih hrest k (Nat.lt_of_succ_lt_succ hk)

namespace Instruction

/-- Decoding and encoding are inverse to each other between the opcodes and the well-formed
instructions, and nothing else is ever decoded. Well-formed code that is loaded is fetched as
what it was, whatever the memory held before. -/
theorem encoding_faithful :
    (∀ op, (decode op).encode = op ∧ (decode op).WellFormed) ∧
    (∀ i : Instruction, i.WellFormed → decode i.encode = i) ∧
    (∀ high low : UInt8,
      Opcode.ofBytes high low = high.toUInt16 <<< 8 ||| low.toUInt16 ∧
      decode (.ofBytes high low) = decode (.ofNat (256 * high.toNat + low.toNat))) ∧
    ∀ (m : Memory) (code : List Instruction), code.length ≤ 1791 → (∀ i ∈ code, i.WellFormed) →
      ∃ m', m.loadProgram (program code) = .ok m' ∧ ∀ k (hk : k < code.length),
        decode (m'.opcodeAt (Memory.programStart + (2 * k).toUInt16)) = code[k] := by
  refine ⟨?_, ?_, ?_, ?_⟩
  · intro op
    exact ⟨encode_decode op, decode_wellFormed op⟩
  · intro i hi
    exact decode_encode hi
  · intro high low
    have hword : Opcode.ofBytes high low = .ofNat (256 * high.toNat + low.toNat) := by
      rw [← Opcode.toNat_ofBytes, UInt16.ofNat_toNat]
    exact ⟨Opcode.ofBytes_eq_or high low, congrArg decode hword⟩
  · intro m code hfits hcode
    have hlength := program_length code
    have hlimit : Memory.programLimit = 3583 := rfl
    have haccepted : ∃ m', m.loadProgram (program code) = .ok m' := by
      unfold Memory.loadProgram
      rw [if_pos (by omega)]
      exact ⟨_, rfl⟩
    obtain ⟨m', hload⟩ := haccepted
    refine ⟨m', hload, fun k hk => ?_⟩
    rw [(Memory.holds_loadProgram hfits hload).opcodeAt k hk]
    exact decode_encode (hcode _ (List.getElem_mem hk))

/-- The last instruction of the longest code there is, loaded over memory that was all ones. -/
theorem encoding_faithful_last :
    let code := List.replicate 1790 Instruction.ret ++ [.unknown 0x8008]
    ∃ m', Memory.loadProgram ⟨Vector.replicate 4096 0xFF⟩ (program code) = .ok m' ∧
      decode (m'.opcodeAt 0xFFC) = .unknown 0x8008 := by
  intro code
  have hcode : ∀ i ∈ code, i.WellFormed := by
    intro i hi
    rw [List.mem_append, List.mem_replicate, List.mem_singleton] at hi
    rcases hi with ⟨-, rfl⟩ | rfl
    · exact decode_wellFormed 0x00EE
    · exact decode_wellFormed 0x8008
  have hlength : code.length = 1791 := by
    rw [List.length_append, List.length_replicate]
    rfl
  have hlast : code[1790] = .unknown 0x8008 :=
    List.getElem_concat_length List.length_replicate.symm _
  obtain ⟨-, -, -, hfetched⟩ := encoding_faithful
  obtain ⟨m', hload, hdecode⟩ := hfetched ⟨Vector.replicate 4096 0xFF⟩ code (by omega) hcode
  exact ⟨m', hload, (hdecode 1790 (by omega)).trans hlast⟩

end Instruction

end Chip8
