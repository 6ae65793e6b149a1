import Chip8.Instruction.Mnemonic
import Chip8.Proofs.Decoding
import Chip8.Proofs.Numerals

/-!
Assembler text read back. A mnemonic falls into its word and its operands at the blanks, the kind of
an operand shows in its first characters, and the word and the kinds tell which instruction it is.
So a mnemonic names one instruction, and, of opcodes, one opcode.
-/

namespace Chip8

open Text

/-- An operand as it stands in the text of an instruction. -/
inductive Operand
  | register (k : UInt8)
  /-- A hexadecimal number of two digits. -/
  | constant (value : UInt8)
  /-- A hexadecimal number of three digits or four. -/
  | address (value : UInt16)
  /-- A number in base ten. -/
  | count (value : UInt8)
  /-- A part of the machine that is called by its name. -/
  | name (letters : String)

/-- The operand that a text stands for. -/
def Operand.ofText (text : List Char) : Operand :=
  let named := name (String.ofList text)
  match readDigits 10 0 text, text with
  | some value, _ => count value.toUInt8
  | none, 'V' :: digits => (readDigits 16 0 digits).elim named (register ·.toUInt8)
  | none, ['0', 'x', high, low] => (readDigits 16 0 [high, low]).elim named (constant ·.toUInt8)
  | none, '0' :: 'x' :: digits => (readDigits 16 0 digits).elim named (address ·.toUInt16)
  | none, _ => named

/-- The instruction that a word and its operands stand for. -/
def Instruction.ofWord? : String → List Operand → Option Instruction
  | "CLS", [] => some .clearScreen
  | "RET", [] => some .ret
  | "JP", [.address a] => some (.jump a)
  | "CALL", [.address a] => some (.call a)
  | "SE", [.register x, .constant value] => some (.skipEq x value)
  | "SNE", [.register x, .constant value] => some (.skipNe x value)
  | "SE", [.register x, .register y] => some (.skipEqReg x y)
  | "SNE", [.register x, .register y] => some (.skipNeReg x y)
  | "LD", [.register x, .constant value] => some (.load x value)
  | "ADD", [.register x, .constant value] => some (.add x value)
  | "LD", [.register x, .register y] => some (.alu .copy x y)
  | "OR", [.register x, .register y] => some (.alu .or x y)
  | "AND", [.register x, .register y] => some (.alu .and x y)
  | "XOR", [.register x, .register y] => some (.alu .xor x y)
  | "ADD", [.register x, .register y] => some (.alu .add x y)
  | "SUB", [.register x, .register y] => some (.alu .sub x y)
  | "SHR", [.register x, .register y] => some (.alu .shiftRight x y)
  | "SUBN", [.register x, .register y] => some (.alu .subReversed x y)
  | "SHL", [.register x, .register y] => some (.alu .shiftLeft x y)
  | "LD", [.name "I", .address a] => some (.loadIndex a)
  | "JP", [.register 0, .address a] => some (.jumpOffset a)
  | "RND", [.register x, .constant mask] => some (.random x mask)
  | "DRW", [.register x, .register y, .count height] => some (.draw x y height)
  | "SKP", [.register x] => some (.skipDown x)
  | "SKNP", [.register x] => some (.skipUp x)
  | "LD", [.register x, .name "DT"] => some (.readDelay x)
  | "LD", [.register x, .name "K"] => some (.awaitKey x)
  | "LD", [.name "DT", .register x] => some (.setDelay x)
  | "LD", [.name "ST", .register x] => some (.setSound x)
  | "ADD", [.name "I", .register x] => some (.addIndex x)
  | "LD", [.name "F", .register x] => some (.loadGlyph x)
  | "LD", [.name "B", .register x] => some (.storeDigits x)
  | "LD", [.name "[I]", .register x] => some (.storeRegisters x)
  | "LD", [.register x, .name "[I]"] => some (.loadRegisters x)
  | "???", [.address raw] => some (.unknown raw)
  | _, _ => none

namespace Operand

theorem ofText_registerName (k : UInt8) : ofText (registerName k) = register k := by
  change (readDigits 16 0 (hex 1 k.toUInt16)).elim _ _ = _
  rw [readDigits_hex]
  exact congrArg register UInt8.ofNat_toNat

theorem ofText_constantText (value : UInt8) : ofText (constantText value) = constant value := by
  rw [constantText, hexMarked, hex_two]
  change (readDigits 16 0 (hexByte value)).elim _ _ = _
  rw [readDigits_hexByte]
  exact congrArg constant UInt8.ofNat_toNat

theorem ofText_hexMarked {width : Nat} (hwidth : 3 ≤ width) (word : UInt16) :
    ofText (hexMarked width word) = address word := by
  have hread := readDigits_hex width word
  have hlength := min_le_length_trimZeros width (hexDigits word)
  rw [hexDigits_length, ← hex] at hlength
  obtain ⟨digits, hdigits⟩ : ∃ digits, hex width word = digits := ⟨_, rfl⟩
  rw [hdigits] at hread hlength
  rw [hexMarked, hdigits]
  -- With a third digit this is no constant, and there is one.
  rcases digits with _ | ⟨first, _ | ⟨second, _ | ⟨third, rest⟩⟩⟩
  case cons.cons.cons =>
    change (readDigits 16 0 (first :: second :: third :: rest)).elim _ _ = _
    rw [hread]
    exact congrArg address UInt16.ofNat_toNat
  all_goals
    simp only [List.length_cons, List.length_nil] at hlength
    omega

theorem ofText_decimal (value : UInt8) : ofText (decimal value.toNat) = count value := by
  simp only [ofText, readDigits_decimal]
  exact congrArg count UInt8.ofNat_toNat

end Operand

/-! A mnemonic falls into its word and its operands at the blanks, once the commas are left out. -/

/-- A piece of text that neither a blank nor a comma parts. -/
def Unparted (piece : List Char) : Prop :=
  ' ' ∉ piece ∧ ',' ∉ piece

instance : DecidablePred Unparted :=
  fun piece => inferInstanceAs (Decidable (' ' ∉ piece ∧ ',' ∉ piece))

theorem Unparted.cons {piece : List Char} (h : Unparted piece) {c : Char} (hc : Unparted [c]) :
    Unparted (c :: piece) := by
  obtain ⟨hblank, hcomma⟩ := hc
  rw [List.mem_singleton] at hblank hcomma
  exact ⟨List.not_mem_cons_of_ne_of_not_mem hblank h.1,
    List.not_mem_cons_of_ne_of_not_mem hcomma h.2⟩

theorem unparted_hex (width : Nat) (word : UInt16) : Unparted (hex width word) :=
  ⟨not_mem_hex width word rfl, not_mem_hex width word rfl⟩

theorem unparted_hexMarked (width : Nat) (word : UInt16) : Unparted (hexMarked width word) :=
  ((unparted_hex width word).cons (by decide)).cons (by decide)

theorem unparted_registerName (k : UInt8) : Unparted (registerName k) :=
  (unparted_hex 1 k.toUInt16).cons (by decide)

theorem unparted_decimal (n : Nat) : Unparted (decimal n) :=
  ⟨not_mem_decimal n rfl, not_mem_decimal n rfl⟩

theorem filter_unparted {piece : List Char} (h : Unparted piece) :
    piece.filter (· ≠ ',') = piece := by
  rw [List.filter_eq_self]
  intro c hc
  simp only [ne_eq, decide_not, Bool.not_eq_true', decide_eq_false_iff_not]
  rintro rfl
  exact h.2 hc

/-- Without its commas, a list of operands is parted by single blanks. -/
theorem filter_operands {args : List (List Char)} (h : ∀ piece ∈ args, Unparted piece) :
    (operands args).filter (· ≠ ',') = [' '].intercalate args := by
  fun_induction operands args with
  | case1 => rfl
  | case2 a =>
      rw [filter_unparted (h a (List.mem_singleton_self a)), List.intercalate_singleton]
  | case3 a rest hrest ih =>
      obtain ⟨ha, hall⟩ := List.forall_mem_cons.1 h
      rw [List.filter_append, List.filter_append, filter_unparted ha, ih hall,
        List.intercalate_cons_of_ne_nil hrest]
      rfl

namespace Instruction

/-- Neither the word nor an operand is parted, one case for every shape of the operands. -/
theorem unparted_parts (i : Instruction) : ∀ piece ∈ i.parts.1 :: i.parts.2, Unparted piece := by
  unfold parts
  cases i with
  | clearScreen | ret => decide
  | jump a | call a | loadIndex a | jumpOffset a | unknown a =>
      simp only [addressText, List.forall_mem_cons, unparted_hexMarked, true_and]
      decide
  | skipEq x value | skipNe x value | load x value | add x value | random x value =>
      simp only [constantText, List.forall_mem_cons, unparted_registerName, unparted_hexMarked,
        true_and]
      decide
  | alu op x y =>
      simp only [List.forall_mem_cons, unparted_registerName, true_and]
      cases op <;> decide
  | draw x y height =>
      simp only [List.forall_mem_cons, unparted_registerName, unparted_decimal, true_and]
      decide
  | skipEqReg x y | skipNeReg x y =>
      simp only [List.forall_mem_cons, unparted_registerName, true_and]
      decide
  | skipDown x | skipUp x | readDelay x | awaitKey x | setDelay x | setSound x | addIndex x
  | loadGlyph x | storeDigits x | storeRegisters x | loadRegisters x =>
      simp only [List.forall_mem_cons, unparted_registerName, true_and]
      decide

/-- The word of a mnemonic and its operands. -/
def pieces (text : List Char) : List (List Char) :=
  (text.filter (· ≠ ',')).splitOn ' '

theorem filter_mnemonic (i : Instruction) :
    i.mnemonic.filter (· ≠ ',') = [' '].intercalate (i.parts.1 :: i.parts.2) := by
  have hparts := i.unparted_parts
  rw [mnemonic]
  generalize i.parts = parts at hparts
  obtain ⟨word, args⟩ := parts
  obtain ⟨hword, hargs⟩ := List.forall_mem_cons.1 hparts
  cases args with
  | nil => exact (filter_unparted hword).trans List.intercalate_singleton.symm
  | cons a rest =>
      calc
        (word ++ ' ' :: operands (a :: rest)).filter (· ≠ ',')
          = word ++ ' ' :: (operands (a :: rest)).filter (· ≠ ',') := by
            rw [List.filter_append, filter_unparted hword]
            rfl
        _ = word ++ ' ' :: [' '].intercalate (a :: rest) := by rw [filter_operands hargs]
        _ = [' '].intercalate (word :: a :: rest) := by
            rw [List.intercalate_cons_cons, List.append_assoc]
            rfl

theorem pieces_mnemonic (i : Instruction) : pieces i.mnemonic = i.parts.1 :: i.parts.2 := by
  rw [pieces, filter_mnemonic]
  apply List.splitOn_intercalate
  · intro piece hpiece
    exact (i.unparted_parts piece hpiece).1
  · exact List.cons_ne_nil _ _

/-- The instruction that a mnemonic names. -/
def ofMnemonic? (text : List Char) : Option Instruction :=
  match pieces text with
  | word :: args => ofWord? (String.ofList word) (args.map Operand.ofText)
  | [] => none

/-- The word and the kinds of the operands tell the instruction. -/
theorem ofWord?_parts (i : Instruction) :
    ofWord? (String.ofList i.parts.1) (i.parts.2.map Operand.ofText) = some i := by
  unfold parts
  cases i with
  | clearScreen | ret => rfl
  | jump a | call a | loadIndex a | jumpOffset a | unknown a =>
      simp only [addressText, List.map_cons, List.map_nil,
        Operand.ofText_hexMarked (Nat.le_refl 3), Operand.ofText_hexMarked (Nat.le_succ 3)]
      rfl
  | skipEq x value | skipNe x value | load x value | add x value | random x value =>
      simp only [List.map_cons, List.map_nil, Operand.ofText_registerName,
        Operand.ofText_constantText]
      rfl
  | alu op x y =>
      simp only [List.map_cons, List.map_nil, Operand.ofText_registerName]
      cases op <;> rfl
  | draw x y height =>
      simp only [List.map_cons, List.map_nil, Operand.ofText_registerName, Operand.ofText_decimal]
      rfl
  | skipEqReg x y | skipNeReg x y =>
      simp only [List.map_cons, List.map_nil, Operand.ofText_registerName]
      rfl
  | skipDown x | skipUp x | readDelay x | awaitKey x | setDelay x | setSound x | addIndex x
  | loadGlyph x | storeDigits x | storeRegisters x | loadRegisters x =>
      simp only [List.map_cons, List.map_nil, Operand.ofText_registerName]
      rfl

/-- An instruction is read back from its mnemonic. -/
theorem ofMnemonic?_mnemonic (i : Instruction) : ofMnemonic? i.mnemonic = some i := by
  rw [ofMnemonic?, pieces_mnemonic]
  exact i.ofWord?_parts

example : ofMnemonic? "LD VFF, 0x2A".toList = some (.load 0xFF 0x2A) := by decide

/-- A mnemonic names one instruction, whatever its operands. An opcode can be told from the mnemonic
of what it decodes to, too, because no two opcodes decode to the same. -/
theorem mnemonics_tell_apart :
    (∀ i j : Instruction, i.mnemonic = j.mnemonic ↔ i = j) ∧
      ∀ a b : Opcode, (decode a).mnemonic = (decode b).mnemonic ↔ a = b := by
  have hinstructions : ∀ i j : Instruction, i.mnemonic = j.mnemonic ↔ i = j := by
    intro i j
    constructor
    · exact eq_of_read ofMnemonic?_mnemonic
    · exact congrArg mnemonic
  refine ⟨hinstructions, ?_⟩
  intro a b
  rw [hinstructions]
  constructor
  · intro hdecode
    rw [← encode_decode a, hdecode, encode_decode]
  · exact congrArg decode

end Instruction

end Chip8
