import Chip8.Text.Hex
import Chip8.Text.Numeral

/-!
Numerals read back. The digits of a number give the number again, whatever zeros stand in front of
them, so two numbers never share a text; and a numeral holds no character but digits, so it ends
where another character comes.
-/

namespace Chip8.Text

/-- What is read back was written of one value only. -/
theorem eq_of_read {α β : Type} {write : α → List Char} {read : List Char → Option β}
    {value : α → β} (hread : ∀ a, read (write a) = some (value a)) {a b : α}
    (h : write a = write b) : value a = value b := by
  have hboth := hread a
  rw [h, hread] at hboth
  exact (Option.some.inj hboth).symm

theorem digitValue?_hexDigit (value : Nat) :
    digitValue? 16 (hexDigit value) = some (value % 16) := by
  have hdigits : ∀ digit : Fin 16, digitValue? 16 (hexDigit digit.val) = some digit.val := by
    decide
  have hmod : hexDigit value = hexDigit (value % 16) := by simp [hexDigit]
  rw [hmod]
  exact hdigits ⟨value % 16, Nat.mod_lt _ (by decide)⟩

/-- Zeros in front of a numeral do not count. -/
theorem readDigits_trimZeros (width : Nat) (digits : List Char) :
    readDigits 16 0 (trimZeros width digits) = readDigits 16 0 digits := by
  induction digits with
  | nil => rfl
  | cons c rest ih =>
      unfold trimZeros
      split
      · next hzero =>
          rw [ih, hzero.1]
          rfl
      · rfl

theorem readDigits_hexDigits (word : UInt16) :
    readDigits 16 0 (hexDigits word) = some word.toNat := by
  have hlt := word.toNat_lt
  simp only [hexDigits, readDigits, digitValue?_hexDigit, Option.some.injEq]
  omega

/-- A word in hexadecimal is read back, whatever width it was written in. -/
theorem readDigits_hex (width : Nat) (word : UInt16) :
    readDigits 16 0 (hex width word) = some word.toNat :=
  (readDigits_trimZeros width _).trans (readDigits_hexDigits word)

theorem trimZeros_of_length_le {width : Nat} {digits : List Char} (h : digits.length ≤ width) :
    trimZeros width digits = digits := by
  cases digits with
  | nil => rfl
  | cons c rest =>
      rw [trimZeros, if_neg]
      rintro ⟨-, hlong⟩
      exact Nat.not_lt.2 hlong h

/-- A numeral is not shorter than asked for, unless there are not so many digits. -/
theorem min_le_length_trimZeros (width : Nat) (digits : List Char) :
    min width digits.length ≤ (trimZeros width digits).length := by
  induction digits with
  | nil => exact Nat.min_le_right _ _
  | cons c rest ih =>
      rw [trimZeros]
      split
      · next hzero =>
          rw [List.length_cons]
          have hlong := hzero.2
          omega
      · exact Nat.min_le_right _ _

theorem hex_four (word : UInt16) : hex 4 word = hexDigits word :=
  trimZeros_of_length_le (Nat.le_of_eq (hexDigits_length word))

/-- A byte in at least two digits has exactly two. -/
theorem hex_two (byte : UInt8) : hex 2 byte.toUInt16 = hexByte byte := by
  have hlt := byte.toNat_lt
  have hhigh : byte.toNat / 4096 = 0 := by omega
  have hlow : byte.toNat / 256 = 0 := by omega
  have hdigits : hexDigits byte.toUInt16 = '0' :: '0' :: hexByte byte := by
    simp only [hexDigits, UInt8.toNat_toUInt16, hhigh, hlow]
    rfl
  rw [hex, hdigits]
  change trimZeros 2 (hexByte byte) = hexByte byte
  exact trimZeros_of_length_le (Nat.le_refl 2)

theorem readDigits_hexByte (byte : UInt8) : readDigits 16 0 (hexByte byte) = some byte.toNat := by
  rw [← hex_two]
  exact readDigits_hex 2 byte.toUInt16

theorem digitValue?_of_isDigit {c : Char} (h : c.isDigit = true) :
    digitValue? 10 c = some (c.toNat - 48) := by
  simp only [Char.isDigit, ge_iff_le, Bool.and_eq_true, decide_eq_true_eq] at h
  have hdigit : '0' ≤ c ∧ c ≤ '9' := h
  have hlt : c.toNat - 48 < 10 := by
    have hle : c.toNat ≤ 57 := h.2
    omega
  simp [digitValue?, hdigit, hlt]

theorem readDigits_of_isDigit {digits : List Char} (h : ∀ c ∈ digits, c.isDigit = true)
    (value : Nat) : readDigits 10 value digits = some (Nat.ofDigitChars 10 digits value) := by
  induction digits generalizing value with
  | nil => rfl
  | cons c rest ih =>
      obtain ⟨hc, hrest⟩ := List.forall_mem_cons.1 h
      simp only [readDigits, digitValue?_of_isDigit hc, Nat.ofDigitChars_cons]
      rw [ih hrest, Nat.mul_comm]
      rfl

/-- A number in base ten is read back. -/
theorem readDigits_decimal (n : Nat) : readDigits 10 0 (decimal n) = some n := by
  have hdigits : ∀ c ∈ decimal n, c.isDigit = true :=
    fun _ hc => Nat.isDigit_of_mem_toDigits (by decide) (by decide) hc
  rw [readDigits_of_isDigit hdigits]
  exact congrArg some Nat.ofDigitChars_ten_toDigits

/-- What can be read holds nothing but digits. -/
theorem not_mem_of_readDigits {base value n : Nat} {digits : List Char} {c : Char}
    (h : readDigits base value digits = some n) (hc : digitValue? base c = none) :
    c ∉ digits := by
  induction digits generalizing value with
  | nil => exact List.not_mem_nil
  | cons first rest ih =>
      rw [readDigits] at h
      split at h
      · next digit hfirst =>
          rw [List.mem_cons, not_or]
          refine ⟨?_, ih h⟩
          rintro rfl
          rw [hfirst] at hc
          cases hc
      · cases h

theorem not_mem_hex {c : Char} (width : Nat) (word : UInt16) (hc : digitValue? 16 c = none) :
    c ∉ hex width word :=
  not_mem_of_readDigits (readDigits_hex width word) hc

theorem not_mem_decimal {c : Char} (n : Nat) (hc : digitValue? 10 c = none) : c ∉ decimal n :=
  not_mem_of_readDigits (readDigits_decimal n) hc

theorem hex_inj (width : Nat) {word word' : UInt16} (h : hex width word = hex width word') :
    word = word' :=
  UInt16.toNat_inj.1 (eq_of_read (readDigits_hex width) h)

theorem hexByte_inj {byte byte' : UInt8} (h : hexByte byte = hexByte byte') : byte = byte' :=
  UInt8.toNat_inj.1 (eq_of_read readDigits_hexByte h)

theorem decimal_inj {n n' : Nat} (h : decimal n = decimal n') : n = n' :=
  eq_of_read readDigits_decimal h

end Chip8.Text
