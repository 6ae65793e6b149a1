import Chip8.Keypad.Name
import Mathlib.Algebra.Group.Nat.Defs

/-!
The names of the keys. A text names a key if it is a numeral in base sixteen that is worth less than
sixteen, and these are told by their looks: a plus sign if at all, then zeros in any number, then
the digit of the key. With any further digit behind one that is not zero the value is sixteen or
more.
-/

namespace Chip8

namespace Keypad

/-- The digits that stand for the keys, letters in either case. -/
def digits : List (Char × UInt8) :=
  [ ('0', 0x0), ('1', 0x1), ('2', 0x2), ('3', 0x3), ('4', 0x4), ('5', 0x5), ('6', 0x6),
    ('7', 0x7), ('8', 0x8), ('9', 0x9), ('a', 0xA), ('b', 0xB), ('c', 0xC), ('d', 0xD),
    ('e', 0xE), ('f', 0xF), ('A', 0xA), ('B', 0xB), ('C', 0xC), ('D', 0xD), ('E', 0xE),
    ('F', 0xF) ]

/-- What a text looks like that names a key. -/
def IsName (name : List Char) (key : UInt8) : Prop :=
  ∃ sign zeros digit, name = sign ++ (List.replicate zeros '0' ++ [digit]) ∧
    (sign = [] ∨ sign = ['+']) ∧ digits.lookup digit = some key

end Keypad

namespace Text

theorem lt_of_digitValue? {base n : Nat} {c : Char} (h : digitValue? base c = some n) :
    n < base :=
  of_decide_eq_true (Option.filter_eq_some_iff.1 h).2

theorem digitValue?_of_not_ascii {base : Nat} {c : Char} (h : 128 ≤ c.toNat) :
    digitValue? base c = none := by
  have hbeyond : ∀ last : Char, last.toNat < 128 → ¬ c ≤ last :=
    fun last hlast hle => Nat.not_lt.2 h (Nat.lt_of_le_of_lt hle hlast)
  simp [digitValue?, hbeyond '9' (by decide), hbeyond 'z' (by decide), hbeyond 'Z' (by decide)]

/-- The digits in base sixteen are those that stand for the keys, and are worth what these are. -/
theorem digitValue?_sixteen (c : Char) :
    digitValue? 16 c = (Keypad.digits.lookup c).map UInt8.toNat := by
  have hascii : ∀ n < 128, digitValue? 16 (Char.ofNat n) =
      (Keypad.digits.lookup (Char.ofNat n)).map UInt8.toNat := by decide +kernel
  have hlisted : ∀ entry ∈ Keypad.digits, entry.1.toNat < 128 := by decide
  by_cases hc : c.toNat < 128
  · have hvalue := hascii c.toNat hc
    rwa [Char.ofNat_toNat] at hvalue
  · have hunlisted : Keypad.digits.lookup c = none := by
      rw [List.lookup_eq_none_iff]
      intro entry hentry
      rw [bne_iff_ne]
      rintro rfl
      exact hc (hlisted entry hentry)
    rw [digitValue?_of_not_ascii (Nat.not_lt.1 hc), hunlisted]
    rfl

/-- What was read counts for more with every digit behind it. -/
theorem le_of_readDigits {base value n : Nat} {digits : List Char}
    (h : readDigits base value digits = some n) : value * base ^ digits.length ≤ n := by
  induction digits generalizing value with
  | nil =>
      cases h
      exact Nat.le_of_eq (Nat.mul_one n)
  | cons c rest ih =>
      rw [readDigits] at h
      split at h
      · next digit hdigit =>
          calc value * base ^ (rest.length + 1)
              = value * base * base ^ rest.length := by rw [Nat.pow_succ', Nat.mul_assoc]
            _ ≤ (value * base + digit) * base ^ rest.length :=
                Nat.mul_le_mul_right _ (Nat.le_add_right _ _)
            _ ≤ n := ih h
      · cases h

theorem readDigits_zeros {base : Nat} (hbase : 0 < base) (zeros : Nat) (rest : List Char) :
    readDigits base 0 (List.replicate zeros '0' ++ rest) = readDigits base 0 rest := by
  induction zeros with
  | zero => rfl
  | succ zeros ih =>
      have hzero : digitValue? base '0' = some 0 := by simp [digitValue?, hbase]
      rw [List.replicate_succ, List.cons_append, readDigits, hzero]
      simpa using ih

theorem eq_zero_of_digitValue? {base : Nat} {c : Char} (h : digitValue? base c = some 0) :
    c = '0' := by
  have hvalue := (Option.filter_eq_some_iff.1 h).1
  have hfirst : '0'.toNat = 48 ∧ 'a'.toNat = 97 ∧ 'A'.toNat = 65 := by decide
  apply Char.toNat_inj.1
  split at hvalue
  · next hdigit =>
      have hle : '0'.toNat ≤ c.toNat := hdigit.1
      rw [Option.some.injEq] at hvalue
      omega
  · split at hvalue
    · next hsmall =>
        have hle : 'a'.toNat ≤ c.toNat := hsmall.1
        rw [Option.some.injEq] at hvalue
        omega
    · split at hvalue
      · next hcapital =>
          have hle : 'A'.toNat ≤ c.toNat := hcapital.1
          rw [Option.some.injEq] at hvalue
          omega
      · cases hvalue

/-- Digits that are worth less than the base are zeros but for the last. -/
theorem eq_zeros_of_readDigits {base n : Nat} {digits : List Char} (hn : n < base)
    (hdigits : digits ≠ []) (h : readDigits base 0 digits = some n) :
    ∃ zeros c, digits = List.replicate zeros '0' ++ [c] ∧ digitValue? base c = some n := by
  induction digits with
  | nil => exact absurd rfl hdigits
  | cons c rest ih =>
      rw [readDigits] at h
      split at h
      · next digit hdigit =>
          rw [Nat.zero_mul, Nat.zero_add] at h
          by_cases hlast : rest = []
          · subst hlast
            cases h
            exact ⟨0, c, rfl, hdigit⟩
          · have hpower : base ≤ base ^ rest.length :=
              Nat.le_self_pow (mt List.length_eq_zero_iff.1 hlast) base
            have hzero : digit = 0 := by
              apply Nat.eq_zero_of_not_pos
              intro hpos
              have hlarge : base ^ rest.length ≤ digit * base ^ rest.length :=
                Nat.le_mul_of_pos_left _ hpos
              have hworth := le_of_readDigits h
              omega
            subst hzero
            obtain ⟨zeros, last, rfl, hvalue⟩ := ih hlast h
            exact ⟨zeros + 1, last, by rw [eq_zero_of_digitValue? hdigit]; rfl, hvalue⟩
      · cases h

theorem readUnsigned_eq_some_iff {base n : Nat} {digits : List Char} (hn : n < base) :
    readUnsigned base digits = some n ↔
      ∃ zeros c, digits = List.replicate zeros '0' ++ [c] ∧ digitValue? base c = some n := by
  have hread : digits ≠ [] → readUnsigned base digits = readDigits base 0 digits := by
    cases digits with
    | nil => exact fun hne => absurd rfl hne
    | cons c rest => exact fun _ => rfl
  constructor
  · intro h
    have hne : digits ≠ [] := by
      rintro rfl
      cases h
    exact eq_zeros_of_readDigits hn hne ((hread hne).symm.trans h)
  · rintro ⟨zeros, c, rfl, hc⟩
    rw [hread (by simp), readDigits_zeros (Nat.zero_lt_of_lt hn)]
    simp [readDigits, hc]

/-- A numeral that is worth less than the base is a plus sign if at all, then zeros in any number,
then one digit. -/
theorem readNumeral_eq_some_iff {base n : Nat} {name : List Char} (hn : n < base) :
    readNumeral base name = some n ↔ ∃ sign zeros c,
      name = sign ++ (List.replicate zeros '0' ++ [c]) ∧ (sign = [] ∨ sign = ['+']) ∧
      digitValue? base c = some n := by
  constructor
  · intro h
    unfold readNumeral at h
    split at h
    · next digits =>
        obtain ⟨zeros, c, rfl, hc⟩ := (readUnsigned_eq_some_iff hn).1 h
        exact ⟨['+'], zeros, c, rfl, .inr rfl, hc⟩
    · obtain ⟨zeros, c, rfl, hc⟩ := (readUnsigned_eq_some_iff hn).1 h
      exact ⟨[], zeros, c, rfl, .inl rfl, hc⟩
  · rintro ⟨sign, zeros, c, rfl, rfl | rfl, hc⟩
    · unfold readNumeral
      split
      · next digits hsigned =>
          cases zeros with
          | zero =>
              obtain rfl : c = '+' := (List.cons.inj hsigned).1
              cases hc
          | succ zeros => exact absurd (List.cons.inj hsigned).1 (by decide)
      · exact (readUnsigned_eq_some_iff hn).2 ⟨zeros, c, rfl, hc⟩
    · exact (readUnsigned_eq_some_iff hn).2 ⟨zeros, c, rfl, hc⟩

end Text

namespace Keypad

theorem ofName?_eq_some_iff {name : List Char} {key : UInt8} :
    ofName? name = some key ↔ key.toNat < 16 ∧ Text.readNumeral 16 name = some key.toNat := by
  unfold ofName?
  cases hread : Text.readNumeral 16 name with
  | none => simp
  | some n =>
      dsimp only
      constructor
      · intro h
        split at h
        · next hn =>
            cases h
            have hvalue : n.toUInt8.toNat = n := Nat.mod_eq_of_lt (by omega)
            exact ⟨by omega, by rw [hvalue]⟩
        · cases h
      · rintro ⟨hkey, hvalue⟩
        cases hvalue
        rw [if_pos hkey]
        exact congrArg some (UInt8.toNat_inj.1 (by simp))

/-- A text names a key just if it looks like a name of it, and any other text names none. -/
theorem ofName?_iff_isName (name : List Char) :
    (∀ key, ofName? name = some key ↔ IsName name key) ∧
      (ofName? name = none ↔ ∀ key, ¬ IsName name key) := by
  have hnames : ∀ key, ofName? name = some key ↔ IsName name key := by
    intro key
    rw [ofName?_eq_some_iff]
    constructor
    · rintro ⟨hkey, hread⟩
      obtain ⟨sign, zeros, digit, hname, hsign, hvalue⟩ :=
        (Text.readNumeral_eq_some_iff hkey).1 hread
      refine ⟨sign, zeros, digit, hname, hsign, ?_⟩
      rw [Text.digitValue?_sixteen] at hvalue
      obtain ⟨key', hkey', heq⟩ := Option.map_eq_some_iff.1 hvalue
      rw [hkey', UInt8.toNat_inj.1 heq]
    · rintro ⟨sign, zeros, digit, hname, hsign, hlisted⟩
      have hvalue : Text.digitValue? 16 digit = some key.toNat := by
        rw [Text.digitValue?_sixteen, hlisted]
        rfl
      have hkey := Text.lt_of_digitValue? hvalue
      exact ⟨hkey, (Text.readNumeral_eq_some_iff hkey).2 ⟨sign, zeros, digit, hname, hsign, hvalue⟩⟩
  refine ⟨hnames, ?_⟩
  rw [Option.eq_none_iff_forall_ne_some]
  exact forall_congr' fun key => not_congr (hnames key)

example : ofName? ['+', '0', '0', '0', 'b'] = some 11 ∧ ofName? ['0', 'x', '5'] = none ∧
    ofName? ['1', '0', '0', '5'] = none := by decide

end Keypad

end Chip8
