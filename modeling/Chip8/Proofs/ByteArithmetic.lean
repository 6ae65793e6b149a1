import Chip8.Proofs.Effects

/-!
The arithmetic of registers. Taken as integers, the byte and the flag that an operation leaves
together say what became of its operands: nothing is lost in a sum, a difference or a shift. The
flag is written last, so it stands in its register even when the byte was meant for it.
-/

namespace Chip8

namespace Registers

theorem get_set (r : Registers) (j k : Fin 16) (byte : UInt8) :
    (r.set j byte).get k = if k = j then byte else r.get k := by
  change (r.v.set j.val byte j.isLt)[k.val] = _
  rw [Vector.getElem_set]
  by_cases h : k = j
  · rw [if_pos h, if_pos (congrArg Fin.val h.symm)]
  · rw [if_neg h, if_neg fun heq => h (Fin.ext heq.symm)]
    rfl

/-- The registers hold a byte and a flag that obey a law, as integers. The byte is in `x`, unless
that is the flag register. -/
def Splits (v : Vector UInt8 16) (x : Fin 16) (law : Int → Int → Prop) : Prop :=
  ∃ r f : Int, law r f ∧ 0 ≤ r ∧ r < 256 ∧ (f = 0 ∨ f = 1) ∧
    (v.get flagRegister).toNat = f ∧ (x ≠ flagRegister → (v.get x).toNat = r)

theorem splits_setFlag (r : Registers) (x : Fin 16) {byte : UInt8} {on : Bool}
    {law : Int → Int → Prop} (h : law byte.toNat on.toNat) :
    Splits ((r.set x byte).setFlag on).v x law := by
  have hlt := byte.toNat_lt
  refine ⟨byte.toNat, on.toNat, h, by omega, by omega, ?_, ?_, ?_⟩
  · cases on with
    | false => exact .inl rfl
    | true => exact .inr rfl
  · have hflag := (r.set x byte).get_set flagRegister flagRegister on.toUInt8
    rw [if_pos rfl] at hflag
    rw [setFlag, ← get, hflag]
    cases on <;> rfl
  · intro hx
    have hbyte := (r.set x byte).get_set flagRegister x on.toUInt8
    rw [if_neg hx] at hbyte
    rw [setFlag, ← get, hbyte, get_set, if_pos rfl]

end Registers

/-! The operations on two bytes, as integers. -/

section

/-- A flag as a number. -/
theorem toNat_decide (p : Prop) [Decidable p] : (decide p).toNat = if p then 1 else 0 :=
  apply_ite Bool.toNat p true false

variable (a b : UInt8)

theorem add_exact : ((a + b).toNat : Int) + 256 * (decide (256 ≤ a.toNat + b.toNat)).toNat =
    a.toNat + b.toNat := by
  have ha := a.toNat_lt
  have hb := b.toNat_lt
  rw [UInt8.toNat_add, toNat_decide]
  split <;> omega

theorem sub_exact :
    ((a - b).toNat : Int) = a.toNat - b.toNat + 256 * (1 - (decide (b ≤ a)).toNat) := by
  have ha := a.toNat_lt
  have hb := b.toNat_lt
  simp only [UInt8.toNat_sub, UInt8.le_iff_toNat_le, toNat_decide]
  split <;> omega

theorem half_exact : (a.toNat : Int) = 2 * (a / 2).toNat + (decide (a % 2 = 1)).toNat := by
  simp only [UInt8.toNat_div, ← UInt8.toNat_inj, UInt8.toNat_mod, UInt8.reduceToNat, toNat_decide]
  split <;> omega

theorem double_exact :
    2 * (a.toNat : Int) = 256 * (decide (128 ≤ a)).toNat + (a + a).toNat := by
  have ha := a.toNat_lt
  simp only [UInt8.toNat_add, UInt8.le_iff_toNat_le, UInt8.reduceToNat, toNat_decide]
  split <;> omega

end

namespace AluOp

/-- Whether an operation leaves a flag beside its byte. -/
def setsFlag : AluOp → Bool
  | .copy | .or | .and | .xor => false
  | .add | .sub | .shiftRight | .subReversed | .shiftLeft => true

/-- What an operation on the bytes `a` and `b` must leave in the registers when its byte goes to
`x`. -/
def Leaves (a b : UInt8) (x : Fin 16) (v : Vector UInt8 16) : AluOp → Prop
  | .copy => v.get x = b
  | .or => v.get x = a ||| b
  | .and => v.get x = a &&& b
  | .xor => v.get x = a ^^^ b
  | .add => Registers.Splits v x fun r f => r + 256 * f = a.toNat + b.toNat
  | .sub => Registers.Splits v x fun r f => r = a.toNat - b.toNat + 256 * (1 - f)
  | .shiftRight => Registers.Splits v x fun r f => a.toNat = 2 * r + f
  | .subReversed => Registers.Splits v x fun r f => r = b.toNat - a.toNat + 256 * (1 - f)
  | .shiftLeft => Registers.Splits v x fun r f => 2 * a.toNat = 256 * f + r

end AluOp

namespace Machine

variable {σ : Type}

theorem combine_leaves (op : AluOp) (target other : Fin 16) (m : Machine σ) :
    op.Leaves (m.registers.get target) (m.registers.get other) target
      (combine op target other m).registers.v := by
  have hself (byte : UInt8) := m.registers.get_set target target byte
  simp only [if_true] at hself
  cases op with
  | copy | or | and | xor => exact hself _
  | add => exact Registers.splits_setFlag _ target (add_exact _ _)
  | sub => exact Registers.splits_setFlag _ target (sub_exact _ _)
  | shiftRight => exact Registers.splits_setFlag _ target (half_exact _)
  | subReversed => exact Registers.splits_setFlag _ target (sub_exact _ _)
  | shiftLeft => exact Registers.splits_setFlag _ target (double_exact _)

/-- Combining two registers changes none but the first and, where there is a flag, the flag. -/
theorem combine_get_of_ne (op : AluOp) (target other : Fin 16) (m : Machine σ) {k : Fin 16}
    (htarget : k ≠ target) (hflag : op.setsFlag = true → k ≠ Registers.flagRegister) :
    (combine op target other m).registers.get k = m.registers.get k := by
  have hother (byte : UInt8) := m.registers.get_set target k byte
  simp only [if_neg htarget] at hother
  cases op with
  | copy | or | and | xor => exact hother _
  | add | sub | shiftRight | subReversed | shiftLeft =>
      refine (Registers.get_set _ Registers.flagRegister k _).trans ?_
      rw [if_neg (hflag rfl)]
      exact hother _

/-- Arithmetic is exact, whichever registers it is about, also when they are the same or one of
them is the flag register. An operation without a flag leaves its byte in the first register. An
operation with one leaves a byte and a flag that, taken as integers, account for the operands as
they were; the flag is in its register in any case. No other register changes and nothing else
happens, but that the next instruction comes. -/
theorem arithmetic_exact [Display σ] (m : Machine σ) (op : AluOp) {x y : UInt8}
    (hx : x.toNat < 16) (hy : y.toNat < 16) :
    ∃ v : Vector UInt8 16,
      execute (.alu op x y) m = .ok () {m with
        registers := {m.registers with v := v, pc := m.registers.pc + 2}} ∧
      op.Leaves (m.registers.get ⟨x.toNat, hx⟩) (m.registers.get ⟨y.toNat, hy⟩) ⟨x.toNat, hx⟩ v ∧
      ∀ k, k ≠ ⟨x.toNat, hx⟩ → (op.setsFlag = true → k ≠ Registers.flagRegister) →
        v.get k = m.registers.get k := by
  refine ⟨(combine op ⟨x.toNat, hx⟩ ⟨y.toNat, hy⟩ m).registers.v, ?_, ?_, ?_⟩
  · rw [execute_eq m (.alu op x y) (by simp [Instruction.registers, hx, hy])]
    simp only [executed, after, slot_of_lt hx, slot_of_lt hy]
    rw [combine_eq]
    rfl
  · exact combine_leaves op _ _ m
  · intro k hk hflag
    exact combine_get_of_ne op _ _ m hk hflag

/-- The flag register added to itself: 200 and 200 make 144 and a carry, and what stays is the
carry. -/
theorem arithmetic_exact_flag_to_itself :
    let registers := Registers.initial.set Registers.flagRegister 200
    let m := {Machine.fresh .default (.cycling #[]) Recorder.empty with registers := registers}
    ∃ v : Vector UInt8 16, execute (.alu .add 15 15) m = .ok () {m with
        registers := {registers with v := v, pc := 0x202}} ∧
      v.get Registers.flagRegister = 1 ∧ v.get 0 = 0 := by
  intro registers m
  obtain ⟨v, hexecute, ⟨r, f, hsum, hnonneg, hlt, hbit, hflag, -⟩, hothers⟩ :=
    arithmetic_exact m .add (x := 15) (y := 15) (by decide) (by decide)
  refine ⟨v, hexecute, ?_, hothers 0 (by decide) (by decide)⟩
  have htotal : r + 256 * f = 200 + 200 := hsum
  have hone : (v.get Registers.flagRegister).toNat = 1 := by omega
  exact UInt8.toNat_inj.1 hone

end Machine

end Chip8
