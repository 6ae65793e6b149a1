import Chip8.Proofs.ByteArithmetic
import Chip8.Proofs.Toggles

/-!
Drawing a sprite again where it was drawn. It erases the sprite, because the two together hit every
pixel an even number of times. As long as the sprite is not higher than the screen, one of them hits
no pixel twice, and the flags tell what was there: the first whether the sprite met a lit pixel, the
second whether it met a dark one.
-/

namespace Chip8

namespace Screen

/-- Toggling the same pixels again brings back the screen. -/
theorem toggleAll_again (s : Screen) (pixels : List (Nat × Nat)) :
    ((s.toggleAll pixels).2.toggleAll pixels).2 = s := by
  apply eq_of_get
  intro x y
  rw [get_toggleAll, get_toggleAll, Bool.xor_assoc, Bool.xor_self, Bool.xor_false]

theorem hits_pos {pixels : List (Nat × Nat)} {pixel : Nat × Nat} (h : pixel ∈ pixels) :
    0 < hits pixels (place pixel.1 pixel.2) :=
  List.countP_pos_iff.2 ⟨pixel, h, by simp⟩

section

variable {pixels : List (Nat × Nat)} (hapart : ∀ p, hits pixels p ≤ 1)
include hapart

/-- Of pixels that are apart from each other, some darkens if one was lit. -/
theorem toggleAll_count_pos_of_apart (s : Screen) :
    0 < (s.toggleAll pixels).1 ↔ ∃ pixel ∈ pixels, s.get pixel.1 pixel.2 = true := by
  rw [toggleAll_count, Finset.sum_pos_iff]
  constructor
  · rintro ⟨p, -, hpos⟩
    have hbit := Bool.toNat_le s.pixels[p]
    have hone := hapart p
    have hhit : 0 < hits pixels p := by omega
    obtain ⟨pixel, hmem, hplace⟩ := List.countP_pos_iff.1 hhit
    obtain rfl : place pixel.1 pixel.2 = p := of_decide_eq_true hplace
    refine ⟨pixel, hmem, ?_⟩
    rw [get, ← Bool.toNat_eq_one]
    omega
  · rintro ⟨pixel, hmem, hlit⟩
    have hhit := hits_pos hmem
    have hbit : s.pixels[place pixel.1 pixel.2].toNat = 1 := Bool.toNat_eq_one.2 hlit
    exact ⟨place pixel.1 pixel.2, Finset.mem_univ _, by omega⟩

/-- Each of them is inverted. -/
theorem get_toggleAll_of_apart (s : Screen) {pixel : Nat × Nat} (hmem : pixel ∈ pixels) :
    (s.toggleAll pixels).2.get pixel.1 pixel.2 = !s.get pixel.1 pixel.2 := by
  have hone : hits pixels (place pixel.1 pixel.2) = 1 :=
    Nat.le_antisymm (hapart _) (hits_pos hmem)
  rw [get_toggleAll, ← hits_place, hone]
  exact Bool.xor_true _

end

theorem mem_spriteFrom {memory : Memory} {a : UInt16} {x y height : UInt8} {pixel : Nat × Nat} :
    pixel ∈ spriteFrom memory a x y height ↔ ∃ row < height.toNat, ∃ column < 8,
      (memory.read (a + row.toUInt16)).toNat.testBit (7 - column) = true ∧
        (x.toNat + column, y.toNat + row) = pixel := by
  rw [spriteFrom, spritePixels_slice]
  simp only [List.mem_filterMap, Prod.exists, List.mem_product, List.mem_range,
    Option.ite_none_right_eq_some, Option.some.injEq]
  constructor
  · rintro ⟨row, column, ⟨hrow, hcolumn⟩, hbit, heq⟩
    exact ⟨row, hrow, column, hcolumn, hbit, heq⟩
  · rintro ⟨row, hrow, column, hcolumn, hbit, heq⟩
    exact ⟨row, column, ⟨hrow, hcolumn⟩, hbit, heq⟩

/-- A sprite that is not higher than the screen does not fall on itself: its rows are apart, and so
are the eight pixels of a row. -/
theorem hits_spriteFrom_le_one (memory : Memory) (a : UInt16) (x y : UInt8) {height : UInt8}
    (hheight : height.toNat ≤ 32) (p : Fin 2048) :
    hits (spriteFrom memory a x y height) p ≤ 1 := by
  obtain ⟨px, hpx, py, hpy, rfl⟩ := exists_place p
  rw [hits_spriteFrom memory a x y height hpx hpy, covers, Finset.card_le_one]
  rintro ⟨row, column⟩ hcovers ⟨row', column'⟩ hcovers'
  simp only [Finset.mem_filter, Finset.mem_product, Finset.mem_range] at hcovers hcovers'
  rw [Prod.mk.injEq]
  omega

/-- Whether a sprite in memory, with its corner at `(x, y)`, has a set bit that falls on a lit
pixel, or on a dark one. -/
def Meets (s : Screen) (memory : Memory) (a : UInt16) (x y height : UInt8) (lit : Bool) : Prop :=
  ∃ row < height.toNat, ∃ column < 8,
    (memory.read (a + row.toUInt16)).toNat.testBit (7 - column) = true ∧
      s.get (x.toNat + column) (y.toNat + row) = lit

theorem meets_iff {s : Screen} {memory : Memory} {a : UInt16} {x y height : UInt8} {lit : Bool} :
    s.Meets memory a x y height lit ↔
      ∃ pixel ∈ spriteFrom memory a x y height, s.get pixel.1 pixel.2 = lit := by
  simp only [Meets, mem_spriteFrom]
  constructor
  · rintro ⟨row, hrow, column, hcolumn, hbit, hlit⟩
    exact ⟨_, ⟨row, hrow, column, hcolumn, hbit, rfl⟩, hlit⟩
  · rintro ⟨pixel, ⟨row, hrow, column, hcolumn, hbit, rfl⟩, hlit⟩
    exact ⟨row, hrow, column, hcolumn, hbit, hlit⟩

end Screen

/-- The bits of a byte, from the left, are all clear only if it is zero. -/
theorem exists_column_of_ne_zero {byte : UInt8} (h : byte ≠ 0) :
    ∃ column < 8, byte.toNat.testBit (7 - column) = true := by
  have hne : byte.toNat ≠ 0 := fun hzero => h (UInt8.toNat_inj.1 hzero)
  obtain ⟨bit, hbit⟩ := Nat.exists_testBit_of_ne_zero hne
  have hlt : bit < 8 := by
    by_contra hle
    have hpow : byte.toNat < 2 ^ bit :=
      Nat.lt_of_lt_of_le byte.toNat_lt (Nat.pow_le_pow_right (by decide) (Nat.not_lt.1 hle))
    rw [Nat.testBit_lt_two_pow hpow] at hbit
    exact Bool.false_ne_true hbit
  refine ⟨7 - bit, by omega, ?_⟩
  rwa [show 7 - (7 - bit) = bit by omega]

theorem Registers.flag_setFlag_eq_one_iff (r : Registers) (on : Bool) :
    (r.setFlag on).flag = 1 ↔ on = true := by
  rw [flag, setFlag, get_set, if_pos rfl]
  cases on with
  | true => exact iff_of_true rfl rfl
  | false => exact iff_of_false (by decide) Bool.false_ne_true

namespace Machine

variable {σ : Type} [Display σ]

/-- What drawing does to the screen, to the flag and to what a second drawing reads. -/
theorem execute_draw_outcome (m : Machine σ) {x y : UInt8} (height : UInt8) (hx : x.toNat < 16)
    (hy : y.toNat < 16) {sprite : List (Nat × Nat)}
    (hsprite : sprite = Screen.spriteFrom m.memory m.registers.index
      (m.registers.get ⟨x.toNat, hx⟩) (m.registers.get ⟨y.toNat, hy⟩) height) :
    ∃ m' : Machine σ, execute (.draw x y height) m = .ok () m' ∧
      m'.screen = (m.screen.toggleAll sprite).2 ∧
      (m'.registers.flag = 1 ↔ 0 < (m.screen.toggleAll sprite).1) ∧
      m'.memory = m.memory ∧ m'.registers.index = m.registers.index ∧
      ∀ k ≠ Registers.flagRegister, m'.registers.get k = m.registers.get k := by
  subst hsprite
  refine ⟨_, m.execute_draw height hx hy rfl, rfl, ?_, rfl, rfl, ?_⟩
  · exact (m.registers.flag_setFlag_eq_one_iff _).trans decide_eq_true_iff
  · intro k hk
    exact (m.registers.get_set Registers.flagRegister k _).trans (if_neg hk)

/-- To draw a sprite a second time at the same place erases it, provided the flag register holds
neither of its coordinates. If the sprite is not higher than the screen, the first flag is one if
the sprite meets a lit pixel and the second is one if it meets a dark one. A sprite with a set bit
does one or the other. -/
theorem draw_again_erases (m : Machine σ) (x y height : UInt8) (hx : x.toNat < 15)
    (hy : y.toNat < 15) :
    let a := m.registers.index
    let column := m.registers.get ⟨x.toNat, Nat.lt_succ_of_lt hx⟩
    let row := m.registers.get ⟨y.toNat, Nat.lt_succ_of_lt hy⟩
    ∃ once twice : Machine σ, execute (.draw x y height) m = .ok () once ∧
      execute (.draw x y height) once = .ok () twice ∧
      twice.screen = m.screen ∧
      (height.toNat ≤ 32 →
        (once.registers.flag = 1 ↔ m.screen.Meets m.memory a column row height true) ∧
        (twice.registers.flag = 1 ↔ m.screen.Meets m.memory a column row height false) ∧
        ((∃ k < height.toNat, m.memory.read (a + k.toUInt16) ≠ 0) →
          once.registers.flag = 1 ∨ twice.registers.flag = 1)) := by
  intro a column row
  obtain ⟨sprite, hsprite⟩ : ∃ sprite, sprite = Screen.spriteFrom m.memory a column row height :=
    ⟨_, rfl⟩
  obtain ⟨once, honce, hscreen, hflag, hmemory, hindex, hget⟩ :=
    m.execute_draw_outcome height (Nat.lt_succ_of_lt hx) (Nat.lt_succ_of_lt hy) hsprite
  have hkept : ∀ {k : UInt8} (hk : k.toNat < 15),
      once.registers.get ⟨k.toNat, Nat.lt_succ_of_lt hk⟩ =
        m.registers.get ⟨k.toNat, Nat.lt_succ_of_lt hk⟩ :=
    fun hk => hget _ (Fin.ne_of_lt hk)
  -- The second sprite is the first, because nothing that it is read from has changed.
  have hagain : sprite = Screen.spriteFrom once.memory once.registers.index
      (once.registers.get ⟨x.toNat, Nat.lt_succ_of_lt hx⟩)
      (once.registers.get ⟨y.toNat, Nat.lt_succ_of_lt hy⟩) height := by
    rw [hmemory, hindex, hkept hx, hkept hy, hsprite]
  obtain ⟨twice, htwice, hscreen', hflag', -⟩ :=
    once.execute_draw_outcome height (Nat.lt_succ_of_lt hx) (Nat.lt_succ_of_lt hy) hagain
  rw [hscreen] at hscreen' hflag'
  refine ⟨once, twice, honce, htwice, hscreen'.trans (m.screen.toggleAll_again sprite), ?_⟩
  intro hheight
  have hapart : ∀ p, Screen.hits sprite p ≤ 1 := by
    rw [hsprite]
    exact Screen.hits_spriteFrom_le_one m.memory a column row hheight
  have hlit : once.registers.flag = 1 ↔ m.screen.Meets m.memory a column row height true := by
    rw [hflag, Screen.toggleAll_count_pos_of_apart hapart, Screen.meets_iff, hsprite]
  have hdark : twice.registers.flag = 1 ↔ m.screen.Meets m.memory a column row height false := by
    rw [hflag', Screen.toggleAll_count_pos_of_apart hapart, Screen.meets_iff, ← hsprite]
    apply exists_congr
    intro pixel
    apply and_congr_right
    intro hmem
    rw [Screen.get_toggleAll_of_apart hapart m.screen hmem, Bool.not_eq_true']
  refine ⟨hlit, hdark, ?_⟩
  rintro ⟨k, hk, hbyte⟩
  obtain ⟨bit, hbit, hset⟩ := exists_column_of_ne_zero hbyte
  rw [hlit, hdark]
  cases hpixel : m.screen.get (column.toNat + bit) (row.toNat + k) with
  | true => exact .inl ⟨k, hk, bit, hbit, hset, hpixel⟩
  | false => exact .inr ⟨k, hk, bit, hbit, hset, hpixel⟩

/-- A glyph that reaches over both edges of the screen, with its first row from the last address
there is, where nothing is set. It meets the one lit pixel and, on the other side of the screen,
dark ones, so both flags are one. -/
theorem draw_again_erases_around :
    let registers := {(Registers.initial.set 1 62).set 2 30 with index := 0xFFFF}
    let m := {Machine.fresh .default (.cycling #[]) ([] : List Screen) with
      screen := (Screen.blank.toggle 0 31).2, registers := registers}
    ∃ once twice, execute (.draw 1 2 6) m = .ok () once ∧
      execute (.draw 1 2 6) once = .ok () twice ∧ twice.screen = m.screen ∧
      once.registers.flag = 1 ∧ twice.registers.flag = 1 := by
  intro registers m
  obtain ⟨once, twice, honce, htwice, hscreen, hflags⟩ :=
    draw_again_erases m 1 2 6 (by decide) (by decide)
  obtain ⟨hlit, hdark, -⟩ := hflags (by decide)
  refine ⟨once, twice, honce, htwice, hscreen, hlit.2 ?_, hdark.2 ?_⟩
  · exact ⟨1, by decide, 2, by decide, by decide +kernel, by decide +kernel⟩
  · exact ⟨1, by decide, 0, by decide, by decide +kernel, by decide +kernel⟩

end Machine

end Chip8
