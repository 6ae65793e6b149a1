import Chip8.Proofs.Stores
import Mathlib.Algebra.BigOperators.Group.Finset.Piecewise
import Mathlib.Algebra.Order.BigOperators.Group.Finset
import Mathlib.Data.Fintype.BigOperators
import Mathlib.Data.List.ProdSigma

/-!
Drawing. Toggling many pixels comes to counting: a pixel changes if it is hit an odd number of
times, and it darkens once for every two times that it is hit or was lit. A sprite is such a list of
pixels, read from memory row by row and joined at the edges of the screen, and the flag tells
whether any of them darkened.
-/

namespace Chip8

namespace Screen

theorem exists_place (p : Fin 2048) : ∃ px < 64, ∃ py < 32, place px py = p := by
  refine ⟨p % 64, Nat.mod_lt _ (by decide), p / 64, by omega, ?_⟩
  apply Fin.ext
  simp only [place]
  omega

/-- How often a place is hit by some pixels. -/
def hits (pixels : List (Nat × Nat)) (p : Fin 2048) : Nat :=
  pixels.countP fun (x, y) => place x y = p

theorem hits_cons (x y : Nat) (rest : List (Nat × Nat)) (p : Fin 2048) :
    hits ((x, y) :: rest) p = hits rest p + if place x y = p then 1 else 0 := by
  simp [hits, List.countP_cons]

theorem pixels_toggle (s : Screen) (x y : Nat) (p : Fin 2048) :
    (s.toggle x y).2.pixels[p] = (s.pixels[p] ^^ decide (place x y = p)) := by
  simp only [toggle, Fin.getElem_fin, Vector.getElem_set, Fin.val_inj]
  by_cases h : place x y = p <;> simp [h]

/-- A pixel is lit after toggles if it was lit and hit an even number of times, or was dark and hit
an odd number of times. -/
theorem pixels_toggleAll (s : Screen) (pixels : List (Nat × Nat)) (p : Fin 2048) :
    (s.toggleAll pixels).2.pixels[p] = (s.pixels[p] ^^ decide (hits pixels p % 2 = 1)) := by
  induction pixels generalizing s with
  | nil => simp [toggleAll, hits]
  | cons pixel rest ih =>
      obtain ⟨x, y⟩ := pixel
      simp only [toggleAll]
      rw [ih, pixels_toggle, hits_cons, Bool.xor_assoc]
      congr 1
      by_cases h : place x y = p
      · obtain heven | hodd := Nat.mod_two_eq_zero_or_one (hits rest p)
        · simp [h, heven, Nat.add_mod]
        · simp [h, hodd, Nat.add_mod]
      · simp [h]

/-- A pixel darkens once for every two times that it is hit or was lit. -/
theorem toggleAll_count (s : Screen) (pixels : List (Nat × Nat)) :
    (s.toggleAll pixels).1 = ∑ p : Fin 2048, (s.pixels[p].toNat + hits pixels p) / 2 := by
  induction pixels generalizing s with
  | nil =>
      have hdark : ∀ p : Fin 2048, (s.pixels[p].toNat + hits [] p) / 2 = 0 := by
        intro p
        have hbit := Bool.toNat_lt s.pixels[p]
        simp only [hits, List.countP_nil]
        omega
      simp only [toggleAll, hdark, Finset.sum_const_zero]
  | cons pixel rest ih =>
      obtain ⟨x, y⟩ := pixel
      have hterm : ∀ p : Fin 2048, (s.pixels[p].toNat + hits ((x, y) :: rest) p) / 2 =
          ((s.toggle x y).2.pixels[p].toNat + hits rest p) / 2 +
            if place x y = p then s.pixels[p].toNat else 0 := by
        intro p
        rw [pixels_toggle, hits_cons]
        by_cases h : place x y = p
        · cases s.pixels[p] with
          | true => simp [h]; omega
          | false => simp [h]; omega
        · simp [h]
      simp only [toggleAll, hterm, ih, Finset.sum_add_distrib, Finset.sum_ite_eq, Finset.mem_univ,
        if_true]
      rfl

/-- Some pixel darkens if one is hit that was lit, or hit twice. -/
theorem toggleAll_count_pos_iff (s : Screen) (pixels : List (Nat × Nat)) :
    0 < (s.toggleAll pixels).1 ↔ ∃ px < 64, ∃ py < 32,
      2 ≤ hits pixels (place px py) ∨ hits pixels (place px py) = 1 ∧ s.get px py = true := by
  have hdarkens : ∀ p : Fin 2048, 0 < (s.pixels[p].toNat + hits pixels p) / 2 ↔
      2 ≤ hits pixels p ∨ hits pixels p = 1 ∧ s.pixels[p] = true := by
    intro p
    cases s.pixels[p] with
    | true => simp; omega
    | false => simp
  rw [toggleAll_count, Finset.sum_pos_iff]
  constructor
  · rintro ⟨p, -, hpos⟩
    obtain ⟨px, hpx, py, hpy, rfl⟩ := exists_place p
    exact ⟨px, hpx, py, hpy, (hdarkens _).1 hpos⟩
  · rintro ⟨px, -, py, -, hhit⟩
    exact ⟨place px py, Finset.mem_univ _, (hdarkens _).2 hhit⟩

/-- The pixels of a sprite in memory: one for every row and column where a bit is set. -/
theorem spritePixels_slice (x y : Nat) (memory : Memory) (a : UInt16) (height : Nat) :
    spritePixels x y (memory.slice a height) =
      (List.range height ×ˢ List.range 8).filterMap fun (row, column) =>
        if (memory.read (a + row.toUInt16)).toNat.testBit (7 - column) then
          some (x + column, y + row) else none := by
  have hrows : (memory.slice a height).zipIdx =
      (List.range height).map fun row => (memory.read (a + row.toUInt16), row) := by
    rw [Memory.slice_eq_map]
    apply List.ext_getElem <;> simp [stretch]
  unfold spritePixels
  rw [hrows]
  simp only [SProd.sprod, List.product, List.flatMap_map, List.filterMap_flatMap,
    List.filterMap_map, Function.comp_def]

/-- The pixels of a sprite of some height, read from memory, with its corner at `(x, y)`. -/
def spriteFrom (memory : Memory) (a : UInt16) (x y height : UInt8) : List (Nat × Nat) :=
  spritePixels x.toNat y.toNat (memory.slice a height.toNat)

/-- On how many of its bits a sprite covers a pixel of the screen: those that are set, at the index
from memory, and that fall on the pixel when the corner of the sprite is at `(x, y)`. -/
def covers (memory : Memory) (a : UInt16) (x y height : UInt8) (px py : Nat) : Nat :=
  ((Finset.range height.toNat ×ˢ Finset.range 8).filter fun (row, column) =>
    (memory.read (a + row.toUInt16)).toNat.testBit (7 - column) = true ∧
      (x.toNat + column) % 64 = px ∧ (y.toNat + row) % 32 = py).card

theorem hits_spriteFrom (memory : Memory) (a : UInt16) (x y height : UInt8) {px py : Nat}
    (hpx : px < 64) (hpy : py < 32) :
    hits (spriteFrom memory a x y height) (place px py) =
      covers memory a x y height px py := by
  have hcovers : covers memory a x y height px py =
      (List.range height.toNat ×ˢ List.range 8).countP fun (row, column) =>
        (memory.read (a + row.toUInt16)).toNat.testBit (7 - column) = true ∧
          (x.toNat + column) % 64 = px ∧ (y.toNat + row) % 32 = py := by
    rw [covers, Finset.card_def, Finset.filter_val, Finset.product_val]
    simp only [Finset.range_val, Multiset.range, Multiset.coe_product, Multiset.filter_coe,
      Multiset.coe_card]
    rw [List.countP_eq_length_filter]
  rw [hcovers, spriteFrom, spritePixels_slice, hits, List.countP_filterMap]
  apply List.countP_congr
  rintro ⟨row, column⟩ -
  have hplace := place_eq_iff (x.toNat + column) (y.toNat + row) px py
  rw [Nat.mod_eq_of_lt hpx, Nat.mod_eq_of_lt hpy] at hplace
  dsimp only
  cases (memory.read (a + row.toUInt16)).toNat.testBit (7 - column) with
  | true => simp [hplace]
  | false => simp

end Screen

namespace Machine

variable {σ : Type} [Display σ]

theorem execute_draw (m : Machine σ) {x y : UInt8} (height : UInt8) (hx : x.toNat < 16)
    (hy : y.toNat < 16) {drawn : Nat × Screen}
    (hdrawn : m.screen.toggleAll (Screen.spriteFrom m.memory m.registers.index
      (m.registers.get ⟨x.toNat, hx⟩) (m.registers.get ⟨y.toNat, hy⟩) height) = drawn) :
    execute (.draw x y height) m = .ok () {m with
      screen := drawn.2
      registers := {m.registers.setFlag (0 < drawn.1) with pc := m.registers.pc + 2}
      display := Display.refresh m.display drawn.2} := by
  rw [execute_eq m (.draw x y height) (by simp [Instruction.registers, hx, hy])]
  subst hdrawn
  simp only [executed, after, flow, Flow.target, drawSprite, refresh, byteAt_of_lt m hx,
    byteAt_of_lt m hy]
  rfl

/-- To draw is to invert each pixel of the screen as often as the sprite covers it. The flag is one
if a pixel is covered twice, or is covered that was lit, and zero otherwise. The display is shown
the outcome, once, and nothing else happens to the machine. -/
theorem draw_inverts_covered (m : Machine σ) (x y height : UInt8) (hx : x.toNat < 16)
    (hy : y.toNat < 16) :
    let covered := Screen.covers m.memory m.registers.index (m.registers.get ⟨x.toNat, hx⟩)
      (m.registers.get ⟨y.toNat, hy⟩) height
    ∃ (screen : Screen) (flag : UInt8),
      execute (.draw x y height) m = .ok () {m with
        screen := screen
        registers := {m.registers.set Registers.flagRegister flag with pc := m.registers.pc + 2}
        display := Display.refresh m.display screen} ∧
      (∀ px < 64, ∀ py < 32,
        screen.get px py = (m.screen.get px py ^^ decide (covered px py % 2 = 1))) ∧
      (flag = 0 ∨ flag = 1) ∧
      (flag = 1 ↔ ∃ px < 64, ∃ py < 32,
        2 ≤ covered px py ∨ covered px py = 1 ∧ m.screen.get px py = true) := by
  intro covered
  obtain ⟨sprite, hsprite⟩ : ∃ sprite, sprite = Screen.spriteFrom m.memory m.registers.index
      (m.registers.get ⟨x.toNat, hx⟩) (m.registers.get ⟨y.toNat, hy⟩) height := ⟨_, rfl⟩
  obtain ⟨drawn, hdrawn⟩ : ∃ drawn, m.screen.toggleAll sprite = drawn := ⟨_, rfl⟩
  have hcovered : ∀ px < 64, ∀ py < 32,
      Screen.hits sprite (Screen.place px py) = covered px py := by
    intro px hpx py hpy
    rw [hsprite]
    exact Screen.hits_spriteFrom _ _ _ _ height hpx hpy
  have hdarkens := m.screen.toggleAll_count_pos_iff sprite
  have hpixels := m.screen.pixels_toggleAll sprite
  rw [hdrawn] at hdarkens hpixels
  rw [hsprite] at hdrawn
  refine ⟨drawn.2, (decide (0 < drawn.1)).toUInt8, m.execute_draw height hx hy hdrawn, ?_, ?_, ?_⟩
  · intro px hpx py hpy
    rw [← hcovered px hpx py hpy]
    exact hpixels (Screen.place px py)
  · cases decide (0 < drawn.1) with
    | true => exact .inr rfl
    | false => exact .inl rfl
  · have hflag : (decide (0 < drawn.1)).toUInt8 = 1 ↔ 0 < drawn.1 := by
      by_cases hpos : 0 < drawn.1
      · simp only [hpos, decide_true, iff_true]
        rfl
      · simp only [hpos, decide_false, iff_false]
        decide
    rw [hflag, hdarkens]
    constructor
    · rintro ⟨px, hpx, py, hpy, hhit⟩
      rw [hcovered px hpx py hpy] at hhit
      exact ⟨px, hpx, py, hpy, hhit⟩
    · rintro ⟨px, hpx, py, hpy, hhit⟩
      rw [← hcovered px hpx py hpy] at hhit
      exact ⟨px, hpx, py, hpy, hhit⟩

/-- A sprite higher than the screen, at its right edge, with the flag register for its column and
its first row from the last address there is. The second row and the last but one are the same and
fall on each other. -/
theorem draw_inverts_covered_twice :
    let registers := {Registers.initial.set Registers.flagRegister 62 with index := 0xFFFF}
    let m := {Machine.fresh .default (.cycling #[]) ([] : List Screen) with registers := registers}
    ∃ screen, execute (.draw 15 0 34) m = .ok () {m with
        screen := screen
        registers := {registers.set Registers.flagRegister 1 with pc := 0x202}
        display := [screen]} ∧
      screen.get 62 1 = false ∧ screen.get 62 2 = true ∧ screen.get 63 2 = false ∧
      screen.get 1 2 = true := by
  intro registers m
  obtain ⟨screen, flag, hexecute, hpixels, -, hflag⟩ :=
    draw_inverts_covered m 15 0 34 (by decide) (by decide)
  have htwice : Screen.covers m.memory m.registers.index 62 0 34 62 1 = 2 := by decide +kernel
  have hone : flag = 1 := hflag.2 ⟨62, by decide, 1, by decide, .inl htwice.ge⟩
  subst hone
  refine ⟨screen, hexecute, ?_, ?_, ?_, ?_⟩
  · rw [hpixels 62 (by decide) 1 (by decide)]
    decide +kernel
  · rw [hpixels 62 (by decide) 2 (by decide)]
    decide +kernel
  · rw [hpixels 63 (by decide) 2 (by decide)]
    decide +kernel
  · rw [hpixels 1 (by decide) 2 (by decide)]
    decide +kernel

end Machine

end Chip8
