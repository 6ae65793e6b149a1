import Chip8.Proofs.Drawing
import Mathlib.Algebra.BigOperators.Fin

/-!
Many toggles as a whole. Each of them lights a pixel or darkens one, so what is lit afterwards
follows from their number and from how many darkened one. Neither that count nor the screen
depends on their order.
-/

namespace Chip8.Screen

theorem eq_of_get {s t : Screen} (h : ∀ x y, s.get x y = t.get x y) : s = t := by
  cases s with
  | mk pixels =>
      cases t with
      | mk pixels' =>
          congr 1
          apply Vector.ext
          intro p hp
          obtain ⟨x, -, y, -, hplace⟩ := exists_place ⟨p, hp⟩
          have hpixel := h x y
          simp only [get, hplace] at hpixel
          exact hpixel

/-- Of some pixels, how many agree with `(x, y)` modulo the size of the screen. -/
def landings (pixels : List (Nat × Nat)) (x y : Nat) : Nat :=
  pixels.countP fun (a, b) => a % 64 = x % 64 ∧ b % 32 = y % 32

theorem hits_place (pixels : List (Nat × Nat)) (x y : Nat) :
    hits pixels (place x y) = landings pixels x y := by
  simp only [hits, landings, place_eq_iff]

theorem place_bijective :
    Function.Bijective fun pixel : Fin 64 × Fin 32 => place pixel.1 pixel.2 := by
  constructor
  · rintro ⟨x, y⟩ ⟨x', y'⟩ hplace
    have hsame := (place_eq_iff x y x' y').1 hplace
    simp only [Prod.mk.injEq, Fin.ext_iff]
    omega
  · intro p
    obtain ⟨x, hx, y, hy, hplace⟩ := exists_place p
    exact ⟨(⟨x, hx⟩, ⟨y, hy⟩), hplace⟩

/-- The places of the screen, column by column. -/
theorem sum_places (f : Fin 2048 → Nat) :
    ∑ p, f p = ∑ x : Fin 64, ∑ y : Fin 32, f (place x y) := by
  rw [← Fintype.sum_prod_type']
  exact (place_bijective.sum_comp f).symm

/-- Every toggle lands on one pixel. -/
theorem sum_landings (pixels : List (Nat × Nat)) :
    ∑ x : Fin 64, ∑ y : Fin 32, landings pixels x y = pixels.length := by
  simp only [← hits_place, ← sum_places]
  induction pixels with
  | nil => simp [hits]
  | cons pixel rest ih =>
      obtain ⟨x, y⟩ := pixel
      simp only [hits_cons, Finset.sum_add_distrib, ih, Finset.sum_ite_eq, Finset.mem_univ, if_true,
        List.length_cons]

theorem count_true_toList {n : Nat} (bits : Vector Bool n) :
    bits.toList.count true = ∑ p : Fin n, (bits.get p).toNat := by
  have hcount : ∀ bits : List Bool, bits.count true = (bits.map Bool.toNat).sum := by
    intro bits
    induction bits with
    | nil => rfl
    | cons bit rest ih => cases bit <;> simp [ih, Nat.add_comm]
  have hplaces : bits.toList = List.ofFn bits.get := by
    apply List.ext_getElem
    · simp
    · intro k hk hk'
      rw [List.getElem_ofFn, Vector.getElem_toList]
      rfl
  rw [hcount, hplaces, List.map_ofFn, List.sum_ofFn]
  rfl

/-- The lit pixels, counted one by one. -/
theorem lit_eq_sum (s : Screen) : s.lit = ∑ x : Fin 64, ∑ y : Fin 32, (s.get x y).toNat := by
  rw [lit, count_true_toList, sum_places]
  rfl

theorem get_toggleAll (s : Screen) (pixels : List (Nat × Nat)) (x y : Nat) :
    (s.toggleAll pixels).2.get x y = (s.get x y ^^ decide (landings pixels x y % 2 = 1)) := by
  rw [← hits_place]
  exact s.pixels_toggleAll pixels (place x y)

/-- A pixel is lit after toggles if those that land on it, and the light it may have had, are odd in
number. -/
theorem toNat_get_toggleAll (s : Screen) (pixels : List (Nat × Nat)) (x y : Nat) :
    ((s.toggleAll pixels).2.get x y).toNat =
      ((s.get x y).toNat + landings pixels x y) % 2 := by
  rw [get_toggleAll]
  obtain heven | hodd := Nat.mod_two_eq_zero_or_one (landings pixels x y)
  · cases s.get x y <;> simp [heven, Nat.add_mod]
  · cases s.get x y <;> simp [hodd, Nat.add_mod]

/-- A pixel darkens once for every two toggles that land on it or that its light stands for. -/
theorem toggleAll_darkened (s : Screen) (pixels : List (Nat × Nat)) :
    (s.toggleAll pixels).1 =
      ∑ x : Fin 64, ∑ y : Fin 32, ((s.get x y).toNat + landings pixels x y) / 2 := by
  simp only [toggleAll_count, sum_places, hits_place]
  rfl

/-- Every toggle adds a lit pixel, but for those that take one away. -/
theorem lit_toggleAll (s : Screen) (pixels : List (Nat × Nat)) :
    (s.toggleAll pixels).2.lit + 2 * (s.toggleAll pixels).1 = s.lit + pixels.length := by
  simp only [lit_eq_sum, toNat_get_toggleAll, toggleAll_darkened, ← sum_landings pixels,
    Finset.mul_sum, ← Finset.sum_add_distrib, Nat.mod_add_div]

theorem toggleAll_perm (s : Screen) {pixels others : List (Nat × Nat)}
    (h : pixels.Perm others) : s.toggleAll pixels = s.toggleAll others := by
  have hlandings : ∀ x y, landings pixels x y = landings others x y := fun x y => h.countP_eq _
  apply Prod.ext
  · simp only [toggleAll_darkened, hlandings]
  · apply eq_of_get
    intro x y
    rw [get_toggleAll, get_toggleAll, hlandings]

/-- What many toggles do. A pixel is lit afterwards if the toggles that land on it, and the light it
may have had, are odd in number, and it was darkened once for every two of them. Every toggle adds
a lit pixel, but for those that darkened one and took it away. All this is the same in any order. -/
theorem toggles_add_up (s : Screen) (pixels : List (Nat × Nat)) :
    let darkened := (s.toggleAll pixels).1
    let after := (s.toggleAll pixels).2
    (∀ x y, after.get x y = true ↔ ((s.get x y).toNat + landings pixels x y) % 2 = 1) ∧
      darkened = ∑ x : Fin 64, ∑ y : Fin 32, ((s.get x y).toNat + landings pixels x y) / 2 ∧
      after.lit + 2 * darkened = s.lit + pixels.length ∧
      ∀ others, pixels.Perm others → s.toggleAll others = (darkened, after) := by
  intro darkened after
  refine ⟨?_, s.toggleAll_darkened pixels, s.lit_toggleAll pixels, ?_⟩
  · intro x y
    rw [← toNat_get_toggleAll, Bool.toNat_eq_one]
  · intro others hperm
    exact (s.toggleAll_perm hperm).symm

/-- Three of four toggles land on the same corner, each a different time round the screen. The first
lights it, the second darkens it and the third lights it again, wherever the fourth comes in. -/
theorem toggles_add_up_round :
    let pixels := [(0, 0), (64, 32), (3, 1), (128, 0)]
    (blank.toggleAll pixels).2.get 64 64 = true ∧ (blank.toggleAll pixels).1 = 1 ∧
      (blank.toggleAll pixels).2.lit = 2 ∧
      blank.toggleAll [(3, 1), (0, 0), (128, 0), (64, 32)] = blank.toggleAll pixels := by
  intro pixels
  obtain ⟨hlit, -, hcount, hperm⟩ := toggles_add_up blank pixels
  have hone : (blank.toggleAll pixels).1 = 1 := by decide +kernel
  have hdark : blank.lit = 0 := by decide +kernel
  refine ⟨(hlit 64 64).2 (by rw [get_blank]; decide), hone, ?_, hperm _ (by decide)⟩
  rw [hone, hdark] at hcount
  exact Nat.add_right_cancel hcount

end Chip8.Screen
