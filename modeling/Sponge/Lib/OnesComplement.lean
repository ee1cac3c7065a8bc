import Mathlib.Tactic

/-!
# One's complement sums

In base `B` the one's complement sum of two digits is their sum with the carry added back in at
the bottom.  It is addition modulo `B - 1` with two representations of zero, `0` and `B - 1`; the
first arises only when every summand is zero.  `Reduces s x` says this of a digit `x` and a
number `s`, and it determines `x`.  So two ways of summing agree as soon as both reduce the same
number, in whatever order they fold their carries.
-/

namespace OnesComplement

/-- The sum of two digits with the carry added back in. -/
def addCarry (B x y : ℕ) : ℕ := (x + y) % B + (x + y) / B

/-- The one's complement sum of a list of digits. -/
def sum (B : ℕ) (xs : List ℕ) : ℕ := xs.foldl (addCarry B) 0

/-- The digit `x` stands for the number `s`. -/
structure Reduces (B s x : ℕ) : Prop where
  lt : x < B
  modEq : x ≡ s [MOD B - 1]
  eq_zero_iff : x = 0 ↔ s = 0

variable {B s t x y : ℕ}

/-- **A number stands for one digit only**: the two zeros are told apart. -/
theorem Reduces.unique (h : Reduces B s x) (h' : Reduces B s y) : x = y := by
  have hmod : x ≡ y [MOD B - 1] := h.modEq.trans h'.modEq.symm
  have hzero : x = 0 ↔ y = 0 := h.eq_zero_iff.trans h'.eq_zero_iff.symm
  have hx := h.lt
  have hy := h'.lt
  -- a digit is its own residue unless it is the second zero
  by_cases hlast : x = B - 1 ∨ y = B - 1
  · have hdvd : (B - 1 ∣ x) ∧ (B - 1 ∣ y) := by
      rcases hlast with hlast | hlast
      · rw [hlast] at hmod
        exact ⟨hlast ▸ dvd_rfl, (hmod.dvd_iff dvd_rfl).mp dvd_rfl⟩
      · rw [hlast] at hmod
        exact ⟨(hmod.dvd_iff dvd_rfl).mpr dvd_rfl, hlast ▸ dvd_rfl⟩
    by_cases hx0 : x = 0
    · rw [hx0, hzero.mp hx0]
    · have hxle := Nat.le_of_dvd (Nat.pos_of_ne_zero hx0) hdvd.1
      have hyle := Nat.le_of_dvd (Nat.pos_of_ne_zero (mt hzero.mpr hx0)) hdvd.2
      omega
  · exact Nat.ModEq.eq_of_lt_of_lt hmod (by omega) (by omega)

theorem Reduces.congr (h : Reduces B s x) (hmod : s ≡ t [MOD B - 1]) (hzero : s = 0 ↔ t = 0) :
    Reduces B t x :=
  ⟨h.lt, h.modEq.trans hmod, h.eq_zero_iff.trans hzero⟩

theorem reduces_self (h : x < B) : Reduces B x x := ⟨h, Nat.ModEq.rfl, Iff.rfl⟩

/-- Moving the carry from the top to the bottom keeps the number. -/
theorem carry_modEq (hB : 0 < B) (n : ℕ) : n % B + n / B ≡ n [MOD B - 1] := by
  have hsplit : n = n % B + n / B + n / B * (B - 1) := by
    calc n = n % B + B * (n / B) := (Nat.mod_add_div n B).symm
      _ = n % B + (B - 1 + 1) * (n / B) := by rw [Nat.sub_add_cancel hB]
      _ = n % B + n / B + n / B * (B - 1) := by ring
  conv_rhs => rw [hsplit]
  exact (Nat.add_mul_modulus_modEq_iff.mpr Nat.ModEq.rfl).symm

theorem carry_eq_zero_iff (n : ℕ) : n % B + n / B = 0 ↔ n = 0 := by
  constructor
  · intro h
    have hsplit := Nat.mod_add_div n B
    obtain ⟨hmod, hdiv⟩ := Nat.add_eq_zero_iff.mp h
    rw [← hsplit, hmod, hdiv, Nat.mul_zero]
  · rintro rfl
    simp

/-- **Adding digits adds numbers.** -/
theorem Reduces.addCarry (h : Reduces B s x) (h' : Reduces B t y) :
    Reduces B (s + t) (addCarry B x y) where
  lt := by
    have hx := h.lt
    have hy := h'.lt
    rw [OnesComplement.addCarry]
    by_cases hcarry : x + y < B
    · rw [Nat.mod_eq_of_lt hcarry, Nat.div_eq_of_lt hcarry]
      exact hcarry
    · have hone : (x + y) / B = 1 := Nat.div_eq_of_lt_le (by omega) (by omega)
      have hsplit := Nat.mod_add_div (x + y) B
      rw [hone] at hsplit ⊢
      omega
  modEq := (carry_modEq (by have := h.lt; omega) (x + y)).trans (h.modEq.add h'.modEq)
  eq_zero_iff := by
    rw [OnesComplement.addCarry, carry_eq_zero_iff, Nat.add_eq_zero_iff, Nat.add_eq_zero_iff,
      h.eq_zero_iff, h'.eq_zero_iff]

/-- **The one's complement sum of digits stands for their sum.** -/
theorem reduces_sum {xs : List ℕ} (hB : 0 < B) (h : ∀ x ∈ xs, x < B) :
    Reduces B xs.sum (sum B xs) := by
  induction xs using List.reverseRecOn with
  | nil => exact reduces_self hB
  | append_singleton xs x ih =>
    have hx : x < B := h x (by simp)
    have hxs := ih fun x' hx' => h x' (List.mem_append_left _ hx')
    rw [List.sum_append, List.sum_singleton, sum, List.foldl_append]
    exact hxs.addCarry (reduces_self hx)

end OnesComplement
