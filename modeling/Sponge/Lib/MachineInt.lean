import Mathlib.Tactic

/-!
# Fixed-width unsigned arithmetic on natural numbers

A 64-bit or 32-bit unsigned quantity is a natural number that is reduced after every
operation that can leave its range.  `u64` and `u32` reduce, `sub64` is the wrapping
difference, and `int32` and `int64` are the values a 64-bit quantity takes after it has been stored
in a signed variable of 32 and of 64 bits.  The lemmas give each operation its plain arithmetic
meaning inside the range, so that later proofs never unfold a modulus.
-/

namespace MachineInt

/-- Reduction to 64 bits. -/
def u64 (n : ℕ) : ℕ := n % 2 ^ 64

/-- Reduction to 32 bits. -/
def u32 (n : ℕ) : ℕ := n % 2 ^ 32

/-- The 64-bit difference `a - b`. -/
def sub64 (a b : ℕ) : ℕ := (a + (2 ^ 64 - b % 2 ^ 64)) % 2 ^ 64

/-- A 64-bit value narrowed to a signed 32-bit one. -/
def int32 (n : ℕ) : ℤ :=
  if n % 2 ^ 32 < 2 ^ 31 then (n % 2 ^ 32 : ℕ) else (n % 2 ^ 32 : ℕ) - 2 ^ 32

/-- A 64-bit value read as a signed one. -/
def int64 (n : ℕ) : ℤ :=
  if n % 2 ^ 64 < 2 ^ 63 then (n % 2 ^ 64 : ℕ) else (n % 2 ^ 64 : ℕ) - 2 ^ 64

/-- How often `for (int i = 0; i < n; i++)` runs when `n` is a narrowed 64-bit value. -/
def intCount (n : ℕ) : ℕ := (int32 n).toNat

theorem u64_lt (n : ℕ) : u64 n < 2 ^ 64 := Nat.mod_lt _ (by decide)

theorem u64_of_lt {n : ℕ} (h : n < 2 ^ 64) : u64 n = n := Nat.mod_eq_of_lt h

theorem u64_le (n : ℕ) : u64 n ≤ n := Nat.mod_le _ _

theorem u64_add (a b : ℕ) : u64 (u64 a + b) = u64 (a + b) := Nat.mod_add_mod _ _ _

theorem sub64_lt (a b : ℕ) : sub64 a b < 2 ^ 64 := Nat.mod_lt _ (by decide)

theorem sub64_of_le {a b : ℕ} (ha : a < 2 ^ 64) (h : b ≤ a) : sub64 a b = a - b := by
  unfold sub64
  omega

/-- Narrowing leaves everything below `2 ^ 31` alone. -/
theorem int32_of_lt {n : ℕ} (h : n < 2 ^ 31) : int32 n = n := by
  have hmod : n % 2 ^ 32 = n := Nat.mod_eq_of_lt (by omega)
  rw [int32, hmod, if_pos h]

theorem int64_of_lt {n : ℕ} (h : n < 2 ^ 63) : int64 n = n := by
  have hmod : n % 2 ^ 64 = n := Nat.mod_eq_of_lt (by omega)
  rw [int64, hmod, if_pos h]

theorem intCount_of_lt {n : ℕ} (h : n < 2 ^ 31) : intCount n = n := by
  rw [intCount, int32_of_lt h, Int.toNat_natCast]

/-- Narrowing never makes a count larger. -/
theorem intCount_le (n : ℕ) : intCount n ≤ n := by
  have hmod : n % 2 ^ 32 ≤ n := Nat.mod_le _ _
  unfold intCount int32
  split
  · omega
  · have hlt : n % 2 ^ 32 < 2 ^ 32 := Nat.mod_lt _ (by decide)
    omega

/-- A statement about small bytes is a finite check. -/
theorem uint8_of_forall_lt {b : ℕ} {P : UInt8 → Prop} (h : ∀ k < b, P (UInt8.ofNat k)) {x : UInt8}
    (hx : x.toNat < b) : P x := by
  have hk := h x.toNat hx
  rwa [UInt8.ofNat_toNat] at hk

theorem and_two_pow_of_lt {x i : ℕ} (h : x < 2 ^ i) : x &&& 2 ^ i = 0 := by
  apply Nat.eq_of_testBit_eq
  intro j
  rw [Nat.testBit_and, Nat.testBit_two_pow, Nat.zero_testBit]
  by_cases hj : i = j
  · subst hj
    simp [Nat.testBit_lt_two_pow h]
  · simp [hj]

end MachineInt
