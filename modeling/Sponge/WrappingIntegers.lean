import Sponge.Lib.MachineInt

/-!
# Wrapping sequence numbers

`wrap` sends an absolute 64-bit sequence number to the 32-bit number on the wire, `unwrap`
finds an absolute number again from a checkpoint.  The two facts that the sender and the
receiver rest on are `unwrap_wrap` (a number less than `2 ^ 31` away from the checkpoint is
recovered) and `wrap_unwrap` (whatever `unwrap` returns wraps to its argument).  Both follow from
`unwrap_cases`, which says what `unwrap` can return without the reductions to 64 bits.
-/

namespace Sponge

open MachineInt

structure WrappingInt32 where
  rawValue : UInt32
deriving DecidableEq, Repr

namespace WrappingInt32

/-- `operator+(WrappingInt32, uint32_t)`; a wider argument is truncated to 32 bits. -/
def add (a : WrappingInt32) (b : ℕ) : WrappingInt32 := ⟨a.rawValue + UInt32.ofNat b⟩

/-- `operator-(WrappingInt32, uint32_t)`, which is `a + -b`. -/
def sub (a : WrappingInt32) (b : ℕ) : WrappingInt32 := ⟨a.rawValue + -UInt32.ofNat b⟩

@[simp] theorem add_zero (a : WrappingInt32) : a.add 0 = a := by
  cases a
  simp [add]

end WrappingInt32

def wrap (n : ℕ) (isn : WrappingInt32) : WrappingInt32 := isn.add (n % 2 ^ 32)

def unwrap (n isn : WrappingInt32) (checkpoint : ℕ) : ℕ :=
  let n64 := n.rawValue.toNat
  let isn64 := isn.rawValue.toNat
  let absSeqno := if n64 < isn64 then n64 + 2 ^ 32 - isn64 else n64 - isn64
  if absSeqno ≥ checkpoint then absSeqno
  else
    let leftDist := sub64 checkpoint absSeqno % 2 ^ 32
    let rightDist := sub64 absSeqno checkpoint % 2 ^ 32
    if leftDist > rightDist then u64 (checkpoint + rightDist) else sub64 checkpoint leftDist

/-- The number of steps from `isn` to `n`, modulo `2 ^ 32`. -/
def offset (n isn : WrappingInt32) : ℕ :=
  (n.rawValue.toNat + 2 ^ 32 - isn.rawValue.toNat) % 2 ^ 32

theorem rawValue_lt (a : WrappingInt32) : a.rawValue.toNat < 2 ^ 32 := UInt32.toNat_lt _

theorem rawValue_wrap (n : ℕ) (isn : WrappingInt32) :
    (wrap n isn).rawValue.toNat = (isn.rawValue.toNat + n) % 2 ^ 32 := by
  unfold wrap WrappingInt32.add
  rw [UInt32.toNat_add, UInt32.toNat_ofNat']
  omega

theorem offset_lt (n isn : WrappingInt32) : offset n isn < 2 ^ 32 := Nat.mod_lt _ (by decide)

theorem offset_wrap (n : ℕ) (isn : WrappingInt32) : offset (wrap n isn) isn = n % 2 ^ 32 := by
  have h := rawValue_lt isn
  rw [offset, rawValue_wrap]
  omega

/-- The distance between two absolute numbers, on the wire. -/
theorem offset_wrap_wrap {a b : ℕ} (h : b ≤ a) (isn : WrappingInt32) :
    offset (wrap a isn) (wrap b isn) = (a - b) % 2 ^ 32 := by
  have hisn := rawValue_lt isn
  rw [offset, rawValue_wrap, rawValue_wrap]
  omega

/-- Two sequence numbers are equal when they are equally far from `isn`. -/
theorem eq_of_offset_eq {a b : WrappingInt32} (isn : WrappingInt32)
    (h : offset a isn = offset b isn) : a = b := by
  have ha := rawValue_lt a
  have hb := rawValue_lt b
  have hi := rawValue_lt isn
  unfold offset at h
  cases a; cases b
  congr 1
  apply UInt32.toNat_inj.mp
  simp only at *
  omega

theorem wrap_eq_iff {a b : ℕ} {isn : WrappingInt32} :
    wrap a isn = wrap b isn ↔ a % 2 ^ 32 = b % 2 ^ 32 := by
  constructor
  · intro h
    rw [← offset_wrap a isn, h, offset_wrap]
  · intro h
    apply eq_of_offset_eq isn
    rw [offset_wrap, offset_wrap, h]

theorem wrap_u64 (n : ℕ) (isn : WrappingInt32) : wrap (u64 n) isn = wrap n isn := by
  rw [wrap_eq_iff, u64]
  omega

/-- The number before the end of a range that starts at a wrapped number. -/
theorem wrap_add_sub_one {p n : ℕ} (isn : WrappingInt32) (h : 1 ≤ p + n) :
    ((wrap p isn).add n).sub 1 = wrap (p + n - 1) isn := by
  apply eq_of_offset_eq isn
  have hisn := rawValue_lt isn
  have hraw : (((wrap p isn).add n).sub 1).rawValue.toNat =
      (isn.rawValue.toNat + (p + n - 1)) % 2 ^ 32 := by
    unfold WrappingInt32.sub WrappingInt32.add
    rw [UInt32.toNat_add, UInt32.toNat_add, UInt32.toNat_neg, UInt32.toNat_ofNat',
      UInt32.toNat_ofNat', rawValue_wrap, show UInt32.size = 2 ^ 32 from rfl]
    omega
  rw [offset_wrap, offset, hraw]
  omega

/-- `unwrap` in terms of the distance from `isn`. -/
theorem unwrap_eq (n isn : WrappingInt32) (checkpoint : ℕ) :
    unwrap n isn checkpoint =
      if offset n isn ≥ checkpoint then offset n isn
      else if sub64 checkpoint (offset n isn) % 2 ^ 32 > sub64 (offset n isn) checkpoint % 2 ^ 32
        then u64 (checkpoint + sub64 (offset n isn) checkpoint % 2 ^ 32)
        else sub64 checkpoint (sub64 checkpoint (offset n isn) % 2 ^ 32) := by
  have hoff : (if n.rawValue.toNat < isn.rawValue.toNat
      then n.rawValue.toNat + 2 ^ 32 - isn.rawValue.toNat
      else n.rawValue.toNat - isn.rawValue.toNat) = offset n isn := by
    have hn := rawValue_lt n
    unfold offset
    split <;> omega
  unfold unwrap
  simp only [hoff]

/-- **What `unwrap` returns**: the first preimage if the checkpoint is not beyond it, and otherwise
the nearer one of the preimages around the checkpoint. -/
theorem unwrap_cases (n isn : WrappingInt32) {c : ℕ} (hc : c < 2 ^ 64) :
    c ≤ offset n isn ∧ unwrap n isn c = offset n isn ∨
      offset n isn < c ∧ unwrap n isn c ≤ c ∧ c ≤ unwrap n isn c + 2 ^ 31 ∧
        unwrap n isn c % 2 ^ 32 = offset n isn ∨
      offset n isn < c ∧ ∃ dist, 0 < dist ∧ dist < 2 ^ 31 ∧ (c + dist) % 2 ^ 32 = offset n isn ∧
        unwrap n isn c = u64 (c + dist) := by
  have hlt := offset_lt n isn
  rw [unwrap_eq]
  generalize offset n isn = a at hlt ⊢
  by_cases hge : a ≥ c
  · exact Or.inl ⟨hge, if_pos hge⟩
  have hac : a < c := not_le.mp hge
  have hleft : sub64 c a % 2 ^ 32 = (c - a) % 2 ^ 32 := by rw [sub64_of_le hc hac.le]
  have hright : sub64 a c % 2 ^ 32 = (2 ^ 32 - (c - a) % 2 ^ 32) % 2 ^ 32 := by
    rw [sub64]
    omega
  rw [if_neg hge, hleft, hright]
  have hmod : (c - a) % 2 ^ 32 < 2 ^ 32 := Nat.mod_lt _ (by decide)
  have hle : (c - a) % 2 ^ 32 ≤ c - a := Nat.mod_le _ _
  by_cases hgt : (c - a) % 2 ^ 32 > (2 ^ 32 - (c - a) % 2 ^ 32) % 2 ^ 32
  · rw [if_pos hgt]
    right; right
    exact ⟨hac, _, by omega, by omega, by omega, rfl⟩
  · rw [if_neg hgt, sub64_of_le hc (by omega)]
    right; left
    exact ⟨hac, Nat.sub_le _ _, by omega, by omega⟩

/-- **A sequence number near the checkpoint is recovered.** -/
theorem unwrap_wrap {v c : ℕ} (isn : WrappingInt32) (hv : v < 2 ^ 64) (hc : c < 2 ^ 64)
    (hlo : c < v + 2 ^ 31) (hhi : v < c + 2 ^ 31) : unwrap (wrap v isn) isn c = v := by
  have hcases := unwrap_cases (wrap v isn) isn hc
  rw [offset_wrap] at hcases
  rcases hcases with ⟨_, heq⟩ | ⟨_, _, _, _⟩ | ⟨_, dist, _, _, _, heq⟩
  · omega
  · omega
  · have hv' : v = c + dist := by omega
    rw [heq, ← hv', u64_of_lt hv]

/-- **`unwrap` returns a preimage of `wrap`.** -/
theorem wrap_unwrap (n isn : WrappingInt32) {c : ℕ} (hc : c < 2 ^ 64) :
    wrap (unwrap n isn c) isn = n := by
  apply eq_of_offset_eq isn
  have hlt := offset_lt n isn
  rw [offset_wrap]
  rcases unwrap_cases n isn hc with ⟨_, heq⟩ | ⟨_, _, _, hmod⟩ | ⟨_, dist, _, _, hmod, heq⟩
  · rw [heq, Nat.mod_eq_of_lt hlt]
  · exact hmod
  · rw [heq, ← hmod, u64]
    omega

theorem unwrap_lt (n isn : WrappingInt32) (c : ℕ) : unwrap n isn c < 2 ^ 64 := by
  have hlt := offset_lt n isn
  rw [unwrap_eq]
  split
  · omega
  · split
    · exact u64_lt _
    · exact sub64_lt _ _

/-! ### The closest number -/

/-- `unwrap` computed with integers, so that nothing is reduced but the two distances. -/
def unwrapExact (n isn : WrappingInt32) (checkpoint : ℕ) : ℤ :=
  let n64 : ℤ := n.rawValue.toNat
  let isn64 : ℤ := isn.rawValue.toNat
  let absSeqno := if n64 < isn64 then n64 + 2 ^ 32 - isn64 else n64 - isn64
  if absSeqno ≥ checkpoint then absSeqno
  else
    let leftDist := (checkpoint - absSeqno) % 2 ^ 32
    let rightDist := (absSeqno - checkpoint) % 2 ^ 32
    if leftDist > rightDist then checkpoint + rightDist else checkpoint - leftDist

theorem unwrapExact_eq (n isn : WrappingInt32) (checkpoint : ℕ) :
    unwrapExact n isn checkpoint =
      if (offset n isn : ℤ) ≥ checkpoint then (offset n isn : ℤ)
      else if ((checkpoint : ℤ) - offset n isn) % 2 ^ 32 > (offset n isn - checkpoint) % 2 ^ 32
        then checkpoint + ((offset n isn : ℤ) - checkpoint) % 2 ^ 32
        else checkpoint - ((checkpoint : ℤ) - offset n isn) % 2 ^ 32 := by
  have hoff : (if (n.rawValue.toNat : ℤ) < isn.rawValue.toNat
      then (n.rawValue.toNat : ℤ) + 2 ^ 32 - isn.rawValue.toNat
      else (n.rawValue.toNat : ℤ) - isn.rawValue.toNat) = offset n isn := by
    have hn := rawValue_lt n
    have hisn := rawValue_lt isn
    rw [offset]
    split <;> omega
  simp only [unwrapExact, hoff]

/-- Below the last `2 ^ 31` checkpoints neither the sum nor the difference that `unwrap` returns
leaves the 64-bit range. -/
theorem unwrap_eq_exact (n isn : WrappingInt32) {c : ℕ} (hc : c < 2 ^ 64 - 2 ^ 31) :
    (unwrap n isn c : ℤ) = unwrapExact n isn c := by
  have hlt := offset_lt n isn
  rw [unwrap_eq, unwrapExact_eq]
  generalize offset n isn = a at hlt ⊢
  -- the two distances do not see the reduction to 64 bits
  have hleft : ((sub64 c a % 2 ^ 32 : ℕ) : ℤ) = ((c : ℤ) - a) % 2 ^ 32 := by
    rw [sub64]
    omega
  have hright : ((sub64 a c % 2 ^ 32 : ℕ) : ℤ) = ((a : ℤ) - c) % 2 ^ 32 := by
    rw [sub64]
    omega
  rw [← hleft, ← hright]
  by_cases hge : a ≥ c
  · rw [if_pos hge, if_pos (Int.ofNat_le.mpr hge)]
  · rw [if_neg hge, if_neg (mt Int.ofNat_le.mp hge)]
    have hsum : sub64 c a % 2 ^ 32 + sub64 a c % 2 ^ 32 ≤ 2 ^ 32 := by
      unfold sub64
      omega
    have hle : sub64 c a % 2 ^ 32 ≤ c := by
      rw [sub64_of_le (by omega) (by omega)]
      exact (Nat.mod_le _ _).trans (Nat.sub_le _ _)
    by_cases hgt : sub64 c a % 2 ^ 32 > sub64 a c % 2 ^ 32
    · rw [if_pos hgt, if_pos (Int.ofNat_lt.mpr hgt), u64_of_lt (by omega), Nat.cast_add]
    · rw [if_neg hgt, if_neg (mt Int.ofNat_lt.mp hgt), sub64_of_le (by omega) hle,
        Nat.cast_sub hle]

/-- What `unwrap` returns is at most `2 ^ 31` away from the checkpoint, or it is the first
preimage and the checkpoint lies before it. -/
theorem unwrap_near (n isn : WrappingInt32) {c : ℕ} (hc : c < 2 ^ 64 - 2 ^ 31) :
    c ≤ unwrap n isn c ∧ unwrap n isn c < 2 ^ 32 ∨
      c ≤ unwrap n isn c + 2 ^ 31 ∧ unwrap n isn c ≤ c + 2 ^ 31 := by
  have hlt := offset_lt n isn
  rcases unwrap_cases n isn (by omega : c < 2 ^ 64) with
    ⟨hle, heq⟩ | ⟨_, hbelow, hnear, _⟩ | ⟨_, dist, _, hdist, _, heq⟩
  · rw [heq]
    exact Or.inl ⟨hle, hlt⟩
  · right
    omega
  · right
    rw [heq, u64_of_lt (by omega)]
    omega

/-- **`unwrap` returns the closest preimage of `wrap`.**  Two preimages are a multiple of
`2 ^ 32` apart, so a second one is at least `2 ^ 31` away from the checkpoint. -/
theorem unwrap_closest (n isn : WrappingInt32) {c : ℕ} (hc : c < 2 ^ 64 - 2 ^ 31) :
    wrap (unwrap n isn c) isn = n ∧
      (∀ v : ℕ, v < 2 ^ 64 → wrap v isn = n →
        |(unwrap n isn c : ℤ) - c| ≤ |(v : ℤ) - c|) ∧
      (unwrap n isn c : ℤ) = unwrapExact n isn c ∧
      ∀ v : ℕ, v < 2 ^ 64 → |(v : ℤ) - c| < 2 ^ 31 → unwrap (wrap v isn) isn c = v := by
  have hpre : wrap (unwrap n isn c) isn = n := wrap_unwrap n isn (by omega)
  refine ⟨hpre, fun v _ hv => ?_, unwrap_eq_exact n isn hc, fun v hv hnear => ?_⟩
  · have hcongr : unwrap n isn c % 2 ^ 32 = v % 2 ^ 32 := wrap_eq_iff.mp (hpre.trans hv.symm)
    rcases unwrap_near n isn hc with hfirst | hhalf
    · rw [abs_of_nonneg (by omega), abs_of_nonneg (by omega)]
      omega
    · by_cases hsame : v = unwrap n isn c
      · rw [hsame]
      · rw [abs_le]
        have hfar : (2 : ℤ) ^ 31 ≤ |(v : ℤ) - c| := by
          rw [le_abs]
          omega
        omega
  · rw [abs_lt] at hnear
    exact unwrap_wrap isn hv (by omega) (by omega) (by omega)

/-- On both sides of `2 ^ 32`: the closest number is behind it from a checkpoint before it, and
before it from a checkpoint behind it. -/
theorem unwrap_closest_across :
    unwrap ⟨6⟩ ⟨5⟩ 0xffffffff = 0x100000001 ∧ unwrap ⟨4⟩ ⟨5⟩ 0x100000001 = 0xffffffff := by
  have hbehind : wrap 0x100000001 ⟨5⟩ = ⟨6⟩ := by decide
  have hbefore : wrap 0xffffffff ⟨5⟩ = ⟨4⟩ := by decide
  have hc : (0xffffffff : ℕ) < 2 ^ 64 - 2 ^ 31 := by decide
  have hc' : (0x100000001 : ℕ) < 2 ^ 64 - 2 ^ 31 := by decide
  obtain ⟨-, -, -, hnear⟩ := unwrap_closest ⟨6⟩ ⟨5⟩ hc
  obtain ⟨-, -, -, hnear'⟩ := unwrap_closest ⟨4⟩ ⟨5⟩ hc'
  constructor
  · rw [← hbehind]
    exact hnear 0x100000001 (by decide) (by decide)
  · rw [← hbefore]
    exact hnear' 0xffffffff (by decide) (by decide)

/-- From a checkpoint in the first half of the number space, `unwrap` is the distance from
`isn`. -/
theorem unwrap_of_le (n isn : WrappingInt32) {c : ℕ} (hc : c ≤ 2 ^ 31) :
    unwrap n isn c = offset n isn := by
  have hlt := offset_lt n isn
  rcases unwrap_cases n isn (by omega : c < 2 ^ 64) with
    ⟨_, heq⟩ | ⟨_, _, _, hmod⟩ | ⟨_, dist, _, _, hmod, _⟩
  · exact heq
  · rw [← hmod, Nat.mod_eq_of_lt (by omega)]
  · rw [Nat.mod_eq_of_lt (by omega)] at hmod
    omega

/-- A checkpoint beyond the first half is told apart from any smaller one. -/
theorem exists_unwrap_ne_of_lt {c c' : ℕ} (isn : WrappingInt32) (hlt : c < c') (hc' : c' < 2 ^ 64)
    (hfar : 2 ^ 31 < c') : ∃ n, unwrap n isn c ≠ unwrap n isn c' := by
  by_contra hall
  have hsame : ∀ v, unwrap (wrap v isn) isn c = unwrap (wrap v isn) isn c' := by
    intro v
    by_contra hne
    exact hall ⟨_, hne⟩
  -- `c` itself is recovered from `c'`: the two are close, or wrap around
  have hself := hsame c
  rw [unwrap_wrap isn (by omega) (by omega) (by omega) (by omega)] at hself
  have hclose : c' ≤ c + 2 ^ 31 ∨ c + 2 ^ 64 < c' + 2 ^ 31 := by
    have hle : offset (wrap c isn) isn ≤ c := (offset_wrap c isn).trans_le (Nat.mod_le _ _)
    rcases unwrap_cases (wrap c isn) isn hc' with
      ⟨hge, _⟩ | ⟨_, _, hnear, _⟩ | ⟨_, dist, _, hdist, _, heq⟩
    · omega
    · left
      omega
    · right
      rw [← hself, u64] at heq
      omega
  rcases hclose with hclose | hwrap
  · by_cases hhalf : c < 2 ^ 31
    · -- zero is found beyond `c'`
      have hzero := hsame 0
      have hoff : offset (wrap 0 isn) isn = 0 := offset_wrap 0 isn
      rw [unwrap_of_le _ _ hhalf.le, hoff] at hzero
      rcases unwrap_cases (wrap 0 isn) isn hc' with
        ⟨hle, _⟩ | ⟨_, _, hnear, _⟩ | ⟨_, dist, hpos, hdist, _, heq⟩
      · omega
      · omega
      · rw [← hzero, u64_of_lt (by omega)] at heq
        omega
    · -- the number opposite to `c` is found below `c`, but not below `c'`
      have hoff := offset_wrap (c + 2 ^ 31) isn
      have hbelow : unwrap (wrap (c + 2 ^ 31) isn) isn c ≤ c ∧
          c ≤ unwrap (wrap (c + 2 ^ 31) isn) isn c + 2 ^ 31 := by
        rcases unwrap_cases (wrap (c + 2 ^ 31) isn) isn (hlt.trans hc') with
          ⟨hle, _⟩ | ⟨_, hle, hnear, _⟩ | ⟨_, dist, _, _, hmod, _⟩
        · omega
        · exact ⟨hle, hnear⟩
        · omega
      have hopp := hsame (c + 2 ^ 31)
      rcases unwrap_cases (wrap (c + 2 ^ 31) isn) isn hc' with
        ⟨hle, _⟩ | ⟨_, _, hnear, hmod⟩ | ⟨_, dist, hpos, hdist, hmod, heq⟩
      · omega
      · omega
      · have hsum : c' + dist = c + 2 ^ 31 := by omega
        rw [hopp, heq, hsum, u64] at hbelow
        omega
  · have hlast := hsame c'
    rw [unwrap_wrap (v := c') (c := c') isn hc' hc' (by omega) (by omega),
      unwrap_of_le _ _ (by omega), offset_wrap] at hlast
    omega

/-- **Which checkpoints `unwrap` cannot tell apart**: equal ones, and those in the first half of
the number space. -/
theorem unwrap_congr_iff {c c' : ℕ} (isn : WrappingInt32) (hc : c < 2 ^ 64) (hc' : c' < 2 ^ 64) :
    (∀ n, unwrap n isn c = unwrap n isn c') ↔ c = c' ∨ c ≤ 2 ^ 31 ∧ c' ≤ 2 ^ 31 := by
  constructor
  · intro hall
    by_contra hno
    rcases Nat.lt_trichotomy c c' with hlt | heq | hgt
    · obtain ⟨n, hne⟩ := exists_unwrap_ne_of_lt isn hlt hc' (by omega)
      exact hne (hall n)
    · exact hno (Or.inl heq)
    · obtain ⟨n, hne⟩ := exists_unwrap_ne_of_lt isn hgt hc (by omega)
      exact hne (hall n).symm
  · rintro (rfl | ⟨hle, hle'⟩) n
    · rfl
    · rw [unwrap_of_le _ _ hle, unwrap_of_le _ _ hle']

end Sponge
