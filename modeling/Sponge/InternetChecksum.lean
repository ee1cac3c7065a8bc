import Sponge.Lib.OnesComplement

/-!
# The Internet checksum

The bytes are added one at a time into a 32-bit accumulator, as the high or the low half of a
16-bit word according to a parity bit that survives from one chunk to the next.  `value` folds
the carries back in until the sum fits 16 bits; the loop of the source is unrolled, and
`foldCarries_fits` says that it always ends within three turns.

`rfc1071` is the checksum as the standard defines it, on the 16-bit words of the data.  The code's
is the same as long as its accumulator does not overflow: both reduce the same number.
-/

namespace Sponge

structure InternetChecksum where
  sum : UInt32 := 0
  parity : Bool := false
deriving DecidableEq, Repr

open OnesComplement (Reduces)

namespace InternetChecksum

/-- One byte of `add`: the high half of a word at even positions. -/
def addByte (c : InternetChecksum) (byte : UInt8) : InternetChecksum :=
  let val : UInt16 := if c.parity then byte.toUInt16 else byte.toUInt16 <<< 8
  { sum := c.sum + val.toUInt32, parity := !c.parity }

def add (c : InternetChecksum) (data : List UInt8) : InternetChecksum := data.foldl addByte c

/-- The loop of `value`, for at most the given number of turns. -/
def foldCarries : ℕ → UInt32 → UInt32
  | 0, ret => ret
  | turns + 1, ret =>
    if 0xffff < ret then foldCarries turns ((ret >>> 16) + (ret &&& 0xffff)) else ret

def value (c : InternetChecksum) : UInt16 := (~~~ (foldCarries 3 c.sum)).toUInt16

theorem toNat_fold (ret : UInt32) :
    ((ret >>> 16) + (ret &&& 0xffff)).toNat = ret.toNat / 2 ^ 16 + ret.toNat % 2 ^ 16 := by
  have hlt : ret.toNat < 2 ^ 32 := ret.toNat_lt
  have hand : ret.toNat &&& 0xffff = ret.toNat % 2 ^ 16 := Nat.and_two_pow_sub_one_eq_mod _ 16
  rw [UInt32.toNat_add, UInt32.toNat_shiftRight, UInt32.toNat_and]
  simp only [UInt32.reduceToNat, Nat.reduceMod, Nat.shiftRight_eq_div_pow]
  rw [hand]
  omega

/-- The sum fits 16 bits after three turns, so the loop of `value` has ended by then. -/
theorem foldCarries_fits (ret : UInt32) : (foldCarries 3 ret).toNat ≤ 0xffff := by
  have hlt : ret.toNat < 2 ^ 32 := ret.toNat_lt
  have hfit : ∀ x : UInt32, ¬ 0xffff < x → x.toNat ≤ 0xffff := fun x hx => by
    simpa [UInt32.lt_iff_toNat_lt] using hx
  simp only [foldCarries]
  split
  · split
    · split
      · rename_i h1 h2 h3
        rw [UInt32.lt_iff_toNat_lt, toNat_fold] at h3
        rw [toNat_fold, toNat_fold] at *
        simp only [UInt32.reduceToNat] at *
        omega
      · rename_i h
        exact hfit _ h
    · rename_i h
      exact hfit _ h
  · rename_i h
    exact hfit _ h

/-! ### The sum that is folded -/

/-- The bytes as halves of 16-bit words. -/
def wordSum : Bool → List UInt8 → ℕ
  | _, [] => 0
  | parity, byte :: rest =>
    (if parity then byte.toNat else byte.toNat * 256) + wordSum (!parity) rest

theorem add_cons (c : InternetChecksum) (byte : UInt8) (rest : List UInt8) :
    c.add (byte :: rest) = (c.addByte byte).add rest := rfl

theorem add_append (c : InternetChecksum) (xs ys : List UInt8) :
    c.add (xs ++ ys) = (c.add xs).add ys := List.foldl_append

theorem toNat_addByte (c : InternetChecksum) (byte : UInt8) :
    (c.addByte byte).sum.toNat =
      (c.sum.toNat + if c.parity then byte.toNat else byte.toNat * 256) % 2 ^ 32 := by
  have hlt := byte.toNat_lt
  have hhigh : (byte.toUInt16 <<< 8).toNat = byte.toNat * 256 := by
    rw [UInt16.toNat_shiftLeft, UInt8.toNat_toUInt16]
    simp only [UInt16.reduceToNat, Nat.reduceMod, Nat.shiftLeft_eq, Nat.reducePow]
    omega
  unfold addByte
  cases c.parity
  · simp only [Bool.false_eq_true, if_false]
    rw [UInt32.toNat_add, UInt16.toNat_toUInt32, hhigh]
  · simp only [if_true]
    rw [UInt32.toNat_add, UInt16.toNat_toUInt32, UInt8.toNat_toUInt16]

theorem toNat_add_sum (c : InternetChecksum) (data : List UInt8) :
    (c.add data).sum.toNat = (c.sum.toNat + wordSum c.parity data) % 2 ^ 32 := by
  induction data generalizing c with
  | nil => exact (Nat.mod_eq_of_lt c.sum.toNat_lt).symm
  | cons byte rest ih =>
    rw [add_cons, ih, toNat_addByte, wordSum, Nat.mod_add_mod, Nat.add_assoc]
    rfl

theorem wordSum_append (parity : Bool) (xs ys : List UInt8) :
    wordSum parity (xs ++ ys) =
      wordSum parity xs + wordSum (parity ^^ decide (xs.length % 2 = 1)) ys := by
  induction xs generalizing parity with
  | nil => simp [wordSum]
  | cons x xs ih =>
    have hparity : (!parity ^^ decide (xs.length % 2 = 1)) =
        (parity ^^ decide ((x :: xs).length % 2 = 1)) := by
      rw [List.length_cons]
      rcases Nat.mod_two_eq_zero_or_one xs.length with h | h
      · simp [h, Nat.add_mod]
      · simp [h, Nat.add_mod]
    rw [List.cons_append, wordSum, wordSum, ih, hparity, Nat.add_assoc]

/-! ### Ones' complement arithmetic -/

/-- Folding keeps the sum modulo `2 ^ 16 - 1`. -/
theorem foldCarries_mod (turns : ℕ) (ret : UInt32) :
    (foldCarries turns ret).toNat % 65535 = ret.toNat % 65535 := by
  induction turns generalizing ret with
  | zero => rfl
  | succ turns ih =>
    rw [foldCarries]
    split
    · rw [ih, toNat_fold]
      omega
    · rfl

/-- Folding reaches zero from zero only. -/
theorem foldCarries_eq_zero (turns : ℕ) (ret : UInt32) :
    (foldCarries turns ret).toNat = 0 ↔ ret.toNat = 0 := by
  induction turns generalizing ret with
  | zero => rfl
  | succ turns ih =>
    rw [foldCarries]
    split
    · rw [ih, toNat_fold]
      omega
    · rfl

/-- **What `value` folds to**: the one's complement digit of the accumulator. -/
theorem reduces_foldCarries (ret : UInt32) :
    Reduces (2 ^ 16) ret.toNat (foldCarries 3 ret).toNat :=
  ⟨Nat.lt_succ_of_le (foldCarries_fits ret), foldCarries_mod 3 ret, foldCarries_eq_zero 3 ret⟩

theorem toNat_value (c : InternetChecksum) :
    c.value.toNat = 65535 - (foldCarries 3 c.sum).toNat := by
  have hfit := foldCarries_fits c.sum
  rw [value, UInt32.toNat_toUInt16, UInt32.toNat_not]
  simp only [UInt32.size] at *
  omega

/-- A checksum is zero when the sum is a non-zero multiple of `2 ^ 16 - 1`. -/
theorem value_eq_zero_iff (c : InternetChecksum) :
    c.value = 0 ↔ c.sum.toNat ≠ 0 ∧ c.sum.toNat % 65535 = 0 := by
  have hfit := foldCarries_fits c.sum
  have hmod := foldCarries_mod 3 c.sum
  have hzero := foldCarries_eq_zero 3 c.sum
  rw [← UInt16.toNat_inj, toNat_value]
  show _ = 0 ↔ _
  omega

/-- **A checksum verifies.**  Once the checksum of a sum has been added to it, the checksum of
the whole is zero. -/
theorem value_eq_zero_of_add {c c' : InternetChecksum}
    (h : c'.sum.toNat = c.sum.toNat + c.value.toNat) : c'.value = 0 := by
  have hfit := foldCarries_fits c.sum
  have hmod := foldCarries_mod 3 c.sum
  have hzero := foldCarries_eq_zero 3 c.sum
  rw [toNat_value] at h
  rw [value_eq_zero_iff]
  omega

/-! ### The checksum of the standard -/

/-- The big-endian 16-bit words of the data; an odd last byte is padded with zero. -/
def words : List UInt8 → List ℕ
  | [] => []
  | [last] => [last.toNat * 256]
  | high :: low :: rest => (high.toNat * 256 + low.toNat) :: words rest

/-- The complement of the one's complement sum of the words and of the two halves of an initial
sum. -/
def rfc1071 (initialSum : ℕ) (data : List UInt8) : ℕ :=
  65535 - OnesComplement.sum (2 ^ 16) (initialSum / 2 ^ 16 :: initialSum % 2 ^ 16 :: words data)

theorem sum_words (data : List UInt8) : (words data).sum = wordSum false data := by
  fun_induction words data with
  | case1 => rfl
  | case2 last => simp [wordSum]
  | case3 high low rest ih => simp [wordSum, ih, Nat.add_assoc]

theorem word_lt {data : List UInt8} : ∀ w ∈ words data, w < 2 ^ 16 := by
  fun_induction words data with
  | case1 => simp
  | case2 last =>
    have hlast := last.toNat_lt
    intro w hw
    rw [List.mem_singleton.mp hw]
    omega
  | case3 high low rest ih =>
    have hhigh := high.toNat_lt
    have hlow := low.toNat_lt
    intro w hw
    rcases List.mem_cons.mp hw with rfl | hw
    · omega
    · exact ih w hw

theorem length_words (data : List UInt8) : (words data).length = (data.length + 1) / 2 := by
  fun_induction words data with
  | case1 => rfl
  | case2 last => simp
  | case3 high low rest ih =>
    simp only [List.length_cons, ih]
    omega

theorem wordSum_le_words (data : List UInt8) :
    wordSum false data ≤ 65535 * ((data.length + 1) / 2) := by
  have hle := List.sum_le_card_nsmul (words data) 65535 fun w hw => Nat.le_of_lt_succ (word_lt w hw)
  rw [sum_words, length_words, smul_eq_mul, Nat.mul_comm] at hle
  exact hle

/-- The sum that the standard folds stands for the number that the code accumulates. -/
theorem reduces_words {initialSum : ℕ} (h : initialSum < 2 ^ 32) (data : List UInt8) :
    Reduces (2 ^ 16) (initialSum + wordSum false data)
      (OnesComplement.sum (2 ^ 16)
        (initialSum / 2 ^ 16 :: initialSum % 2 ^ 16 :: words data)) := by
  have hdigits : ∀ x ∈ initialSum / 2 ^ 16 :: initialSum % 2 ^ 16 :: words data, x < 2 ^ 16 := by
    intro x hx
    rcases List.mem_cons.mp hx with rfl | hx
    · omega
    · rcases List.mem_cons.mp hx with rfl | hx
      · exact Nat.mod_lt _ (by decide)
      · exact word_lt x hx
  have hsum : (initialSum / 2 ^ 16 :: initialSum % 2 ^ 16 :: words data).sum =
      initialSum % 2 ^ 16 + initialSum / 2 ^ 16 + wordSum false data := by
    rw [List.sum_cons, List.sum_cons, sum_words]
    omega
  have hreduced := OnesComplement.reduces_sum (by decide) hdigits
  rw [hsum] at hreduced
  refine hreduced.congr ?_ ?_
  · exact (OnesComplement.carry_modEq (by decide) initialSum).add_right _
  · rw [Nat.add_eq_zero_iff, OnesComplement.carry_eq_zero_iff, Nat.add_eq_zero_iff]

/-- The accumulator does not overflow. -/
theorem toNat_add_of_lt {initialSum : UInt32} {data : List UInt8}
    (h : initialSum.toNat + 65535 * ((data.length + 1) / 2) < 2 ^ 32) :
    (add { sum := initialSum } data).sum.toNat = initialSum.toNat + wordSum false data := by
  have hle := wordSum_le_words data
  rw [toNat_add_sum, Nat.mod_eq_of_lt (by dsimp only; omega)]

/-- **The code computes the checksum of the standard.** -/
theorem toNat_value_add {initialSum : UInt32} {data : List UInt8}
    (h : initialSum.toNat + 65535 * ((data.length + 1) / 2) < 2 ^ 32) :
    (add { sum := initialSum } data).value.toNat = rfc1071 initialSum.toNat data := by
  have hcode := reduces_foldCarries (add { sum := initialSum } data).sum
  rw [toNat_add_of_lt h] at hcode
  rw [toNat_value, rfc1071, hcode.unique (reduces_words initialSum.toNat_lt data)]

/-! ### Chunks, and the checksum in its field -/

/-- The chunks are added one after another. -/
def addAll (c : InternetChecksum) (chunks : List (List UInt8)) : InternetChecksum :=
  chunks.foldl add c

theorem addAll_eq (c : InternetChecksum) (chunks : List (List UInt8)) :
    c.addAll chunks = c.add chunks.flatten := by
  induction chunks generalizing c with
  | nil => rfl
  | cons chunk chunks ih =>
    rw [List.flatten_cons, add_append]
    exact ih (c.add chunk)

/-- The loop of `value`, which ends when the sum fits 16 bits. -/
inductive Folds : UInt32 → UInt32 → Prop where
  | done {ret : UInt32} (h : ¬ 0xffff < ret) : Folds ret ret
  | turn {ret out : UInt32} (h : 0xffff < ret)
      (hrest : Folds ((ret >>> 16) + (ret &&& 0xffff)) out) : Folds ret out

theorem folds_of_fits (turns : ℕ) (ret : UInt32) (h : (foldCarries turns ret).toNat ≤ 0xffff) :
    Folds ret (foldCarries turns ret) := by
  induction turns generalizing ret with
  | zero =>
    refine .done ?_
    rw [UInt32.lt_iff_toNat_lt]
    exact not_lt.mpr h
  | succ turns ih =>
    rw [foldCarries] at h ⊢
    split at h
    · rename_i hlt
      rw [if_pos hlt]
      exact .turn hlt (ih _ h)
    · rename_i hlt
      rw [if_neg hlt]
      exact .done hlt

/-- The bytes of a 16-bit word. -/
def wordBytes (v : UInt16) : List UInt8 := [(v >>> 8).toUInt8, v.toUInt8]

theorem toNat_highByte (v : UInt16) : (v >>> 8).toUInt8.toNat = v.toNat / 256 := by
  have hlt := v.toNat_lt
  rw [UInt16.toNat_toUInt8, UInt16.toNat_shiftRight]
  simp only [UInt16.reduceToNat, Nat.reduceMod, Nat.shiftRight_eq_div_pow]
  omega

theorem wordSum_wordBytes (v : UInt16) (rest : List UInt8) :
    wordSum false (wordBytes v ++ rest) = v.toNat + wordSum false rest := by
  show (v >>> 8).toUInt8.toNat * 256 + (v.toUInt8.toNat + wordSum false rest) = _
  rw [toNat_highByte, UInt16.toNat_toUInt8]
  omega

theorem wordSum_zeros (rest : List UInt8) :
    wordSum false (0 :: 0 :: rest) = wordSum false rest := by
  simp [wordSum]

/-- At an even offset the words of what precedes and of what follows add up. -/
theorem wordSum_append_even {front : List UInt8} (h : front.length % 2 = 0) (rest : List UInt8) :
    wordSum false (front ++ rest) = wordSum false front + wordSum false rest := by
  rw [wordSum_append, h]
  rfl

/-- **The checksum verifies in its field**, which was zero when it was computed and stands at an
even offset. -/
theorem value_of_field {initialSum : UInt32} {front back : List UInt8} {cksum : UInt16}
    (heven : front.length % 2 = 0)
    (h : initialSum.toNat + 65535 * (((front ++ 0 :: 0 :: back).length + 1) / 2) < 2 ^ 32)
    (hcksum : (add { sum := initialSum } (front ++ 0 :: 0 :: back)).value = cksum) :
    (add { sum := initialSum } (front ++ (wordBytes cksum ++ back))).value = 0 := by
  have hlen : (front ++ (wordBytes cksum ++ back)).length = (front ++ 0 :: 0 :: back).length := by
    simp [wordBytes]
  apply value_eq_zero_of_add (c := add { sum := initialSum } (front ++ 0 :: 0 :: back))
  rw [hcksum, toNat_add_of_lt (by rw [hlen]; exact h), toNat_add_of_lt h,
    wordSum_append_even heven, wordSum_append_even heven, wordSum_wordBytes, wordSum_zeros]
  omega

/-- **The code's checksum is the standard's, whatever the chunks**: the folding loop ends, its
result is the checksum of the concatenation, and the checksum verifies once it stands in a field
that was zero. -/
theorem value_addAll {initialSum : UInt32} {chunks : List (List UInt8)}
    (h : initialSum.toNat + 65535 * ((chunks.flatten.length + 1) / 2) < 2 ^ 32) :
    Folds (addAll { sum := initialSum } chunks).sum
        (foldCarries 3 (addAll { sum := initialSum } chunks).sum) ∧
      (addAll { sum := initialSum } chunks).value.toNat =
        rfc1071 initialSum.toNat chunks.flatten ∧
      ∀ (front back : List UInt8) (chunks' : List (List UInt8)), front.length % 2 = 0 →
        chunks.flatten = front ++ 0 :: 0 :: back →
        chunks'.flatten =
          front ++ (wordBytes (addAll { sum := initialSum } chunks).value ++ back) →
        (addAll { sum := initialSum } chunks').value = 0 := by
  refine ⟨folds_of_fits 3 _ (foldCarries_fits _), ?_, ?_⟩
  · rw [addAll_eq]
    exact toNat_value_add h
  · intro front back chunks' heven hzero hfield
    rw [addAll_eq, hzero] at hfield
    rw [hzero] at h
    rw [addAll_eq, hfield]
    exact value_of_field heven h rfl

/-- Four bytes in two chunks, with the field at offset two. -/
theorem value_addAll_two_chunks :
    (1 : UInt32).toNat + 65535 * (([[69], [7, 0, 0]].flatten.length + 1) / 2) < 2 ^ 32 ∧
      (addAll { sum := 1 } [[69], [7, 0, 0]]).value.toNat = rfc1071 1 [69, 7, 0, 0] :=
  ⟨by decide, (value_addAll (by decide)).2.1⟩

end InternetChecksum

end Sponge
