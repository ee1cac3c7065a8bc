import Sponge.Lib.MachineInt
import Sponge.Lib.Throwing

/-!
# Buffers, the network parser and the unparser

A `Buffer` is a shared string with an offset in the source; here it is the string it exposes.
A `BufferList` keeps its list of buffers, because its conversion to a single `Buffer` throws on
more than one.  `NetParser` reads big-endian integers off the front of a buffer and remembers
the first problem in a sticky error.  Its primitive reads can throw in the source; the lemmas
here say that its own size check always prevents that, and give each read its value and the
parser it leaves.
-/

namespace Sponge

open Throwing MachineInt

/-- The exceptions of the network layer, with the text of `what()`. -/
inductive Exception where
  | outOfRange (what : String)
  | runtimeError (what : String)
deriving DecidableEq, Repr

/-- A member function call on an object of type `σ`. -/
abbrev Call (σ α : Type) := EStateM Exception σ α

inductive ParseResult where
  | noError
  | badChecksum
  | packetTooShort
  | wrongIPVersion
  | headerTooShort
  | truncatedPacket
  | unsupported
deriving DecidableEq, Repr

/-! ### Buffers -/

abbrev Buffer := List UInt8

namespace Buffer

def size (b : Buffer) : ℕ := b.length

def byteAt (b : Buffer) (n : ℕ) : Except Exception UInt8 :=
  match b[n]? with
  | some byte => .ok byte
  | none => .error (.outOfRange "basic_string_view::at")

def removePrefix (b : Buffer) (n : ℕ) : Except Exception Buffer :=
  if b.size < n then .error (.outOfRange "Buffer::remove_prefix") else .ok (b.drop n)

end Buffer

abbrev BufferList := List Buffer

namespace BufferList

def size (l : BufferList) : ℕ := l.foldl (fun ret buf => u64 (ret + Buffer.size buf)) 0

def concatenate (l : BufferList) : Buffer := l.flatten

/-- The conversion operator to a single buffer. -/
def toBuffer : BufferList → Except Exception Buffer
  | [] => .ok []
  | [b] => .ok b
  | _ => .error (.runtimeError
      "BufferList: please use concatenate() to combine a multi-Buffer BufferList into one Buffer")

/-- The loop adds up the sizes of the buffers. -/
theorem size_eq (l : BufferList) : l.size = u64 l.concatenate.length := by
  have hloop : ∀ (l : List Buffer) (n : ℕ), n < 2 ^ 64 →
      l.foldl (fun ret buf => u64 (ret + Buffer.size buf)) n = u64 (n + l.flatten.length) := by
    intro l
    induction l with
    | nil =>
      intro n hn
      exact (u64_of_lt hn).symm
    | cons b l ih =>
      intro n _
      rw [List.foldl_cons, ih _ (u64_lt _), List.flatten_cons, List.length_append, u64_add]
      congr 1
      rw [Buffer.size]
      omega
  rw [size, hloop l 0 (by decide), Nat.zero_add, concatenate]

theorem size_of_lt {l : BufferList} (h : l.concatenate.length < 2 ^ 64) :
    l.size = l.concatenate.length := by
  rw [size_eq, u64_of_lt h]

theorem size_singleton (b : Buffer) : size [b] = u64 b.length := by
  rw [size_eq, concatenate, List.flatten_cons, List.flatten_nil, List.append_nil]

end BufferList

/-! ### The parser -/

structure NetParser where
  buffer : Buffer
  error : ParseResult := .noError
deriving DecidableEq, Repr

namespace NetParser

def setError (res : ParseResult) : Call NetParser Unit := modify fun p => { p with error := res }

def hasError (p : NetParser) : Bool := p.error ≠ .noError

def checkSize (size : ℕ) : Call NetParser Unit := do
  if (← get).buffer.size < size then setError .packetTooShort

/-- One turn of the loop of `_parse_int`, in an integer type of `len` bytes. -/
def shiftIn (len : ℕ) (b : Buffer) (ret i : ℕ) : Except Exception ℕ := do
  let byte ← Buffer.byteAt b i
  return ((ret <<< 8) % 2 ^ (8 * len) + byte.toNat) % 2 ^ (8 * len)

def parseInt (len : ℕ) : Call NetParser ℕ := do
  checkSize len
  let p ← get
  if p.hasError then return 0
  let ret ← ofExcept ((List.range len).foldlM (shiftIn len p.buffer) 0)
  let rest ← ofExcept (p.buffer.removePrefix len)
  set { p with buffer := rest }
  return ret

def u32 : Call NetParser UInt32 := UInt32.ofNat <$> parseInt 4

def u16 : Call NetParser UInt16 := UInt16.ofNat <$> parseInt 2

def u8 : Call NetParser UInt8 := UInt8.ofNat <$> parseInt 1

def removePrefix (n : ℕ) : Call NetParser Unit := do
  checkSize n
  let p ← get
  if p.hasError then return ()
  let rest ← ofExcept (p.buffer.removePrefix n)
  set { p with buffer := rest }

/-! ### What a read returns and leaves -/

/-- The number a byte string spells, most significant byte first. -/
def bigEndian (bytes : List UInt8) : ℕ := bytes.foldl (fun n b => n * 256 + b.toNat) 0

/-- The value of a read of `len` bytes: zero once the parser has failed. -/
def intValue (p : NetParser) (len : ℕ) : ℕ :=
  if p.buffer.size < len ∨ p.hasError then 0 else bigEndian (p.buffer.take len) % 2 ^ (8 * len)

/-- The parser after a read or a removal of `len` bytes. -/
def skip (p : NetParser) (len : ℕ) : NetParser :=
  if p.buffer.size < len then { p with error := .packetTooShort }
  else if p.hasError then p
  else { p with buffer := p.buffer.drop len }

theorem bigEndian_concat (bytes : List UInt8) (b : UInt8) :
    bigEndian (bytes ++ [b]) = bigEndian bytes * 256 + b.toNat := by
  simp [bigEndian]

theorem bigEndian_lt (bytes : List UInt8) : bigEndian bytes < 2 ^ (8 * bytes.length) := by
  induction bytes using List.reverseRecOn with
  | nil => decide
  | append_singleton bytes b ih =>
    have hb := b.toNat_lt
    have hpow : 2 ^ (8 * (bytes.length + 1)) = 2 ^ (8 * bytes.length) * 256 := by
      rw [Nat.mul_succ, pow_add]
      norm_num
    rw [bigEndian_concat, List.length_append, List.length_singleton, hpow]
    omega

/-- The loop of `_parse_int` stays inside a buffer that is long enough. -/
theorem foldlM_shiftIn (len : ℕ) (b : Buffer) {n : ℕ} (h : n ≤ b.length) :
    (List.range n).foldlM (shiftIn len b) 0 = .ok (bigEndian (b.take n) % 2 ^ (8 * len)) := by
  induction n with
  | zero => simp [bigEndian, pure, Except.pure]
  | succ n ih =>
    have hn : n < b.length := by omega
    have hat : Buffer.byteAt b n = .ok b[n] := by
      simp [Buffer.byteAt, List.getElem?_eq_getElem hn]
    have htake : b.take (n + 1) = b.take n ++ [b[n]] := (List.take_append_getElem hn).symm
    rw [List.range_succ, List.foldlM_append, ih (by omega), htake, bigEndian_concat]
    simp only [List.foldlM_cons, List.foldlM_nil, shiftIn, hat, bind, Except.bind, pure,
      Except.pure, Nat.shiftLeft_eq]
    norm_num [Nat.add_mod, Nat.mul_mod]

theorem checkSize_eq (size : ℕ) (p : NetParser) :
    checkSize size p =
      .ok () (if p.buffer.size < size then { p with error := .packetTooShort } else p) := by
  show (if p.buffer.size < size then setError .packetTooShort else pure ()) p = _
  split <;> rfl

/-- **A read never throws.**  Its value and the parser it leaves. -/
theorem parseInt_eq (len : ℕ) (p : NetParser) :
    parseInt len p = .ok (p.intValue len) (p.skip len) := by
  unfold parseInt
  rw [bind_ok (checkSize_eq len p)]
  by_cases hshort : p.buffer.size < len
  · rw [if_pos hshort, intValue, if_pos (Or.inl hshort), skip, if_pos hshort]
    rfl
  · rw [if_neg hshort]
    by_cases herr : p.hasError
    · rw [intValue, if_pos (Or.inr herr), skip, if_neg hshort, if_pos herr]
      show (if p.hasError = true then pure 0 else _ : Call NetParser ℕ) p = _
      rw [if_pos herr]
      rfl
    · have hle : len ≤ p.buffer.length := not_lt.mp hshort
      have hrem : p.buffer.removePrefix len = .ok (p.buffer.drop len) := if_neg hshort
      rw [intValue, if_neg (by simp [hshort, herr]), skip, if_neg hshort, if_neg herr]
      show (if p.hasError = true then pure 0 else _ : Call NetParser ℕ) p = _
      rw [if_neg herr, foldlM_shiftIn len p.buffer hle, hrem]
      rfl

theorem removePrefix_eq (n : ℕ) (p : NetParser) : removePrefix n p = .ok () (p.skip n) := by
  unfold removePrefix
  rw [bind_ok (checkSize_eq n p)]
  by_cases hshort : p.buffer.size < n
  · rw [if_pos hshort, skip, if_pos hshort]
    rfl
  · rw [if_neg hshort, skip, if_neg hshort]
    show (if p.hasError = true then pure () else _ : Call NetParser Unit) p = _
    split
    · rfl
    · rw [show p.buffer.removePrefix n = .ok (p.buffer.drop n) from if_neg hshort]
      rfl

theorem safe_u8 : Safe u8 := fun p => ⟨_, _, bind_ok (parseInt_eq 1 p) _⟩

theorem safe_u16 : Safe u16 := fun p => ⟨_, _, bind_ok (parseInt_eq 2 p) _⟩

theorem safe_u32 : Safe u32 := fun p => ⟨_, _, bind_ok (parseInt_eq 4 p) _⟩

theorem safe_removePrefix (n : ℕ) : Safe (removePrefix n) :=
  fun p => ⟨_, _, removePrefix_eq n p⟩

end NetParser

/-! ### The unparser -/

namespace NetUnparser

/-- The bytes that `_unparse_int` appends for an integer type of `len` bytes. -/
def unparseInt (len val : ℕ) : List UInt8 :=
  (List.range len).map fun i => UInt8.ofNat ((val >>> ((len - i - 1) * 8)) &&& 0xff)

def u32 (s : List UInt8) (val : UInt32) : List UInt8 := s ++ unparseInt 4 val.toNat

def u16 (s : List UInt8) (val : UInt16) : List UInt8 := s ++ unparseInt 2 val.toNat

def u8 (s : List UInt8) (val : UInt8) : List UInt8 := s ++ unparseInt 1 val.toNat

/-! ### Reading back what was written -/

/-- The last byte of an integer is its remainder, the others spell the quotient. -/
theorem unparseInt_succ (len val : ℕ) :
    unparseInt (len + 1) val = unparseInt len (val / 256) ++ [UInt8.ofNat (val % 256)] := by
  unfold unparseInt
  rw [List.range_succ, List.map_append, List.map_singleton]
  congr 1
  · apply List.map_congr_left
    intro i hi
    have hshift : (len + 1 - i - 1) * 8 = 8 + (len - i - 1) * 8 := by
      have := List.mem_range.mp hi
      omega
    rw [hshift, Nat.shiftRight_add, Nat.shiftRight_eq_div_pow val 8]
  · rw [show (len + 1 - len - 1) * 8 = 0 by omega, Nat.shiftRight_zero]
    exact congrArg (fun b => [UInt8.ofNat b]) (Nat.and_two_pow_sub_one_eq_mod val 8)

theorem unparseInt_one (b : UInt8) : unparseInt 1 b.toNat = [b] := by
  rw [unparseInt_succ, Nat.mod_eq_of_lt b.toNat_lt, UInt8.ofNat_toNat]
  rfl

@[simp] theorem length_unparseInt (len val : ℕ) : (unparseInt len val).length = len := by
  simp [unparseInt]

theorem bigEndian_unparseInt (len val : ℕ) :
    NetParser.bigEndian (unparseInt len val) = val % 2 ^ (8 * len) := by
  induction len generalizing val with
  | zero => simp [unparseInt, NetParser.bigEndian, Nat.mod_one]
  | succ len ih =>
    have hlast : (UInt8.ofNat (val % 256)).toNat = val % 256 :=
      UInt8.toNat_ofNat_of_lt' (Nat.mod_lt _ (by decide))
    have hsplit : val % (256 * 2 ^ (8 * len)) = val % 256 + 256 * (val / 256 % 2 ^ (8 * len)) :=
      Nat.mod_mul
    rw [unparseInt_succ, NetParser.bigEndian_concat, ih, hlast,
      show 2 ^ (8 * (len + 1)) = 256 * 2 ^ (8 * len) by rw [Nat.mul_succ, pow_add]; ring, hsplit]
    ring

/-- The bytes of the number that a byte string spells are the byte string. -/
theorem unparseInt_bigEndian (bytes : List UInt8) :
    unparseInt bytes.length (NetParser.bigEndian bytes) = bytes := by
  induction bytes using List.reverseRecOn with
  | nil => rfl
  | append_singleton bytes b ih =>
    have hb := b.toNat_lt
    have hdiv : (NetParser.bigEndian bytes * 256 + b.toNat) / 256 = NetParser.bigEndian bytes := by
      omega
    have hmod : (NetParser.bigEndian bytes * 256 + b.toNat) % 256 = b.toNat := by
      omega
    rw [List.length_append, List.length_singleton, NetParser.bigEndian_concat, unparseInt_succ,
      hdiv, hmod, ih, UInt8.ofNat_toNat]

end NetUnparser

namespace NetParser

open NetUnparser (unparseInt)

variable {α β : Type}

/-- From a buffer that starts with `bytes` the call reads `a` and leaves the rest. -/
def Reads (m : Call NetParser α) (bytes : List UInt8) (a : α) : Prop :=
  ∀ rest, m { buffer := bytes ++ rest } = .ok a { buffer := rest }

theorem Reads.bind {m : Call NetParser α} {f : α → Call NetParser β} {bytes bytes' : List UInt8}
    {a : α} {b : β} (hm : Reads m bytes a) (hf : Reads (f a) bytes' b) :
    Reads (m >>= f) (bytes ++ bytes') b := by
  intro rest
  rw [List.append_assoc, bind_ok (hm (bytes' ++ rest))]
  exact hf rest

theorem Reads.map {m : Call NetParser α} {bytes : List UInt8} {a : α} (hm : Reads m bytes a)
    (f : α → β) : Reads (f <$> m) bytes (f a) := by
  intro rest
  rw [map_eq_pure_bind, bind_ok (hm rest)]
  rfl

theorem reads_pure (a : α) : Reads (pure a) [] a := fun _ => rfl

/-- A parser that has not failed so far returns `NoError`. -/
theorem reads_error (a : α) : Reads (do return ((← get).error, a)) [] (.noError, a) :=
  fun _ => rfl

/-- A check that does not apply is passed over. -/
theorem Reads.ite_neg {c : Prop} [Decidable c] {m m' : Call NetParser α} {bytes : List UInt8}
    {a : α} (hc : ¬ c) (hm : Reads m bytes a) : Reads (if c then m' else m) bytes a := by
  rw [if_neg hc]
  exact hm

/-- A check that the buffer is long enough passes. -/
theorem Reads.of_size {n : ℕ} {m m' : Call NetParser α} {bytes : List UInt8} {a : α}
    (h : n ≤ bytes.length) (hm : Reads m bytes a) :
    Reads (do if (← get).buffer.size < n then m' else m) bytes a := by
  intro rest
  have hlong : ¬ Buffer.size (bytes ++ rest) < n := by
    rw [Buffer.size, List.length_append]
    omega
  exact Reads.ite_neg hlong hm rest

theorem reads_parseInt {len val : ℕ} (h : val < 2 ^ (8 * len)) :
    Reads (parseInt len) (unparseInt len val) val := by
  intro rest
  have hlen := NetUnparser.length_unparseInt len val
  have hlong : ¬ Buffer.size (unparseInt len val ++ rest) < len := by
    rw [Buffer.size, List.length_append]
    omega
  have htake : (unparseInt len val ++ rest).take len = unparseInt len val :=
    List.take_left' hlen
  have hdrop : (unparseInt len val ++ rest).drop len = rest := List.drop_left' hlen
  rw [parseInt_eq, intValue, skip, if_neg (by simp [hlong, hasError]), if_neg hlong,
    if_neg (by simp [hasError])]
  simp only [htake, hdrop]
  rw [NetUnparser.bigEndian_unparseInt, Nat.mod_mod, Nat.mod_eq_of_lt h]

theorem reads_u8 (val : UInt8) : Reads u8 (unparseInt 1 val.toNat) val := by
  have h := (reads_parseInt (show val.toNat < 2 ^ (8 * 1) from val.toNat_lt)).map UInt8.ofNat
  rwa [UInt8.ofNat_toNat] at h

theorem reads_u16 (val : UInt16) : Reads u16 (unparseInt 2 val.toNat) val := by
  have h := (reads_parseInt (show val.toNat < 2 ^ (8 * 2) from val.toNat_lt)).map UInt16.ofNat
  rwa [UInt16.ofNat_toNat] at h

theorem reads_u32 (val : UInt32) : Reads u32 (unparseInt 4 val.toNat) val := by
  have h := (reads_parseInt (show val.toNat < 2 ^ (8 * 4) from val.toNat_lt)).map UInt32.ofNat
  rwa [UInt32.ofNat_toNat] at h

theorem reads_removePrefix {n : ℕ} {bytes : List UInt8} (h : bytes.length = n) :
    Reads (removePrefix n) bytes () := by
  intro rest
  have hlong : ¬ Buffer.size (bytes ++ rest) < n := by
    rw [Buffer.size, List.length_append]
    omega
  have hdrop : (bytes ++ rest).drop n = rest := List.drop_left' h
  rw [removePrefix_eq, skip, if_neg hlong, if_neg (by simp [hasError])]
  simp only [hdrop]

/-! ### Reading at an offset -/

/-- The number that `len` bytes spell at an offset. -/
def fieldAt (b : Buffer) (offset len : ℕ) : ℕ := bigEndian ((b.drop offset).take len)

theorem fieldAt_lt (b : Buffer) (offset len : ℕ) : fieldAt b offset len < 2 ^ (8 * len) := by
  refine (bigEndian_lt _).trans_le (Nat.pow_le_pow_right (by decide) ?_)
  exact Nat.mul_le_mul_left 8 (List.length_take_le ..)

/-- From offset `i` of the buffer the call reads `a` and leaves the parser at offset `j`. -/
def ReadsAt {α : Type} (b : Buffer) (m : Call NetParser α) (i j : ℕ) (a : α) : Prop :=
  m { buffer := b.drop i } = .ok a { buffer := b.drop j }

section

variable {b : Buffer} {i j k : ℕ}

theorem ReadsAt.bind {m : Call NetParser α} {f : α → Call NetParser β} {a : α} {c : β}
    (hm : ReadsAt b m i j a) (hf : ReadsAt b (f a) j k c) : ReadsAt b (m >>= f) i k c :=
  (bind_ok hm f).trans hf

theorem ReadsAt.map {m : Call NetParser α} {a : α} (hm : ReadsAt b m i j a) (f : α → β) :
    ReadsAt b (f <$> m) i j (f a) := by
  rw [map_eq_pure_bind]
  exact hm.bind rfl

/-- A parser without an error moves on if there is enough left. -/
theorem skip_drop (len : ℕ) (h : i + len ≤ b.length) :
    skip { buffer := b.drop i } len = { buffer := b.drop (i + len) } := by
  have hlong : ¬ Buffer.size (b.drop i) < len := by
    rw [Buffer.size, List.length_drop]
    omega
  rw [skip, if_neg hlong, if_neg (by simp [hasError]), List.drop_drop]

theorem readsAt_parseInt (len : ℕ) (h : i + len ≤ b.length) :
    ReadsAt b (parseInt len) i (i + len) (fieldAt b i len) := by
  have hlong : ¬ Buffer.size (b.drop i) < len := by
    rw [Buffer.size, List.length_drop]
    omega
  have hvalue : intValue { buffer := b.drop i } len = fieldAt b i len := by
    rw [intValue, if_neg (by simp [hlong, hasError])]
    exact Nat.mod_eq_of_lt (fieldAt_lt b i len)
  rw [ReadsAt, parseInt_eq, hvalue, skip_drop len h]

theorem readsAt_u8 (h : i + 1 ≤ b.length) :
    ReadsAt b u8 i (i + 1) (UInt8.ofNat (fieldAt b i 1)) := (readsAt_parseInt 1 h).map _

theorem readsAt_u16 (h : i + 2 ≤ b.length) :
    ReadsAt b u16 i (i + 2) (UInt16.ofNat (fieldAt b i 2)) := (readsAt_parseInt 2 h).map _

theorem readsAt_u32 (h : i + 4 ≤ b.length) :
    ReadsAt b u32 i (i + 4) (UInt32.ofNat (fieldAt b i 4)) := (readsAt_parseInt 4 h).map _

theorem readsAt_removePrefix (len : ℕ) (h : i + len ≤ b.length) :
    ReadsAt b (removePrefix len) i (i + len) () := by
  rw [ReadsAt, removePrefix_eq, skip_drop len h]

end

/-! ### Running out of bytes -/

/-- Fewer than `n` bytes are left, or the parser has failed already. -/
def Lacks (p : NetParser) (n : ℕ) : Prop := p.hasError = true ∨ p.buffer.size < n

theorem Lacks.skip {p : NetParser} {len n : ℕ} (h : p.Lacks (len + n)) : (p.skip len).Lacks n := by
  rw [NetParser.skip]
  by_cases hshort : p.buffer.size < len
  · rw [if_pos hshort]
    exact Or.inl rfl
  · rw [if_neg hshort]
    by_cases herr : p.hasError = true
    · rw [if_pos herr]
      exact Or.inl herr
    · rw [if_neg herr]
      have hlt := h.resolve_left herr
      right
      simp only [Buffer.size, List.length_drop] at *
      omega

/-- The call takes `k` bytes: a parser that cannot spare them does not recover. -/
def Takes (m : Call NetParser α) (k : ℕ) : Prop :=
  ∀ p n, p.Lacks (k + n) → ∃ a p', m p = .ok a p' ∧ p'.Lacks n

theorem Takes.bind {m : Call NetParser α} {f : α → Call NetParser β} {j k : ℕ} (hm : Takes m j)
    (hf : ∀ a, Takes (f a) k) : Takes (m >>= f) (j + k) := by
  intro p n hp
  obtain ⟨a, p', hok, hp'⟩ := hm p (k + n) (by rwa [← Nat.add_assoc])
  obtain ⟨b, p'', hok', hp''⟩ := hf a p' n hp'
  exact ⟨b, p'', (bind_ok hok f).trans hok', hp''⟩

theorem takes_pure (a : α) : Takes (pure a) 0 :=
  fun p n hp => ⟨a, p, rfl, by rwa [Nat.zero_add] at hp⟩

theorem Takes.map {m : Call NetParser α} {k : ℕ} (hm : Takes m k) (f : α → β) :
    Takes (f <$> m) k := by
  rw [map_eq_pure_bind]
  exact hm.bind fun a => takes_pure (f a)

theorem takes_parseInt (len : ℕ) : Takes (parseInt len) len :=
  fun p _ hp => ⟨_, _, parseInt_eq len p, hp.skip⟩

/-- A removal does not bring bytes back. -/
theorem takes_removePrefix (len : ℕ) : Takes (removePrefix len) 0 := by
  intro p n hp
  refine ⟨_, _, removePrefix_eq len p, Lacks.skip (hp.imp_right fun hlt => ?_)⟩
  omega

theorem takes_u8 : Takes u8 1 := (takes_parseInt 1).map _

theorem takes_u16 : Takes u16 2 := (takes_parseInt 2).map _

theorem takes_u32 : Takes u32 4 := (takes_parseInt 4).map _

end NetParser

end Sponge
