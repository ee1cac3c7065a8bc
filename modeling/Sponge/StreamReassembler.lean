import Sponge.Lib.SortedMap
import Sponge.ByteStream

/-!
# The stream reassembler

`StreamReassembler` turns substrings that arrive in any order into an in-order byte stream.
`pushSubstring` is the composition of the four passages of the source function: slicing the
substring to the window (`slice`), storing it byte by byte under the map-size guard
(`storeBytes`), moving the run that starts at `nextIndex` out of the map (`assemble`), and
writing that run to the output.  The stream is ended when an `eof` has been seen at any time
and the map is empty.

The main result of this file is `pushSubstring_spec`: it says once what a push does, in terms
of the bytes held after the storing pass (`intake`), and every later property of the
reassembler is derived from it.  `mem_keys_intake` says which stream indices those are, from
the state before the push and its arguments alone (`Holds`).
-/

namespace Sponge

open MachineInt

structure StreamReassembler where
  output : ByteStream
  capacity : ℕ
  unassembled : SortedMap ℕ UInt8
  unassembledBytes : ℕ
  ifEof : Bool
  nextIndex : ℕ
deriving DecidableEq

namespace StreamReassembler

def new (capacity : ℕ) : StreamReassembler :=
  { output := ByteStream.new capacity, capacity := capacity, unassembled := SortedMap.empty
    unassembledBytes := 0, ifEof := false, nextIndex := 0 }

def streamOut (r : StreamReassembler) : ByteStream := r.output

def empty (r : StreamReassembler) : Bool := r.unassembled.size == 0

/-- Room left in the output buffer, as the push computes it. -/
def remainingCapacity (r : StreamReassembler) : ℕ := sub64 r.capacity r.output.bufferSize

/-- The part of a substring that is offered to the map, with the index of its first byte. -/
def slice (r : StreamReassembler) (data : List UInt8) (index : ℕ) : ℕ × List UInt8 :=
  let rightEndWindow := u64 (r.nextIndex + r.remainingCapacity)
  let front :=
    if index < r.nextIndex then
      (r.nextIndex,
        if data.length > r.nextIndex - index then data.drop (r.nextIndex - index) else [])
    else
      (index, if index ≥ rightEndWindow then [] else data)
  -- the back is cut to the length of the window, whatever the start index is
  (front.1,
    if front.2.length > r.remainingCapacity then front.2.take r.remainingCapacity else front.2)

theorem slice_nil (r : StreamReassembler) (index : ℕ) : (r.slice [] index).2 = [] := by
  have hfront : ∀ (front : ℕ × List UInt8) (room : ℕ), front.2 = [] →
      (if front.2.length > room then front.2.take room else front.2) = [] := by
    intro front room hnil
    simp [hnil]
  refine hfront _ _ ?_
  split <;> simp

theorem slice_fst (r : StreamReassembler) (data : List UInt8) (index : ℕ) :
    (r.slice data index).1 = max index r.nextIndex := by
  unfold slice
  simp only
  split <;> simp only <;> omega

/-- The substring is not thrown away by the check of its start against the end of the window,
which is computed in 64 bits. -/
def Enters (r : StreamReassembler) (index : ℕ) : Prop :=
  index < r.nextIndex ∨ index < u64 (r.nextIndex + r.remainingCapacity)

instance (r : StreamReassembler) (index : ℕ) : Decidable (r.Enters index) :=
  inferInstanceAs (Decidable (_ ∨ _))

theorem slice_of_not_enters {r : StreamReassembler} {index : ℕ} (h : ¬ r.Enters index)
    (data : List UInt8) : (r.slice data index).2 = [] := by
  obtain ⟨hge, hout⟩ := not_or.mp h
  simp only [slice, if_neg hge, if_pos (not_lt.mp hout), List.length_nil, List.take_nil,
    ite_self]

/-- A substring that enters is offered from the window's start to the window's length. -/
theorem slice_of_enters {r : StreamReassembler} {index : ℕ} (h : r.Enters index)
    (data : List UInt8) :
    (r.slice data index).2 = (data.drop (r.nextIndex - index)).take r.remainingCapacity := by
  have hcut : ∀ sub : List UInt8,
      (if sub.length > r.remainingCapacity then sub.take r.remainingCapacity else sub) =
        sub.take r.remainingCapacity := by
    intro sub
    split
    · rfl
    · rw [List.take_of_length_le (by omega)]
  unfold slice
  simp only
  rw [hcut]
  congr 1
  split
  · simp only
    split
    · rfl
    · rw [List.drop_eq_nil_of_le (by omega)]
  · rename_i hge
    have hin := h.resolve_left hge
    simp only
    rw [if_neg (by omega), show r.nextIndex - index = 0 by omega, List.drop_zero]

/-- The insertion loop: a byte is stored only while the map has at most `capacity` entries. -/
def storeBytes (capacity : ℕ) : ℕ → List UInt8 → SortedMap ℕ UInt8 × ℕ → SortedMap ℕ UInt8 × ℕ
  | _, [], acc => acc
  | key, byte :: rest, acc =>
    storeBytes capacity (key + 1) rest
      (if acc.1.size ≤ capacity then
        (acc.1.insert (u64 key) byte,
          if (acc.1.find? (u64 key)).isNone then acc.2 + 1 else acc.2)
      else acc)

/-- The variables of the assembly loop. -/
structure Assembly where
  unassembled : SortedMap ℕ UInt8
  unassembledBytes : ℕ
  nextIndex : ℕ
  assembled : List UInt8
  assembledBytes : ℕ

/-- One iteration of the assembly loop, at the entry the iterator points to. -/
def assembleStep (capacity : ℕ) (a : Assembly) (e : ℕ × UInt8) : Assembly :=
  if e.1 = a.nextIndex ∧ a.assembledBytes < capacity then
    { unassembled := a.unassembled.erase e.1
      unassembledBytes := a.unassembledBytes - 1
      nextIndex := u64 (a.nextIndex + 1)
      assembled := a.assembled ++ [e.2]
      assembledBytes := a.assembledBytes + 1 }
  else a

/-- The assembly loop: one pass over the map in key order, erasing what it takes. -/
def assemble (capacity : ℕ) (a : Assembly) : Assembly :=
  a.unassembled.entries.foldl (assembleStep capacity) a

/-- The map and the byte count after the storing pass of a push. -/
def stored (r : StreamReassembler) (data : List UInt8) (index : ℕ) : SortedMap ℕ UInt8 × ℕ :=
  storeBytes r.capacity (r.slice data index).1 (r.slice data index).2
    (r.unassembled, r.unassembledBytes)

/-- The loop variables after the assembly pass of a push. -/
def assembly (r : StreamReassembler) (data : List UInt8) (index : ℕ) : Assembly :=
  assemble r.capacity
    { unassembled := (r.stored data index).1
      unassembledBytes := (r.stored data index).2
      nextIndex := r.nextIndex
      assembled := []
      assembledBytes := r.output.bufferSize }

def pushSubstring (r : StreamReassembler) (data : List UInt8) (index : ℕ) (eof : Bool) :
    StreamReassembler :=
  let ifEof := eof || r.ifEof
  let a := r.assembly data index
  let output := (r.output.write a.assembled).1
  { r with
    output := if ifEof && a.unassembledBytes == 0 then output.endInput else output
    unassembled := a.unassembled
    unassembledBytes := a.unassembledBytes
    ifEof := ifEof
    nextIndex := a.nextIndex }

/-- A read of the application from `stream_out()`. -/
def readOut (r : StreamReassembler) (len : ℕ) : StreamReassembler :=
  { r with output := r.output.popOutput len }

/-- What the map holds when a push starts to assemble. -/
def intake (r : StreamReassembler) (data : List UInt8) (index : ℕ) : SortedMap ℕ UInt8 :=
  (r.stored data index).1

/-! ### Which bytes a push holds -/

/-- The storing loop reaches byte `i` with at most `capacity` entries in the map. -/
def Stores (capacity : ℕ) (m : SortedMap ℕ UInt8) (key i : ℕ) : Prop :=
  (m.keys.toFinset ∪ (Finset.range i).image (fun j => u64 (key + j))).card ≤ capacity

instance (capacity : ℕ) (m : SortedMap ℕ UInt8) (key i : ℕ) :
    Decidable (Stores capacity m key i) := inferInstanceAs (Decidable (_ ≤ _))

/-- Stream index `k` is held once a push of `data` at `index` has stored its bytes: it was held
before, or it is the index of a byte that passes both cuts and the map-size guard. -/
def Holds (r : StreamReassembler) (data : List UInt8) (index k : ℕ) : Prop :=
  k ∈ r.unassembled.keys ∨
    ∃ i < (r.slice data index).2.length, k = u64 ((r.slice data index).1 + i) ∧
      Stores r.capacity r.unassembled (r.slice data index).1 i

instance (r : StreamReassembler) (data : List UInt8) (index k : ℕ) :
    Decidable (r.Holds data index k) := inferInstanceAs (Decidable (_ ∨ _))

theorem size_le_of_stores {capacity : ℕ} {m : SortedMap ℕ UInt8} {key i : ℕ}
    (h : Stores capacity m key i) : m.size ≤ capacity := by
  rw [SortedMap.size_eq_card]
  exact (Finset.card_le_card Finset.subset_union_left).trans h

theorem stores_zero {capacity : ℕ} {m : SortedMap ℕ UInt8} {key : ℕ} :
    Stores capacity m key 0 ↔ m.size ≤ capacity := by
  simp [Stores, SortedMap.size_eq_card]

/-- After the first byte has been stored, the guard of the later ones is read off the larger
map. -/
theorem stores_insert {capacity : ℕ} {m : SortedMap ℕ UInt8} {key i : ℕ} {b : UInt8} :
    Stores capacity (m.insert (u64 key) b) (key + 1) i ↔ Stores capacity m key (i + 1) := by
  have hset : (m.insert (u64 key) b).keys.toFinset ∪
        (Finset.range i).image (fun j => u64 (key + 1 + j)) =
      m.keys.toFinset ∪ (Finset.range (i + 1)).image (fun j => u64 (key + j)) := by
    ext k
    simp only [Finset.mem_union, List.mem_toFinset, SortedMap.mem_keys_insert, Finset.mem_image,
      Finset.mem_range]
    constructor
    · intro hor
      rcases hor with (rfl | h) | ⟨j, hj, rfl⟩
      · exact Or.inr ⟨0, by omega, rfl⟩
      · exact Or.inl h
      · exact Or.inr ⟨j + 1, by omega, by rw [show key + (j + 1) = key + 1 + j by omega]⟩
    · intro hor
      rcases hor with h | ⟨j, hj, rfl⟩
      · exact Or.inl (Or.inr h)
      · cases j with
        | zero => exact Or.inl (Or.inl rfl)
        | succ j =>
          exact Or.inr ⟨j, by omega, by rw [show key + (j + 1) = key + 1 + j by omega]⟩
  rw [Stores, hset, Stores]

theorem mem_keys_storeBytes {capacity : ℕ} {k : ℕ} (bytes : List UInt8) (key : ℕ)
    (acc : SortedMap ℕ UInt8 × ℕ) :
    k ∈ (storeBytes capacity key bytes acc).1.keys ↔
      k ∈ acc.1.keys ∨ ∃ i < bytes.length, k = u64 (key + i) ∧ Stores capacity acc.1 key i := by
  induction bytes generalizing key acc with
  | nil => simp [storeBytes]
  | cons b bytes ih =>
    rw [storeBytes, ih]
    split
    · rename_i hroom
      simp only [SortedMap.mem_keys_insert, stores_insert, List.length_cons]
      constructor
      · intro hor
        rcases hor with (rfl | h) | ⟨i, hi, rfl, hst⟩
        · exact Or.inr ⟨0, by omega, rfl, stores_zero.mpr hroom⟩
        · exact Or.inl h
        · exact Or.inr ⟨i + 1, by omega, by rw [show key + (i + 1) = key + 1 + i by omega], hst⟩
      · intro hor
        rcases hor with h | ⟨i, hi, rfl, hst⟩
        · exact Or.inl (Or.inr h)
        · cases i with
          | zero => exact Or.inl (Or.inl rfl)
          | succ i =>
            exact Or.inr ⟨i, by omega, by rw [show key + (i + 1) = key + 1 + i by omega], hst⟩
    · rename_i hfull
      -- a full map stores nothing from here on
      constructor
      · intro hor
        rcases hor with h | ⟨i, _, _, hst⟩
        · exact Or.inl h
        · exact absurd (size_le_of_stores hst) hfull
      · intro hor
        rcases hor with h | ⟨i, _, _, hst⟩
        · exact Or.inl h
        · exact absurd (size_le_of_stores hst) hfull

/-- The storing loop leaves alone every key at which it does not store. -/
theorem find?_storeBytes_of_not_stores {capacity k : ℕ} (bytes : List UInt8) (key : ℕ)
    (acc : SortedMap ℕ UInt8 × ℕ) (hend : key + bytes.length ≤ 2 ^ 64)
    (hnot : ∀ i < bytes.length, k = key + i → ¬ Stores capacity acc.1 key i) :
    (storeBytes capacity key bytes acc).1.find? k = acc.1.find? k := by
  induction bytes generalizing key acc with
  | nil => rfl
  | cons b bytes ih =>
    rw [List.length_cons] at hend hnot
    rw [storeBytes]
    split
    · rename_i hroom
      have hne : k ≠ u64 key := by
        intro heq
        rw [u64_of_lt (by omega)] at heq
        exact hnot 0 (by omega) heq (stores_zero.mpr hroom)
      rw [ih _ _ (by omega), SortedMap.find?_insert_of_ne _ _ hne]
      intro i hi heq
      rw [stores_insert]
      exact hnot (i + 1) (by omega) (by omega)
    · rename_i hfull
      exact ih _ _ (by omega) fun i _ _ hst => hfull (size_le_of_stores hst)

/-- A byte that passes the map-size guard is what the map holds at its index afterwards. -/
theorem find?_storeBytes_of_stores {capacity i : ℕ} (bytes : List UInt8) (key : ℕ)
    (acc : SortedMap ℕ UInt8 × ℕ) (hend : key + bytes.length ≤ 2 ^ 64) (hi : i < bytes.length)
    (hst : Stores capacity acc.1 key i) :
    (storeBytes capacity key bytes acc).1.find? (key + i) = bytes[i]? := by
  induction bytes generalizing key acc i with
  | nil => simp at hi
  | cons b bytes ih =>
    rw [List.length_cons] at hend hi
    rw [storeBytes, if_pos (size_le_of_stores hst)]
    generalize (if (acc.1.find? (u64 key)).isNone then acc.2 + 1 else acc.2) = count
    cases i with
    | zero =>
      have hlater : ∀ j < bytes.length, key + 0 = key + 1 + j →
          ¬ Stores capacity (acc.1.insert (u64 key) b, count).1 (key + 1) j := by
        intro j _ heq
        omega
      have hkey : u64 key = key := u64_of_lt (by omega)
      rw [find?_storeBytes_of_not_stores bytes (key + 1) _ (by omega) hlater, hkey]
      exact SortedMap.find?_insert_self _ _ _
    | succ i =>
      have hnext : Stores capacity (acc.1.insert (u64 key) b, count).1 (key + 1) i :=
        stores_insert.mpr hst
      rw [show key + (i + 1) = key + 1 + i by omega, ih (key + 1) _ (by omega) (by omega) hnext,
        List.getElem?_cons_succ]

/-- Every entry after the storing loop is an old one or one of the bytes, under its index. -/
theorem mem_storeBytes {capacity : ℕ} {x : ℕ × UInt8} (bytes : List UInt8) (key : ℕ)
    (acc : SortedMap ℕ UInt8 × ℕ) (hx : x ∈ (storeBytes capacity key bytes acc).1.entries) :
    x ∈ acc.1.entries ∨ ∃ i, x.1 = u64 (key + i) ∧ bytes[i]? = some x.2 := by
  induction bytes generalizing key acc with
  | nil => exact Or.inl hx
  | cons b bytes ih =>
    rw [storeBytes] at hx
    rcases ih _ _ hx with h | ⟨i, hk, hb⟩
    · split at h
      · rcases SortedMap.mem_insert.mp h with rfl | ⟨h, _⟩
        · exact Or.inr ⟨0, rfl, rfl⟩
        · exact Or.inl h
      · exact Or.inl h
    · exact Or.inr ⟨i + 1, by rw [hk, show key + (i + 1) = key + 1 + i by omega], by simpa using hb⟩

/-- The byte counter keeps step with the map. -/
theorem storeBytes_count {capacity : ℕ} (bytes : List UInt8) (key : ℕ)
    (acc : SortedMap ℕ UInt8 × ℕ) (h : acc.2 = acc.1.size) :
    (storeBytes capacity key bytes acc).2 = (storeBytes capacity key bytes acc).1.size := by
  induction bytes generalizing key acc with
  | nil => exact h
  | cons b bytes ih =>
    rw [storeBytes]
    apply ih
    split
    · simp only [SortedMap.size_insert, h, Option.isNone_iff_eq_none, SortedMap.find?_eq_none,
        ite_not]
    · exact h

theorem mem_keys_intake (r : StreamReassembler) (data : List UInt8) (index k : ℕ) :
    k ∈ (r.intake data index).keys ↔ r.Holds data index k := mem_keys_storeBytes ..

/-! ### The assembly loop -/

/-- **What one pass over the map takes.**  The pass takes a run `w` of consecutive entries from
`nextIndex` on, stops only where the next index is missing or the capacity is used up, and
leaves every other entry. -/
structure Taken (capacity : ℕ) (es : List (ℕ × UInt8)) (a a' : Assembly) (w : List UInt8) :
    Prop where
  assembled : a'.assembled = a.assembled ++ w
  nextIndex : a'.nextIndex = u64 (a.nextIndex + w.length)
  count : a'.unassembledBytes = a'.unassembled.size
  left : ∀ x, x ∈ a'.unassembled.entries ↔
    x ∈ a.unassembled.entries ∧ (x.1 < a.nextIndex ∨ a.nextIndex + w.length ≤ x.1)
  taken : ∀ i b, w[i]? = some b → (a.nextIndex + i, b) ∈ es
  fits : w = [] ∨ a.assembledBytes + w.length ≤ capacity
  stops : a.assembledBytes + w.length < capacity → ∀ e ∈ es, e.1 ≠ a.nextIndex + w.length

/-- The loop variables after the entry `e` has moved out of the map. -/
def Assembly.take (a : Assembly) (e : ℕ × UInt8) : Assembly :=
  { unassembled := a.unassembled.erase e.1
    unassembledBytes := a.unassembledBytes - 1
    nextIndex := u64 (a.nextIndex + 1)
    assembled := a.assembled ++ [e.2]
    assembledBytes := a.assembledBytes + 1 }

section Assemble

variable {capacity : ℕ} {es : List (ℕ × UInt8)} {e : ℕ × UInt8} {a a' : Assembly}
  {w : List UInt8}

theorem Assembly.take_count (hcount : a.unassembledBytes = a.unassembled.size)
    (hmem : e ∈ a.unassembled.entries) :
    (a.take e).unassembledBytes = (a.take e).unassembled.size := by
  show a.unassembledBytes - 1 = (a.unassembled.erase e.1).size
  rw [SortedMap.size_erase_of_mem (SortedMap.mem_keys.mpr ⟨e.2, hmem⟩), hcount]

theorem Taken.nil (hcount : a.unassembledBytes = a.unassembled.size)
    (hnext : a.nextIndex < 2 ^ 64) : Taken capacity [] a a [] := by
  refine ⟨by simp, by simp [u64_of_lt hnext], hcount, fun x => ?_, by simp, Or.inl rfl, by simp⟩
  rw [List.length_nil, Nat.add_zero]
  exact ⟨fun h => ⟨h, by omega⟩, fun h => h.1⟩

/-- The iterator is at `nextIndex` and there is room: the entry starts the run. -/
theorem Taken.cons (hkey : e.1 = a.nextIndex) (hroom : a.assembledBytes < capacity)
    (hwrap : a.nextIndex + 1 < 2 ^ 64) (h : Taken capacity es (a.take e) a' w) :
    Taken capacity (e :: es) a a' (e.2 :: w) := by
  have hnext : (a.take e).nextIndex = a.nextIndex + 1 := u64_of_lt hwrap
  have hbytes : (a.take e).assembledBytes = a.assembledBytes + 1 := rfl
  obtain ⟨h1, h2, h3, h4, h5, h6, h7⟩ := h
  simp only [hnext, hbytes] at h2 h4 h5 h6 h7
  refine ⟨?_, ?_, h3, fun x => ?_, ?_, Or.inr ?_, ?_⟩
  · rw [h1]
    exact List.append_assoc ..
  · rw [h2, List.length_cons, Nat.add_assoc, Nat.add_comm 1]
  · rw [h4 x, show (a.take e).unassembled = a.unassembled.erase e.1 from rfl,
      SortedMap.mem_erase, List.length_cons, hkey]
    constructor
    · intro ⟨⟨hx, hne⟩, hrange⟩
      exact ⟨hx, by omega⟩
    · intro ⟨hx, hrange⟩
      exact ⟨⟨hx, by omega⟩, by omega⟩
  · intro i b hb
    cases i with
    | zero =>
      rw [List.getElem?_cons_zero, Option.some.injEq] at hb
      rw [Nat.add_zero, ← hkey, ← hb]
      exact List.mem_cons_self
    | succ i =>
      rw [List.getElem?_cons_succ] at hb
      rw [show a.nextIndex + (i + 1) = a.nextIndex + 1 + i by omega]
      exact List.mem_cons_of_mem _ (h5 i b hb)
  · rw [List.length_cons]
    rcases h6 with rfl | h6
    · rw [List.length_nil]
      omega
    · omega
  · intro hlen x hx
    rw [List.length_cons] at hlen ⊢
    rcases List.mem_cons.mp hx with rfl | hx
    · omega
    · have := h7 (by omega) x hx
      omega

/-- The last entry of the map is taken; the index after it may wrap. -/
theorem Taken.last (hkey : e.1 = a.nextIndex) (hroom : a.assembledBytes < capacity)
    (hcount : a.unassembledBytes = a.unassembled.size) (hmem : e ∈ a.unassembled.entries) :
    Taken capacity [e] a (a.take e) [e.2] := by
  refine ⟨rfl, rfl, Assembly.take_count hcount hmem, fun x => ?_, ?_, Or.inr ?_, ?_⟩
  · rw [show (a.take e).unassembled = a.unassembled.erase e.1 from rfl, SortedMap.mem_erase,
      List.length_singleton, hkey]
    constructor
    · intro ⟨hx, hne⟩
      exact ⟨hx, by omega⟩
    · intro ⟨hx, hrange⟩
      exact ⟨hx, by omega⟩
  · intro i b hb
    cases i with
    | zero =>
      rw [List.getElem?_cons_zero, Option.some.injEq] at hb
      rw [Nat.add_zero, ← hkey, ← hb]
      exact List.mem_cons_self
    | succ i => simp at hb
  · rw [List.length_singleton]
    omega
  · intro _ x hx
    rw [List.mem_singleton.mp hx, List.length_singleton]
    omega

/-- An entry that is skipped lies below the run, or the run is empty. -/
theorem Taken.skip (hskip : ¬ (e.1 = a.nextIndex ∧ a.assembledBytes < capacity))
    (hhead : ∀ x ∈ es, e.1 < x.1) (h : Taken capacity es a a' w) :
    Taken capacity (e :: es) a a' w := by
  refine { h with
    taken := fun i b hb => List.mem_cons_of_mem _ (h.taken i b hb), stops := ?_ }
  intro hlen x hx
  rcases List.mem_cons.mp hx with rfl | hx
  · cases w with
    | nil =>
      rw [List.length_nil, Nat.add_zero] at hlen ⊢
      exact fun heq => hskip ⟨heq, hlen⟩
    | cons b w =>
      have hfirst := hhead _ (h.taken 0 b rfl)
      rw [Nat.add_zero] at hfirst
      omega
  · exact h.stops hlen x hx

theorem foldl_assembleStep (capacity : ℕ) (es : List (ℕ × UInt8))
    (hs : es.Pairwise (fun a b => a.1 < b.1)) (hlt : ∀ e ∈ es, e.1 < 2 ^ 64) (a : Assembly)
    (hsub : ∀ e ∈ es, e ∈ a.unassembled.entries)
    (hcount : a.unassembledBytes = a.unassembled.size) (hnext : a.nextIndex < 2 ^ 64) :
    ∃ w, Taken capacity es a (es.foldl (assembleStep capacity) a) w := by
  induction es generalizing a with
  | nil => exact ⟨[], Taken.nil hcount hnext⟩
  | cons e es ih =>
    obtain ⟨hhead, htail⟩ := List.pairwise_cons.mp hs
    have hlt' : ∀ x ∈ es, x.1 < 2 ^ 64 := fun x hx => hlt x (List.mem_cons_of_mem _ hx)
    have hmem : e ∈ a.unassembled.entries := hsub e List.mem_cons_self
    rw [List.foldl_cons]
    by_cases htake : e.1 = a.nextIndex ∧ a.assembledBytes < capacity
    · rw [show assembleStep capacity a e = a.take e from if_pos htake]
      by_cases hwrap : a.nextIndex + 1 < 2 ^ 64
      · obtain ⟨w, hw⟩ := ih htail hlt' (a.take e)
          (fun x hx => SortedMap.mem_erase.mpr
            ⟨hsub x (List.mem_cons_of_mem _ hx), ne_of_gt (hhead x hx)⟩)
          (Assembly.take_count hcount hmem) (u64_lt _)
        exact ⟨e.2 :: w, hw.cons htake.1 htake.2 hwrap⟩
      · -- the last 64-bit index was taken: no key lies beyond it
        have hnil : es = [] := by
          cases es with
          | nil => rfl
          | cons x xs =>
            have h1 := hhead x List.mem_cons_self
            have h2 := hlt' x List.mem_cons_self
            omega
        rw [hnil]
        exact ⟨[e.2], Taken.last htake.1 htake.2 hcount hmem⟩
    · rw [show assembleStep capacity a e = a from if_neg htake]
      obtain ⟨w, hw⟩ := ih htail hlt' a (fun x hx => hsub x (List.mem_cons_of_mem _ hx)) hcount
        hnext
      exact ⟨w, hw.skip htake hhead⟩

end Assemble

/-! ### One push -/

/-- The representation invariant: the output is well formed with the same capacity, the counter
counts the map, and all indices are 64-bit. -/
structure WF (r : StreamReassembler) : Prop where
  out : r.output.WF
  sameCapacity : r.output.capacity = r.capacity
  count : r.unassembledBytes = r.unassembled.size
  keys : ∀ e ∈ r.unassembled.entries, e.1 < 2 ^ 64
  next : r.nextIndex < 2 ^ 64

/-- What a push that assembles the bytes `w` does to the state. -/
structure Pushed (r : StreamReassembler) (data : List UInt8) (index : ℕ) (eof : Bool)
    (w : List UInt8) (r' : StreamReassembler) : Prop where
  capacity : r'.capacity = r.capacity
  ifEof : r'.ifEof = (eof || r.ifEof)
  nextIndex : r'.nextIndex = u64 (r.nextIndex + w.length)
  output : r'.output = if (eof || r.ifEof) && r'.unassembled.size == 0
    then (r.output.write w).1.endInput else (r.output.write w).1
  count : r'.unassembledBytes = r'.unassembled.size
  left : ∀ x, x ∈ r'.unassembled.entries ↔ x ∈ (r.intake data index).entries ∧
    (x.1 < r.nextIndex ∨ r.nextIndex + w.length ≤ x.1)
  taken : ∀ i b, w[i]? = some b → (r.nextIndex + i, b) ∈ (r.intake data index).entries
  fits : r.output.buffer.length + w.length ≤ r.capacity
  stops : r.output.buffer.length + w.length < r.capacity →
    r.nextIndex + w.length ∉ (r.intake data index).keys

theorem WF.intake_keys {r : StreamReassembler} (h : r.WF) {data : List UInt8} {index : ℕ}
    {e : ℕ × UInt8} (he : e ∈ (r.intake data index).entries) : e.1 < 2 ^ 64 := by
  rcases mem_storeBytes _ _ _ he with h' | ⟨i, hi, _⟩
  · exact h.keys e h'
  · rw [hi]
    exact u64_lt _

/-- **The specification of `pushSubstring`.** -/
theorem pushSubstring_spec {r : StreamReassembler} (h : r.WF) (data : List UInt8) (index : ℕ)
    (eof : Bool) : ∃ w, Pushed r data index eof w (r.pushSubstring data index eof) := by
  have hcount : (r.stored data index).2 = (r.intake data index).size :=
    storeBytes_count _ _ _ h.count
  obtain ⟨w, ht⟩ :=
    foldl_assembleStep r.capacity (r.intake data index).entries
      (r.intake data index).sorted (fun e he => h.intake_keys he)
      { unassembled := r.intake data index
        unassembledBytes := (r.stored data index).2
        nextIndex := r.nextIndex
        assembled := []
        assembledBytes := r.output.bufferSize }
      (fun e he => he) hcount h.next
  have hw : (r.assembly data index).assembled = w := ht.assembled
  have hleft : (r.assembly data index).unassembledBytes =
      (r.assembly data index).unassembled.size := ht.count
  refine ⟨w, rfl, rfl, ht.nextIndex, ?_, ht.count, ht.left, ht.taken, ?_, ?_⟩
  · rw [← hw]
    show (if (eof || r.ifEof) && (r.assembly data index).unassembledBytes == 0 then _ else _) = _
    rw [hleft]
    rfl
  · have hfits := h.out.fits
    rw [h.sameCapacity] at hfits
    rcases ht.fits with rfl | hroom
    · simpa using hfits
    · exact hroom
  · intro hlt hmem
    obtain ⟨b, hb⟩ := SortedMap.mem_keys.mp hmem
    exact ht.stops hlt _ hb rfl

theorem Pushed.output_capacity {r r' : StreamReassembler} {data w : List UInt8} {index : ℕ}
    {eof : Bool} (hp : Pushed r data index eof w r') : r'.output.capacity = r.output.capacity := by
  rw [hp.output]
  split <;> simp [ByteStream.endInput]

theorem Pushed.output_buffer {r r' : StreamReassembler} {data w : List UInt8} {index : ℕ}
    {eof : Bool} (hp : Pushed r data index eof w r') :
    r'.output.buffer = r.output.buffer ++ r.output.accepted w := by
  rw [hp.output]
  split <;> simp [ByteStream.endInput]

theorem Pushed.output_numWritten {r r' : StreamReassembler} {data w : List UInt8} {index : ℕ}
    {eof : Bool} (hp : Pushed r data index eof w r') :
    r'.output.numWritten = (r.output.write w).1.numWritten := by
  rw [hp.output]
  split <;> rfl

/-- The stream is ended by a push exactly when an `eof` has been seen and nothing is left. -/
theorem Pushed.inputEnded_iff {r r' : StreamReassembler} {data w : List UInt8} {index : ℕ}
    {eof : Bool} (hp : Pushed r data index eof w r') :
    r'.output.inputEnded = true ↔ r.output.inputEnded = true ∨
      ((eof = true ∨ r.ifEof = true) ∧ r'.unassembled.entries = []) := by
  rw [hp.output]
  split
  · rename_i hend
    have : (eof = true ∨ r.ifEof = true) ∧ r'.unassembled.entries = [] := by
      simpa [SortedMap.size] using hend
    simp [ByteStream.endInput, this]
  · rename_i hend
    have : ¬((eof = true ∨ r.ifEof = true) ∧ r'.unassembled.entries = []) := by
      simpa [SortedMap.size] using hend
    simp [this]

theorem WF.pushSubstring {r : StreamReassembler} (h : r.WF) (data : List UInt8) (index : ℕ)
    (eof : Bool) : (r.pushSubstring data index eof).WF := by
  obtain ⟨w, hp⟩ := pushSubstring_spec h data index eof
  refine ⟨?_, ?_, hp.count, ?_, ?_⟩
  · rw [hp.output]
    split
    · exact (h.out.write w).endInput
    · exact h.out.write w
  · rw [hp.output_capacity, hp.capacity, h.sameCapacity]
  · intro e he
    exact h.intake_keys ((hp.left e).mp he).1
  · rw [hp.nextIndex]
    exact u64_lt _

theorem WF.readOut {r : StreamReassembler} (h : r.WF) (len : ℕ) : (r.readOut len).WF :=
  ⟨h.out.popOutput len, h.sameCapacity, h.count, h.keys, h.next⟩

theorem new_WF {capacity : ℕ} (h : capacity < 2 ^ 64) : (new capacity).WF :=
  ⟨ByteStream.new_WF h, rfl, rfl, (by intro e he; cases he), Nat.two_pow_pos 64⟩

/-! ### Pushes without effect -/

/-- A map beyond the guard takes nothing. -/
theorem storeBytes_of_full {capacity : ℕ} (bytes : List UInt8) (key : ℕ)
    (acc : SortedMap ℕ UInt8 × ℕ) (hfull : capacity < acc.1.size) :
    storeBytes capacity key bytes acc = acc := by
  induction bytes generalizing key with
  | nil => rfl
  | cons b bytes ih => rw [storeBytes, if_neg (by omega), ih]

/-- The assembly loop takes nothing when nothing waits, or when the output is full. -/
theorem foldl_assembleStep_of_idle {capacity : ℕ} {a : Assembly} (es : List (ℕ × UInt8))
    (hidle : ∀ e ∈ es, e.1 = a.nextIndex → capacity ≤ a.assembledBytes) :
    es.foldl (assembleStep capacity) a = a := by
  induction es with
  | nil => rfl
  | cons e es ih =>
    have hskip : ¬ (e.1 = a.nextIndex ∧ a.assembledBytes < capacity) := fun ⟨hkey, hroom⟩ =>
      absurd (hidle e List.mem_cons_self hkey) (by omega)
    rw [List.foldl_cons, assembleStep, if_neg hskip]
    exact ih fun x hx => hidle x (List.mem_cons_of_mem _ hx)

/-- A reassembler between two calls: an `eof` with nothing left has ended the output. -/
structure Settled (r : StreamReassembler) : Prop where
  wf : r.WF
  numWritten : r.output.numWritten < 2 ^ 64
  ended : r.ifEof = true → r.unassembledBytes = 0 → r.output.inputEnded = true

theorem Settled.new {capacity : ℕ} (h : capacity < 2 ^ 64) : (new capacity).Settled :=
  ⟨new_WF h, Nat.two_pow_pos 64, fun heof => by cases heof⟩

theorem Settled.readOut {r : StreamReassembler} (h : r.Settled) (len : ℕ) :
    (r.readOut len).Settled := ⟨h.wf.readOut len, h.numWritten, h.ended⟩

theorem Settled.pushSubstring {r : StreamReassembler} (h : r.Settled) (data : List UInt8)
    (index : ℕ) (eof : Bool) : (r.pushSubstring data index eof).Settled := by
  obtain ⟨w, hp⟩ := pushSubstring_spec h.wf data index eof
  refine ⟨h.wf.pushSubstring data index eof, ?_, ?_⟩
  · rw [hp.output_numWritten, ByteStream.write_numWritten h.numWritten]
    exact u64_lt _
  · intro heof hzero
    rw [hp.ifEof, Bool.or_eq_true] at heof
    rw [hp.count] at hzero
    exact hp.inputEnded_iff.mpr (Or.inr ⟨heof, List.length_eq_zero_iff.mp hzero⟩)

/-- **A push without effect.**  It stores nothing, and the byte at `nextIndex` is not held or
finds the output full. -/
theorem Settled.pushSubstring_eq_self {r : StreamReassembler} (h : r.Settled) {data : List UInt8}
    {index : ℕ} (hstored : r.stored data index = (r.unassembled, r.unassembledBytes))
    (hidle : r.nextIndex ∈ r.unassembled.keys → r.capacity ≤ r.output.bufferSize) :
    r.pushSubstring data index false = r := by
  have hassembly : r.assembly data index =
      { unassembled := r.unassembled, unassembledBytes := r.unassembledBytes
        nextIndex := r.nextIndex, assembled := [], assembledBytes := r.output.bufferSize } := by
    rw [assembly, hstored]
    refine foldl_assembleStep_of_idle _ fun e he hkey => hidle ?_
    exact SortedMap.mem_keys.mpr ⟨e.2, by rw [← show e.1 = r.nextIndex from hkey]; exact he⟩
  have hwrite : (r.output.write []).1 = r.output := by
    unfold ByteStream.write
    split
    · rfl
    · simp [u64_of_lt h.numWritten]
  have hout : (if r.ifEof && r.unassembledBytes == 0 then r.output.endInput else r.output) =
      r.output := by
    split
    · rename_i hend
      rw [Bool.and_eq_true, beq_iff_eq] at hend
      rw [ByteStream.endInput, ← h.ended hend.1 hend.2]
    · rfl
  simp only [StreamReassembler.pushSubstring, hassembly, hwrite, Bool.false_or, hout]

/-! ### Slices of one stream -/

/-- The sliced part of a substring of `s` is a substring of `s`. -/
theorem slice_of_prefix_drop {r : StreamReassembler} {s data : List UInt8} {index : ℕ}
    (h : data <+: s.drop index) : (r.slice data index).2 <+: s.drop (r.slice data index).1 := by
  have hfront : ∀ (start : ℕ) (sub : List UInt8), sub <+: s.drop start →
      (if sub.length > r.remainingCapacity then sub.take r.remainingCapacity else sub)
        <+: s.drop start := by
    intro start sub hsub
    split
    · exact (List.take_prefix _ _).trans hsub
    · exact hsub
  unfold slice
  apply hfront
  split
  · rename_i hlt
    show (if data.length > r.nextIndex - index then data.drop (r.nextIndex - index) else [])
      <+: s.drop r.nextIndex
    split
    · have := List.IsPrefix.drop h (r.nextIndex - index)
      rwa [List.drop_drop, show index + (r.nextIndex - index) = r.nextIndex by omega] at this
    · exact List.nil_prefix
  · show (if index ≥ u64 (r.nextIndex + r.remainingCapacity) then [] else data) <+: s.drop index
    split
    · exact List.nil_prefix
    · exact h

theorem nextIndex_le_slice (r : StreamReassembler) (data : List UInt8) (index : ℕ) :
    r.nextIndex ≤ (r.slice data index).1 := by
  rw [slice_fst]
  exact le_max_right _ _

end StreamReassembler

end Sponge
