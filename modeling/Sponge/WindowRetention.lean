import Sponge.Reassembly

/-!
# Which bytes of the window a push keeps

The window of the reassembler is the range of stream indices from `nextIndex` on for which the
output has room.  The source does not bound what it stores by that range: it cuts a substring
to the window's *length*, so a substring that starts late in the window leaves bytes beyond its
end in the map, and it stops storing once the map has more than `capacity` entries.  Bytes
beyond the window can therefore keep out bytes inside it, even the one at `nextIndex`.

`KeepsWindow` says that a push keeps every byte of the window; `Retains` says it of the state
before the push and of its arguments.  `keepsWindow_iff_retains` shows that the two agree in
every state that can be reached.

The same bytes break the bound on the memory of the reassembler.  `WithinCapacity` is that bound
and `StaysInside` says that a push leaves nothing beyond the window: runs of such pushes stay
within the capacity, and while the output is open no other push does.
-/

namespace Sponge

open MachineInt Run

namespace StreamReassembler

/-- Stream index `k` is in the window. -/
def InWindow (r : StreamReassembler) (k : ℕ) : Prop :=
  r.nextIndex ≤ k ∧ k < r.nextIndex + (r.capacity - r.output.bufferSize)

/-- The step from `r` to `r'` wrote the byte `b` of stream index `k` to the output, or the map
holds it. -/
def Kept (r r' : StreamReassembler) (k : ℕ) (b : UInt8) : Prop :=
  (ByteStream.appended r.output r'.output)[k - r.nextIndex]? = some b ∨
    r'.unassembled.find? k = some b

/-- A push of `data` at `index` reaches the byte that the output waits for, with room for it. -/
def Covers (r : StreamReassembler) (data : List UInt8) (index : ℕ) : Prop :=
  index ≤ r.nextIndex ∧ r.nextIndex < index + data.length ∧ r.output.bufferSize < r.capacity

instance (r : StreamReassembler) (data : List UInt8) (index : ℕ) :
    Decidable (r.Covers data index) := inferInstanceAs (Decidable (_ ∧ _))

/-- **No byte of the window is dropped**, and a push that covers `nextIndex` advances it. -/
def KeepsWindow (r : StreamReassembler) (data : List UInt8) (index : ℕ) : Prop :=
  (∀ k b, index ≤ k → data[k - index]? = some b → r.InWindow k →
    Kept r (r.pushSubstring data index false) k b) ∧
  (r.Covers data index → r.nextIndex < (r.pushSubstring data index false).nextIndex)

/-- The byte of stream index `k` in a push at `index` passes the check of the start index and
the map-size guard. -/
def Admits (r : StreamReassembler) (index k : ℕ) : Prop :=
  r.Enters index ∧
    Stores r.capacity r.unassembled (max index r.nextIndex) (k - max index r.nextIndex)

/-- The state before a push, and its arguments, let it keep the window. -/
structure Retains (r : StreamReassembler) (data : List UInt8) (index : ℕ) : Prop where
  /-- Each byte is admitted, or the map holds that very byte already. -/
  admits : ∀ k b, index ≤ k → data[k - index]? = some b → r.InWindow k →
    r.Admits index k ∨ r.unassembled.find? k = some b
  /-- The bytes that leave the map are counted by the `int` of the output's write loop. -/
  counted : ∀ n k, r.RunTo data index n → index ≤ k → k < index + data.length →
    r.nextIndex ≤ k → k < n → k < r.nextIndex + intCount (n - r.nextIndex)
  /-- The next index does not wrap around. -/
  bounded : r.Covers data index → ¬ r.RunTo data index (2 ^ 64)

section

variable {r : StreamReassembler} {data : List UInt8} {index k : ℕ} {b : UInt8}

theorem inWindow_iff (h : r.WF) :
    r.InWindow k ↔ r.nextIndex ≤ k ∧ k < r.nextIndex + r.remainingCapacity := by
  rw [remainingCapacity_eq h]
  rfl

/-- Both cuts leave every byte of the window in place. -/
theorem getElem?_slice (h : r.WF) (hin : r.InWindow k) (hk : index ≤ k)
    (henter : r.Enters index) :
    (r.slice data index).2[k - max index r.nextIndex]? = data[k - index]? := by
  obtain ⟨hge, hlt⟩ := (inWindow_iff h).mp hin
  rw [slice_of_enters henter, List.getElem?_take_of_lt (by omega), List.getElem?_drop]
  congr 1
  omega

theorem slice_end_le (h : r.WF) (hend : index + data.length < 2 ^ 64) :
    (r.slice data index).1 + (r.slice data index).2.length ≤ 2 ^ 64 := by
  have hnext := h.next
  rw [slice_fst]
  by_cases henter : r.Enters index
  · rw [slice_of_enters henter, List.length_take, List.length_drop]
    omega
  · rw [slice_of_not_enters henter, List.length_nil]
    omega

/-- What the map holds at an index of the window when the push starts to assemble. -/
theorem find?_intake_iff (h : r.WF) (hend : index + data.length < 2 ^ 64) (hin : r.InWindow k)
    (hk : index ≤ k) (hb : data[k - index]? = some b) :
    (r.intake data index).find? k = some b ↔
      r.Admits index k ∨ r.unassembled.find? k = some b := by
  have hge := hin.1
  have hkey : k = (r.slice data index).1 + (k - max index r.nextIndex) := by
    rw [slice_fst]
    omega
  by_cases hadmit : r.Admits index k
  · obtain ⟨henter, hstores⟩ := hadmit
    have hbyte := (getElem?_slice h hin hk henter).trans hb
    have hstored : (r.intake data index).find?
        ((r.slice data index).1 + (k - max index r.nextIndex)) = _ :=
      find?_storeBytes_of_stores _ _ _ (slice_end_le h hend)
        (List.getElem?_eq_some_iff.mp hbyte).1 (by rwa [slice_fst])
    rw [← hkey] at hstored
    exact iff_of_true (hstored.trans hbyte) (Or.inl ⟨henter, hstores⟩)
  · -- the byte is not stored, and neither is any other at its index
    have hsame : (r.intake data index).find? k = r.unassembled.find? k := by
      refine find?_storeBytes_of_not_stores _ _ _ (slice_end_le h hend) fun i hi heq hstores => ?_
      have henter : r.Enters index := by
        by_contra hout
        rw [slice_of_not_enters hout] at hi
        exact absurd hi (by simp)
      refine hadmit ⟨henter, ?_⟩
      rwa [← slice_fst r data index, show k - (r.slice data index).1 = i by omega]
    rw [hsame]
    exact ⟨Or.inr, fun hor => hor.resolve_left hadmit⟩

/-- What the output takes of the run that a push assembles. -/
theorem Pushed.accepted_take (h : r.WF) {eof : Bool} {w : List UInt8} {r' : StreamReassembler}
    (hp : Pushed r data index eof w r') (hopen : r.output.inputEnded = false) :
    r.output.accepted w = w.take (intCount w.length) := by
  have hfits := hp.fits
  have hroom := h.out.remainingCapacity_eq
  rw [h.sameCapacity] at hroom
  rw [ByteStream.accepted, hopen, min_eq_left (by omega)]
  rfl

/-- An index of the window is kept if its byte is in the map when the push starts to assemble
and is not lost on the way to the output. -/
theorem Pushed.kept_iff (h : r.WF) {eof : Bool} {w : List UInt8} {r' : StreamReassembler}
    (hp : Pushed r data index eof w r') (hopen : r.output.inputEnded = false)
    (hge : r.nextIndex ≤ k) :
    Kept r r' k b ↔ (r.intake data index).find? k = some b ∧
      (k < r.nextIndex + w.length → k < r.nextIndex + intCount w.length) := by
  rw [Kept, ByteStream.appended_of_buffer hp.output_buffer, hp.accepted_take h hopen,
    SortedMap.find?_eq_some, SortedMap.find?_eq_some, hp.left]
  have hindex : r.nextIndex + (k - r.nextIndex) = k := by omega
  constructor
  · intro hor
    rcases hor with hwritten | ⟨hmem, hrange⟩
    · obtain ⟨hlt, -⟩ := List.getElem?_eq_some_iff.mp hwritten
      rw [List.length_take] at hlt
      rw [List.getElem?_take_of_lt (by omega)] at hwritten
      have hmem := hp.taken _ _ hwritten
      rw [hindex] at hmem
      exact ⟨hmem, fun _ => by omega⟩
    · simp only at hrange
      exact ⟨hmem, by omega⟩
  · intro hall
    obtain ⟨hmem, hcount⟩ := hall
    by_cases hlt : k < r.nextIndex + w.length
    · have hcount := hcount hlt
      obtain ⟨b', hget⟩ : ∃ b', w[k - r.nextIndex]? = some b' :=
        ⟨_, List.getElem?_eq_getElem (by omega)⟩
      have htaken := hp.taken _ _ hget
      rw [hindex] at htaken
      have heq : b' = b := SortedMap.value_unique _ htaken hmem
      rw [heq] at hget
      exact Or.inl (by rw [List.getElem?_take_of_lt (by omega), hget])
    · exact Or.inr ⟨hmem, Or.inr (by simpa using hlt)⟩

/-- The run that a push assembles, in numbers. -/
theorem Pushed.end_le (h : r.WF) {eof : Bool} {w : List UInt8} {r' : StreamReassembler}
    (hp : Pushed r data index eof w r') : r.nextIndex + w.length ≤ 2 ^ 64 := by
  have hnext := h.next
  by_contra hlong
  have htaken := hp.taken (2 ^ 64 - r.nextIndex) _ (List.getElem?_eq_getElem (by omega))
  have := h.intake_keys htaken
  simp only at this
  omega

/-- A push that holds the byte at `nextIndex` takes it, if the output has room. -/
theorem Pushed.length_pos {eof : Bool} {w : List UInt8} {r' : StreamReassembler}
    (hp : Pushed r data index eof w r') (hroom : r.output.bufferSize < r.capacity)
    (hheld : (r.intake data index).find? r.nextIndex = some b) : 0 < w.length := by
  by_contra hzero
  have hzero : w.length = 0 := by omega
  have hmiss := hp.stops (by rw [hzero]; exact hroom)
  rw [hzero, Nat.add_zero] at hmiss
  exact hmiss (SortedMap.mem_keys.mpr ⟨b, SortedMap.find?_eq_some.mp hheld⟩)

/-- **One push keeps the window exactly when `Retains` says so.** -/
theorem keepsWindow_iff (h : r.WF) (hopen : r.output.inputEnded = false)
    (hend : index + data.length < 2 ^ 64) :
    r.KeepsWindow data index ↔ r.Retains data index := by
  obtain ⟨w, hp⟩ := pushSubstring_spec h data index false
  have hrun : ∀ n, r.RunTo data index n ↔ n = r.nextIndex + w.length := fun n => hp.runTo_iff h
  have hlast := hp.end_le h
  have hnext := h.next
  have hfits := hp.fits
  have hadvance : r.nextIndex < (r.pushSubstring data index false).nextIndex ↔
      0 < w.length ∧ r.nextIndex + w.length ≠ 2 ^ 64 := by
    rw [hp.nextIndex, u64]
    omega
  -- a covering push that keeps the byte at `nextIndex` assembles something
  have hcover : (∀ k b, index ≤ k → data[k - index]? = some b → r.InWindow k →
      (r.intake data index).find? k = some b) → r.Covers data index → 0 < w.length := by
    intro hall hcovers
    obtain ⟨hle, hlt, hroom⟩ := hcovers
    have hbyte : data[r.nextIndex - index]? = some _ :=
      List.getElem?_eq_getElem (show r.nextIndex - index < data.length by omega)
    exact hp.length_pos hroom (hall _ _ hle hbyte ⟨le_rfl, by omega⟩)
  constructor
  · intro hkeeps
    obtain ⟨hkept, hadv⟩ := hkeeps
    refine ⟨?_, ?_, ?_⟩
    · intro k b hk hb hin
      exact (find?_intake_iff h hend hin hk hb).mp ((hp.kept_iff h hopen hin.1).mp
        (hkept k b hk hb hin)).1
    · intro n k hn hk hlt hge hkn
      rw [hrun] at hn
      have hbyte : data[k - index]? = some _ :=
        List.getElem?_eq_getElem (show k - index < data.length by omega)
      have hin : r.InWindow k := ⟨hge, by rw [ByteStream.bufferSize]; omega⟩
      have := ((hp.kept_iff h hopen hge).mp (hkept k _ hk hbyte hin)).2 (by omega)
      rwa [hn, Nat.add_sub_cancel_left]
    · intro hcovers hwrap
      rw [hrun] at hwrap
      exact (hadvance.mp (hadv hcovers)).2 hwrap.symm
  · intro hret
    have hheld : ∀ k b, index ≤ k → data[k - index]? = some b → r.InWindow k →
        (r.intake data index).find? k = some b := fun k b hk hb hin =>
      (find?_intake_iff h hend hin hk hb).mpr (hret.admits k b hk hb hin)
    refine ⟨?_, ?_⟩
    · intro k b hk hb hin
      refine (hp.kept_iff h hopen hin.1).mpr ⟨hheld k b hk hb hin, fun hlt => ?_⟩
      have hlen := (List.getElem?_eq_some_iff.mp hb).1
      have := hret.counted _ k ((hrun _).mpr rfl) hk (by omega) hin.1 hlt
      rwa [Nat.add_sub_cancel_left] at this
    · intro hcovers
      refine hadvance.mpr ⟨hcover hheld hcovers, fun hwrap => ?_⟩
      exact hret.bounded hcovers ((hrun _).mpr hwrap.symm)

end

/-! ### Every state that can be reached -/

/-- Without an `eof` the output stays open. -/
structure Open (r : StreamReassembler) : Prop where
  wf : r.WF
  noEof : r.ifEof = false
  isOpen : r.output.inputEnded = false

theorem Open.step {r : StreamReassembler} (h : r.Open) {op : StreamOp}
    (hop : carriesEof op = false) : (streamStep r op).Open := by
  cases op with
  | read len => exact ⟨h.wf.readOut len, h.noEof, h.isOpen⟩
  | push data index eof =>
    have heof : eof = false := hop
    obtain ⟨w, hp⟩ := pushSubstring_spec h.wf data index eof
    refine ⟨h.wf.pushSubstring data index eof, ?_, ?_⟩
    · show (r.pushSubstring data index eof).ifEof = false
      rw [hp.ifEof, heof, h.noEof]
      rfl
    · show (r.pushSubstring data index eof).output.inputEnded = false
      rw [hp.output, heof, h.noEof]
      simpa using h.isOpen

theorem Open.of_run {capacity : ℕ} (hcap : capacity < 2 ^ 64) {ops : List StreamOp}
    (hops : ∀ op ∈ ops, carriesEof op = false) : (run streamStep (new capacity) ops).Open :=
  run_invariant (fun _ _ h hop => h.step hop) ⟨new_WF hcap, rfl, rfl⟩
    (along_of_events hops (new capacity))

/-- **Which pushes keep the window.**  In every state reached by pushes without `eof` and reads,
a further push keeps each byte that lies in the window, and advances `nextIndex` if it covers
it, exactly when each such byte is admitted or held already, the bytes that leave the map can
be counted by an `int`, and the next index does not wrap around. -/
theorem keepsWindow_iff_retains (capacity : ℕ) (hcap : capacity < 2 ^ 64) (ops : List StreamOp)
    (hops : ∀ op ∈ ops, carriesEof op = false) (data : List UInt8) (index : ℕ)
    (hend : index + data.length < 2 ^ 64) :
    (run streamStep (new capacity) ops).KeepsWindow data index ↔
      (run streamStep (new capacity) ops).Retains data index :=
  keepsWindow_iff (Open.of_run hcap hops).wf (Open.of_run hcap hops).isOpen hend

/-- The first byte of `"ab"` arrives after the second. -/
theorem keepsWindow_iff_retains_swapped :
    (run streamStep (new 8) [.push [98] 1 false]).KeepsWindow [97] 0 := by
  refine (keepsWindow_iff_retains 8 (by decide) [.push [98] 1 false] (by decide) [97] 0
    (by decide)).mpr ⟨?_, ?_, ?_⟩
  · intro k b _ hb _
    have hk : k = 0 := by
      have := (List.getElem?_eq_some_iff.mp hb).1
      simpa using this
    subst hk
    exact Or.inl ⟨by decide, by decide⟩
  · intro n k hn _ _ _ hkn
    have hle : n ≤ 0 + 8 := hn.2.1
    rw [intCount_of_lt (by omega)]
    omega
  · intro _ hn
    exact absurd hn.2.1 (by decide)

/-- Seven bytes of one stream with capacity 4: `"defg"` at index 3 leaves three bytes beyond
the window in the map, `"bcde"` at index 1 then loses its second byte, and from there on even
the byte at index 0 is thrown away, although the output is empty. -/
theorem window_byte_dropped :
    let r := run streamStep (new 4) [.push [100, 101, 102, 103] 3 false,
      .push [98, 99, 100, 101] 1 false]
    r.Covers [97] 0 ∧ ¬ r.KeepsWindow [97] 0 ∧ r.pushSubstring [97] 0 false = r := by
  refine ⟨by decide, fun hkeeps => ?_, by decide +kernel⟩
  have hadvance := hkeeps.2 (by decide)
  exact absurd hadvance (by decide)

/-! ### The capacity -/

/-- The bytes in the output buffer and in the map together fit the capacity, and no index in the
map lies beyond the window. -/
def WithinCapacity (r : StreamReassembler) : Prop :=
  r.streamOut.bufferSize + r.unassembledBytes ≤ r.capacity ∧
    ∀ k ∈ r.unassembled.keys, k + r.streamOut.bufferSize < r.nextIndex + r.capacity

instance (r : StreamReassembler) : Decidable r.WithinCapacity :=
  inferInstanceAs (Decidable (_ ∧ _))

/-- The push is thrown away as a whole, starts at or before the next index, where both cuts work,
or ends within the window. -/
def StaysInside (r : StreamReassembler) : StreamOp → Prop
  | .push data index _ => r.Enters index → index + data.length ≤ 2 ^ 64 ∧
      (index ≤ r.nextIndex ∨ index + data.length ≤ r.nextIndex + (r.capacity - r.output.bufferSize))
  | .read _ => True

instance (r : StreamReassembler) : ∀ op : StreamOp, Decidable (r.StaysInside op)
  | .push _ index _ => inferInstanceAs (Decidable (r.Enters index → _ ≤ _ ∧ (_ ≤ _ ∨ _ ≤ _)))
  | .read _ => inferInstanceAs (Decidable True)

/-- Every index in the map is in the window. -/
structure Contained (r : StreamReassembler) : Prop where
  wf : r.WF
  keys : ∀ k ∈ r.unassembled.keys, r.InWindow k

section

variable {r : StreamReassembler} {data : List UInt8} {index k : ℕ} {eof : Bool}

theorem Contained.size_le (h : r.Contained) :
    r.unassembled.size ≤ r.capacity - r.output.bufferSize := by
  have hsub : r.unassembled.keys.toFinset ⊆
      Finset.Ico r.nextIndex (r.nextIndex + (r.capacity - r.output.bufferSize)) := by
    intro k hk
    obtain ⟨hge, hlt⟩ := h.keys k (List.mem_toFinset.mp hk)
    exact Finset.mem_Ico.mpr ⟨hge, hlt⟩
  rw [SortedMap.size_eq_card]
  exact (Finset.card_le_card hsub).trans (by rw [Nat.card_Ico]; omega)

theorem Contained.withinCapacity (h : r.Contained) : r.WithinCapacity := by
  have hfits := h.wf.out.fits
  rw [h.wf.sameCapacity] at hfits
  refine ⟨?_, fun k hk => ?_⟩
  · have hsize := h.size_le
    rw [h.wf.count]
    show r.output.buffer.length + _ ≤ _
    rw [ByteStream.bufferSize] at hsize
    omega
  · obtain ⟨hge, hlt⟩ := h.keys k hk
    show k + r.output.buffer.length < _
    rw [ByteStream.bufferSize] at hlt
    omega

/-- A push that stays inside offers only bytes of the window to the map. -/
theorem Contained.holds_inWindow (h : r.Contained)
    (hin : r.StaysInside (.push data index eof)) (hholds : r.Holds data index k) :
    r.InWindow k := by
  rcases hholds with hold | ⟨i, hi, hk, -⟩
  · exact h.keys k hold
  · have hroom := remainingCapacity_eq h.wf
    have hnext := h.wf.next
    by_cases henter : r.Enters index
    · obtain ⟨hend, hcase⟩ := hin henter
      rw [slice_of_enters henter, List.length_take, List.length_drop, hroom] at hi
      rw [slice_fst, u64_of_lt (by omega)] at hk
      rw [InWindow, ByteStream.bufferSize, hk]
      rw [ByteStream.bufferSize] at hcase
      omega
    · rw [slice_of_not_enters henter] at hi
      exact absurd hi (Nat.not_lt_zero i)

/-- **A push that stays inside keeps the map within the window.** -/
theorem Contained.push (h : r.Contained) (hin : r.StaysInside (.push data index eof)) :
    (r.pushSubstring data index eof).Contained := by
  obtain ⟨w, hp⟩ := pushSubstring_spec h.wf data index eof
  refine ⟨h.wf.pushSubstring data index eof, fun k hk => ?_⟩
  obtain ⟨b, hb⟩ := SortedMap.mem_keys.mp hk
  obtain ⟨hmem, hrange⟩ := (hp.left _).mp hb
  obtain ⟨hge, hlt⟩ := h.holds_inWindow hin
    ((mem_keys_intake r data index k).mp (SortedMap.mem_keys.mpr ⟨b, hmem⟩))
  have hkey : k < 2 ^ 64 := h.wf.intake_keys hmem
  have haccepted := (ByteStream.accepted_prefix r.output w).length_le
  have hfits := hp.fits
  simp only at hrange
  rw [ByteStream.bufferSize] at hlt
  rw [InWindow, hp.capacity, hp.nextIndex, u64_of_lt (by omega), ByteStream.bufferSize,
    hp.output_buffer, List.length_append]
  omega

theorem Contained.step (h : r.Contained) {op : StreamOp} (hin : r.StaysInside op) :
    (streamStep r op).Contained := by
  cases op with
  | push data index eof => exact h.push hin
  | read len =>
    refine ⟨h.wf.readOut len, fun k hk => ?_⟩
    obtain ⟨hge, hlt⟩ := h.keys k hk
    have hless := ByteStream.popOutput_length_le r.output len
    refine ⟨hge, ?_⟩
    show k < r.nextIndex + (r.capacity - (r.output.popOutput len).buffer.length)
    rw [ByteStream.bufferSize] at hlt
    omega

/-- In a map within the window, every byte up to the end of the window passes the map-size
guard, and so does the one after. -/
theorem Contained.stores_edge (h : r.Contained) (hstart : r.nextIndex ≤ index)
    (hedge : r.nextIndex + r.remainingCapacity ≤ 2 ^ 64) :
    Stores r.capacity r.unassembled index (r.nextIndex + r.remainingCapacity - index) := by
  have hroom := remainingCapacity_eq h.wf
  have hsub : r.unassembled.keys.toFinset ∪
      (Finset.range (r.nextIndex + r.remainingCapacity - index)).image
        (fun j => u64 (index + j)) ⊆
      Finset.Ico r.nextIndex (r.nextIndex + r.remainingCapacity) := by
    intro k hk
    rw [Finset.mem_Ico]
    rcases Finset.mem_union.mp hk with hold | hnew
    · exact (inWindow_iff h.wf).mp (h.keys k (List.mem_toFinset.mp hold))
    · obtain ⟨j, hj, rfl⟩ := Finset.mem_image.mp hnew
      rw [Finset.mem_range] at hj
      rw [u64_of_lt (by omega)]
      omega
  refine (Finset.card_le_card hsub).trans ?_
  rw [Nat.card_Ico]
  omega

/-- A push that starts inside the window and goes beyond it stores the first byte beyond. -/
theorem Contained.holds_edge (h : r.Contained) (henter : r.Enters index)
    (hstart : r.nextIndex < index) (hin : index < r.nextIndex + r.remainingCapacity)
    (hlate : r.nextIndex + r.remainingCapacity < index + data.length)
    (hend : index + data.length < 2 ^ 64) :
    r.Holds data index (r.nextIndex + r.remainingCapacity) := by
  refine Or.inr ⟨r.nextIndex + r.remainingCapacity - index, ?_, ?_, ?_⟩
  · rw [slice_of_enters henter, List.length_take, List.length_drop]
    omega
  · rw [slice_fst, u64_of_lt (by omega)]
    omega
  · rw [slice_fst, max_eq_left hstart.le]
    exact h.stores_edge hstart.le (by omega)

/-- While the output is open, a push that does not stay inside breaks the bound. -/
theorem Contained.staysInside_of_within (h : r.Contained) (hopen : r.output.inputEnded = false)
    (hcap : r.capacity < 2 ^ 31) (hend : index + data.length < 2 ^ 64)
    (hwithin : (r.pushSubstring data index eof).WithinCapacity) :
    r.StaysInside (.push data index eof) := by
  intro henter
  refine ⟨hend.le, ?_⟩
  by_contra hout
  obtain ⟨hstart, hlate⟩ := not_or.mp hout
  obtain ⟨w, hp⟩ := pushSubstring_spec h.wf data index eof
  have hroom := remainingCapacity_eq h.wf
  have hfits := hp.fits
  have hnext := h.wf.next
  rw [ByteStream.bufferSize, ← hroom] at hlate
  have hshort : ¬ r.Overlong data index := fun hall => by
    have := hall.1
    omega
  have htaken := hp.accepted_eq h.wf hshort hopen
  have hin : index < r.nextIndex + r.remainingCapacity := by
    rcases henter with hbefore | hwindow
    · omega
    · rw [u64] at hwindow
      omega
  have hholds := h.holds_edge henter (by omega) hin (by omega) hend
  obtain ⟨b, hb⟩ := SortedMap.mem_keys.mp ((mem_keys_intake r data index _).mpr hholds)
  have hleft : (r.nextIndex + r.remainingCapacity, b) ∈
      (r.pushSubstring data index eof).unassembled.entries :=
    (hp.left _).mpr ⟨hb, Or.inr (by simp only; omega)⟩
  have hbound := hwithin.2 _ (SortedMap.mem_keys.mpr ⟨b, hleft⟩)
  rw [hp.nextIndex, u64_of_lt (by omega), hp.capacity, streamOut, ByteStream.bufferSize,
    hp.output_buffer, htaken, List.length_append] at hbound
  omega

end

theorem Contained.new {capacity : ℕ} (hcap : capacity < 2 ^ 64) : (new capacity).Contained :=
  ⟨new_WF hcap, fun _ hk => absurd hk List.not_mem_nil⟩

/-- The end of the push is a 64-bit index. -/
def EndsIndexed : StreamOp → Prop
  | .push data index _ => index + data.length < 2 ^ 64
  | .read _ => True

instance : ∀ op : StreamOp, Decidable (EndsIndexed op)
  | .push _ _ _ => inferInstanceAs (Decidable (_ < _))
  | .read _ => inferInstanceAs (Decidable True)

/-- An open reassembler of fewer than `2 ^ 31` bytes, within its window. -/
structure OpenInside (capacity : ℕ) (r : StreamReassembler) : Prop extends Contained r, Open r where
  sameSize : r.capacity = capacity

theorem OpenInside.step {capacity : ℕ} {r : StreamReassembler} (h : OpenInside capacity r)
    {op : StreamOp} (hop : carriesEof op = false) (hin : r.StaysInside op) :
    OpenInside capacity (streamStep r op) := by
  refine ⟨h.toContained.step hin, (h.toOpen.step hop).noEof, (h.toOpen.step hop).isOpen, ?_⟩
  cases op with
  | push data index eof => exact h.sameSize
  | read len => exact h.sameSize

theorem OpenInside.within_iff {capacity : ℕ} {r : StreamReassembler} (h : OpenInside capacity r)
    (hcap : capacity < 2 ^ 31) {op : StreamOp} (hop : EndsIndexed op) :
    (streamStep r op).WithinCapacity ↔ r.StaysInside op := by
  constructor
  · intro hwithin
    cases op with
    | push data index eof =>
      have hsize := h.sameSize
      exact h.toContained.staysInside_of_within h.isOpen (by omega) hop hwithin
    | read len => trivial
  · intro hin
    exact (h.toContained.step hin).withinCapacity

/-- **The reassembler respects its capacity along the runs whose pushes stay inside the window.**
This holds for any data, index and `eof`.  For pushes without `eof` and a capacity below
`2 ^ 31` these are the only such runs. -/
theorem withinCapacity_of_staysInside (capacity : ℕ) (hcap : capacity < 2 ^ 64)
    (ops : List StreamOp) :
    (Along streamStep StaysInside (new capacity) ops →
      Along streamStep (fun r op => (streamStep r op).WithinCapacity) (new capacity) ops) ∧
    (capacity < 2 ^ 31 → (∀ op ∈ ops, carriesEof op = false ∧ EndsIndexed op) →
      (Along streamStep (fun r op => (streamStep r op).WithinCapacity) (new capacity) ops ↔
        Along streamStep StaysInside (new capacity) ops)) := by
  refine ⟨fun hok => ?_, fun hsmall hops => ?_⟩
  · refine along_of_invariant (I := Contained) ?_ ?_ (.new hcap) hok
    · exact fun _ _ h hin => h.step hin
    · exact fun _ _ h hin => (h.step hin).withinCapacity
  · refine along_iff_of_invariant (I := OpenInside capacity) ?_ ?_ ?_ (along_of_events hops _)
    · exact fun _ _ h hop hin => h.step hop.1 hin
    · exact fun _ _ h hop => h.within_iff hsmall hop.2
    · exact ⟨.new hcap, rfl, rfl, rfl⟩

/-- Two pushes that stay inside a window of four bytes, with and without `eof`. -/
theorem withinCapacity_of_staysInside_swapped :
    Along streamStep (fun r op => (streamStep r op).WithinCapacity) (new 4)
        [.push [99, 100] 2 true, .push [97, 98] 0 false] ∧
      Along streamStep StaysInside (new 4) [.push [99, 100] 2 false, .push [97, 98] 0 false] :=
  ⟨(withinCapacity_of_staysInside 4 (by decide) _).1 (by decide),
    ((withinCapacity_of_staysInside 4 (by decide) _).2 (by decide) (by decide)).mp (by decide)⟩

/-- With capacity 4, the bytes `"defg"` at index 3 and `"bcde"` at index 1 leave five bytes in
the map, the last of them at index 6. -/
theorem capacity_exceeded :
    let r := run streamStep (new 4) [.push [100, 101, 102, 103] 3 false,
      .push [98, 99, 100, 101] 1 false]
    r.streamOut.bufferSize = 0 ∧ r.unassembledBytes = 5 ∧ r.unassembled.keys = [1, 3, 4, 5, 6] ∧
      ¬ r.WithinCapacity := by
  decide +kernel

end StreamReassembler

end Sponge
