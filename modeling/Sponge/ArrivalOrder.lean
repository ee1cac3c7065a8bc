import Sponge.WindowRetention

/-!
# Reassembly does not depend on the order of arrival

A stream that fits the capacity is pushed in pieces, in any order, with overlaps and repetitions,
and nothing is read in between.  Then no cut and no guard of the source ever discards a byte, and
the state after any list of pushes has a closed form in terms of the set of covered indices:
the output holds the stream up to the first index that is missing, and the map holds the rest.
`Arrived` is this closed form and `Arrived.push` shows that a push adds its indices to the set.
Two lists that cover the same indices lead to the same state.
-/

namespace Sponge

open MachineInt Run Slices

namespace StreamReassembler

/-! ### Covered indices -/

/-- The indices in a list of intervals. -/
def covered (pieces : List (ℕ × ℕ)) : Finset ℕ :=
  pieces.toFinset.biUnion fun p => Finset.Ico p.1 p.2

theorem mem_covered {pieces : List (ℕ × ℕ)} {k : ℕ} :
    k ∈ covered pieces ↔ ∃ p ∈ pieces, p.1 ≤ k ∧ k < p.2 := by
  simp [covered]

theorem covered_concat (pieces : List (ℕ × ℕ)) (p : ℕ × ℕ) :
    covered (pieces ++ [p]) = covered pieces ∪ Finset.Ico p.1 p.2 := by
  ext k
  simp only [Finset.mem_union, Finset.mem_Ico, mem_covered, List.mem_append, List.mem_singleton]
  constructor
  · intro hall
    obtain ⟨q, hq | rfl, hk⟩ := hall
    · exact Or.inl ⟨q, hq, hk⟩
    · exact Or.inr hk
  · intro hor
    rcases hor with ⟨q, hq, hk⟩ | hk
    · exact ⟨q, Or.inl hq, hk⟩
    · exact ⟨p, Or.inr rfl, hk⟩

theorem covered_of_perm {pieces pieces' : List (ℕ × ℕ)} (h : pieces.Perm pieces') :
    covered pieces = covered pieces' := by
  ext k
  simp only [mem_covered, h.mem_iff]

/-- The end of the longest run of indices from zero on. -/
def firstMissing (indices : Finset ℕ) : ℕ := Nat.find (Infinite.exists_notMem_finset indices)

theorem firstMissing_eq_iff {indices : Finset ℕ} {n : ℕ} :
    firstMissing indices = n ↔ n ∉ indices ∧ ∀ k < n, k ∈ indices := by
  rw [firstMissing, Nat.find_eq_iff]
  simp only [not_not]

/-! ### One push -/

/-- The push of one interval of a stream. -/
def piece (s : List UInt8) (p : ℕ × ℕ) : StreamOp :=
  .push ((s.drop p.1).take (p.2 - p.1)) p.1 false

/-- A new reassembler after the pushes of these intervals, in their order. -/
def pushAll (s : List UInt8) (capacity : ℕ) (pieces : List (ℕ × ℕ)) : StreamReassembler :=
  run streamStep (new capacity) (pieces.map (piece s))

/-- The state after pushes that cover the given indices, with nothing read. -/
structure Arrived (s : List UInt8) (capacity : ℕ) (indices : Finset ℕ) (r : StreamReassembler) :
    Prop where
  isOpen : Open r
  content : Content s r.output.buffer r
  size : r.capacity = capacity
  inside : ∀ k ∈ indices, k < s.length
  keys : ∀ k, k ∈ r.unassembled.keys ↔ k ∈ indices ∧ r.nextIndex ≤ k
  next : firstMissing indices = r.nextIndex
  output : r.output = { ByteStream.new capacity with
    buffer := s.take r.nextIndex, numWritten := r.nextIndex }

section

variable {s : List UInt8} {capacity : ℕ} {indices : Finset ℕ} {r r' : StreamReassembler}
  {i j : ℕ}

theorem Arrived.new (hcap : capacity < 2 ^ 64) (s : List UInt8) :
    Arrived s capacity ∅ (new capacity) where
  isOpen := ⟨new_WF hcap, rfl, rfl⟩
  content := .new hcap s
  size := rfl
  inside _ hk := absurd hk (Finset.notMem_empty _)
  keys k := by simp [StreamReassembler.new, SortedMap.empty, SortedMap.keys]
  next := firstMissing_eq_iff.mpr ⟨Finset.notMem_empty _, fun k hk => absurd hk (Nat.not_lt_zero k)⟩
  output := rfl

/-- Everything that was written is in the buffer, so the window ends at the capacity. -/
theorem Arrived.buffer_length (h : Arrived s capacity indices r) :
    r.output.buffer.length = r.nextIndex := by
  rw [h.content.written_open h.isOpen.isOpen, List.length_take]
  exact min_eq_left h.content.next_le

/-- The map-size guard never closes. -/
theorem Arrived.stores (h : Arrived s capacity indices r) (hs : s.length ≤ capacity)
    (hcap : capacity < 2 ^ 31) {key t : ℕ} (hend : key + t ≤ s.length) :
    Stores r.capacity r.unassembled key t := by
  have hsub : r.unassembled.keys.toFinset ∪ (Finset.range t).image (fun j => u64 (key + j)) ⊆
      Finset.range s.length := by
    intro k hk
    rw [Finset.mem_range]
    rcases Finset.mem_union.mp hk with hold | hnew
    · exact h.inside k ((h.keys k).mp (List.mem_toFinset.mp hold)).1
    · obtain ⟨j, hj, rfl⟩ := Finset.mem_image.mp hnew
      rw [Finset.mem_range] at hj
      rw [u64_of_lt (by omega)]
      omega
  have hsize := h.size
  refine (Finset.card_le_card hsub).trans ?_
  rw [Finset.card_range]
  omega

/-- **Nothing is discarded**: after the storing pass, the map holds every index that is covered
and not yet written. -/
theorem Arrived.holds_iff (h : Arrived s capacity indices r) (hs : s.length ≤ capacity)
    (hcap : capacity < 2 ^ 31) (hj : j ≤ s.length) {k : ℕ} :
    r.Holds ((s.drop i).take (j - i)) i k ↔
      k ∈ indices ∪ Finset.Ico i j ∧ r.nextIndex ≤ k := by
  have hbuffer := h.buffer_length
  have hroom := remainingCapacity_eq h.isOpen.wf
  have hsize := h.size
  have hnext := h.content.next_le
  have hdata : ((s.drop i).take (j - i)).length = j - i := by
    rw [List.length_take, List.length_drop]
    omega
  rw [Finset.mem_union, Finset.mem_Ico]
  constructor
  · intro hholds
    rcases hholds with hold | ⟨t, ht, hk, -⟩
    · obtain ⟨hin, hge⟩ := (h.keys k).mp hold
      exact ⟨Or.inl hin, hge⟩
    · by_cases henter : r.Enters i
      · rw [slice_of_enters henter, List.length_take, List.length_drop, hdata] at ht
        rw [slice_fst, u64_of_lt (by omega)] at hk
        exact ⟨Or.inr ⟨by omega, by omega⟩, by omega⟩
      · rw [slice_of_not_enters henter] at ht
        exact absurd ht (Nat.not_lt_zero t)
  · intro hall
    obtain ⟨hold | ⟨hik, hkj⟩, hge⟩ := hall
    · exact Or.inl ((h.keys k).mpr ⟨hold, hge⟩)
    · have henter : r.Enters i := by
        refine Or.inr ?_
        rw [u64_of_lt (by omega)]
        omega
      refine Or.inr ⟨k - max i r.nextIndex, ?_, ?_, ?_⟩
      · rw [slice_of_enters henter, List.length_take, List.length_drop, hdata]
        omega
      · rw [slice_fst, u64_of_lt (by omega)]
        omega
      · rw [slice_fst]
        exact h.stores hs hcap (by omega)

/-- What an open output is after a write. -/
theorem write_of_open {out : ByteStream} (hopen : out.inputEnded = false) (w : List UInt8) :
    (out.write w).1 = { out with
      buffer := out.buffer ++ out.accepted w
      numWritten := u64 (out.numWritten + (out.accepted w).length) } := by
  rw [ByteStream.write, ByteStream.accepted, hopen]
  rfl

/-- No push of such a stream is too long for the write loop. -/
theorem Arrived.not_overlong (h : Arrived s capacity indices r) (hcap : capacity < 2 ^ 31) :
    ¬ r.Overlong ((s.drop i).take (j - i)) i := by
  intro hall
  have hover := hall.1
  have hroom := remainingCapacity_eq h.isOpen.wf
  have hsize := h.size
  omega

theorem Arrived.inside_union (h : Arrived s capacity indices r) (hj : j ≤ s.length) :
    ∀ k ∈ indices ∪ Finset.Ico i j, k < s.length := by
  intro k hk
  rcases Finset.mem_union.mp hk with hold | hnew
  · exact h.inside k hold
  · exact (Finset.mem_Ico.mp hnew).2.trans_le hj

section Push

variable {w : List UInt8}

theorem Arrived.pushed_nextIndex (h : Arrived s capacity indices r) (hs : s.length ≤ capacity)
    (hcap : capacity < 2 ^ 31) (hp : Pushed r ((s.drop i).take (j - i)) i false w r') :
    r'.nextIndex = r.nextIndex + w.length :=
  h.content.pushed_next (by omega) (List.take_prefix ..) hp

/-- What a push leaves in the map. -/
theorem Arrived.pushed_keys (h : Arrived s capacity indices r) (hs : s.length ≤ capacity)
    (hcap : capacity < 2 ^ 31) (hj : j ≤ s.length)
    (hp : Pushed r ((s.drop i).take (j - i)) i false w r') (k : ℕ) :
    k ∈ r'.unassembled.keys ↔ k ∈ indices ∪ Finset.Ico i j ∧ r'.nextIndex ≤ k := by
  rw [h.pushed_nextIndex hs hcap hp, SortedMap.mem_keys]
  constructor
  · intro hall
    obtain ⟨b, hb⟩ := hall
    obtain ⟨hmem, hrange⟩ := (hp.left _).mp hb
    obtain ⟨hin, hge⟩ := (h.holds_iff hs hcap hj).mp
      ((mem_keys_intake ..).mp (SortedMap.mem_keys.mpr ⟨b, hmem⟩))
    simp only at hrange
    exact ⟨hin, by omega⟩
  · intro hall
    obtain ⟨hin, hge⟩ := hall
    obtain ⟨b, hb⟩ := SortedMap.mem_keys.mp
      ((mem_keys_intake ..).mpr ((h.holds_iff hs hcap hj).mpr ⟨hin, by omega⟩))
    exact ⟨b, (hp.left _).mpr ⟨hb, Or.inr hge⟩⟩

/-- How far a push assembles. -/
theorem Arrived.pushed_firstMissing (h : Arrived s capacity indices r) (hs : s.length ≤ capacity)
    (hcap : capacity < 2 ^ 31) (hj : j ≤ s.length)
    (hp : Pushed r ((s.drop i).take (j - i)) i false w r') :
    firstMissing (indices ∪ Finset.Ico i j) = r'.nextIndex := by
  have hbuffer := h.buffer_length
  have hsize := h.size
  rw [h.pushed_nextIndex hs hcap hp, firstMissing_eq_iff]
  refine ⟨fun hin => ?_, fun k hk => ?_⟩
  · -- with room left the pass would have gone on, and without it the stream is complete
    by_cases hroom : r.output.buffer.length + w.length < r.capacity
    · exact hp.stops hroom
        ((mem_keys_intake ..).mpr ((h.holds_iff hs hcap hj).mpr ⟨hin, by omega⟩))
    · have := h.inside_union hj _ hin
      omega
  · by_cases hold : k < r.nextIndex
    · exact Finset.mem_union_left _ ((firstMissing_eq_iff.mp h.next).2 k hold)
    · exact ((h.holds_iff hs hcap hj).mp (hp.holds_of_lt (by omega) hk)).1

theorem Arrived.pushed_output (h : Arrived s capacity indices r) (hs : s.length ≤ capacity)
    (hcap : capacity < 2 ^ 31) (hp : Pushed r ((s.drop i).take (j - i)) i false w r') :
    r'.output = { ByteStream.new capacity with
      buffer := s.take r'.nextIndex, numWritten := r'.nextIndex } := by
  have hw := h.content.taken (by omega) (List.take_prefix ..) hp
  have hlen := length_le_of_prefix_drop h.content.next_le hw
  have hend : u64 (r.nextIndex + w.length) = r.nextIndex + w.length := u64_of_lt (by omega)
  have haccepted := hp.accepted_eq h.isOpen.wf (h.not_overlong hcap) h.isOpen.isOpen
  have hout := hp.output
  rw [show (false || r.ifEof) = false by rw [h.isOpen.noEof]; rfl, Bool.false_and,
    if_neg (by decide), write_of_open h.isOpen.isOpen, haccepted] at hout
  rw [hout, h.pushed_nextIndex hs hcap hp, h.output]
  simp only [hend, take_append_of_prefix_drop hw]

end Push

/-- **A push adds its indices to those covered.** -/
theorem Arrived.push (h : Arrived s capacity indices r) (hs : s.length ≤ capacity)
    (hcap : capacity < 2 ^ 31) (hj : j ≤ s.length) :
    Arrived s capacity (indices ∪ Finset.Ico i j) (streamStep r (piece s (i, j))) := by
  have hstep : streamStep r (piece s (i, j)) =
      r.pushSubstring ((s.drop i).take (j - i)) i false := rfl
  have hopen' : (streamStep r (piece s (i, j))).Open := h.isOpen.step rfl
  rw [hstep] at hopen' ⊢
  have hd : (s.drop i).take (j - i) <+: s.drop i := List.take_prefix ..
  have hc := h.content.push (by omega) hd (h.not_overlong hcap) false
  obtain ⟨w, hp⟩ := pushSubstring_spec h.isOpen.wf ((s.drop i).take (j - i)) i false
  rw [ByteStream.appended_of_buffer hp.output_buffer, ← hp.output_buffer] at hc
  exact ⟨hopen', hc, hp.capacity.trans h.size, h.inside_union hj, h.pushed_keys hs hcap hj hp,
    h.pushed_firstMissing hs hcap hj hp, h.pushed_output hs hcap hp⟩

/-- The closed form leaves no choice. -/
theorem Arrived.unique (h : Arrived s capacity indices r) (h' : Arrived s capacity indices r') :
    r = r' := by
  have hnext : r.nextIndex = r'.nextIndex := h.next.symm.trans h'.next
  have hentries : ∀ {r : StreamReassembler}, Arrived s capacity indices r → ∀ x,
      x ∈ r.unassembled.entries ↔ x.1 ∈ r.unassembled.keys ∧ s[x.1]? = some x.2 := by
    intro r h x
    constructor
    · intro hx
      exact ⟨SortedMap.mem_keys.mpr ⟨x.2, hx⟩, (h.content.held x hx).2⟩
    · intro hall
      obtain ⟨hkey, hget⟩ := hall
      obtain ⟨b, hb⟩ := SortedMap.mem_keys.mp hkey
      have hbyte := (h.content.held _ hb).2
      have hsame : x.2 = b := Option.some.inj (hget.symm.trans hbyte)
      rwa [← hsame] at hb
  have hmap : r.unassembled = r'.unassembled := by
    refine SortedMap.ext_mem fun x => ?_
    rw [hentries h, hentries h', h.keys, h'.keys, hnext]
  have hout : r.output = r'.output := by rw [h.output, h'.output, hnext]
  have hcount : r.unassembledBytes = r'.unassembledBytes := by
    rw [h.isOpen.wf.count, h'.isOpen.wf.count, hmap]
  have heof : r.ifEof = r'.ifEof := h.isOpen.noEof.trans h'.isOpen.noEof.symm
  have hsize : r.capacity = r'.capacity := h.size.trans h'.size.symm
  cases r
  cases r'
  simp only [mk.injEq]
  exact ⟨hout, hsize, hmap, hcount, heof, hnext⟩

/-- The bytes that wait are the covered indices beyond the first missing one. -/
theorem Arrived.unassembledBytes_eq (h : Arrived s capacity indices r) :
    r.unassembledBytes = (indices.filter (firstMissing indices ≤ ·)).card := by
  have hset : r.unassembled.keys.toFinset = indices.filter (firstMissing indices ≤ ·) := by
    ext k
    rw [List.mem_toFinset, Finset.mem_filter, h.keys, h.next]
  rw [h.isOpen.wf.count, SortedMap.size_eq_card, hset]

end

theorem Arrived.of_run (s : List UInt8) {capacity : ℕ} (hs : s.length ≤ capacity)
    (hcap : capacity < 2 ^ 31) {pieces : List (ℕ × ℕ)} (hpieces : ∀ p ∈ pieces, p.2 ≤ s.length) :
    Arrived s capacity (covered pieces) (pushAll s capacity pieces) := by
  induction pieces using List.reverseRecOn with
  | nil => exact .new (by omega) s
  | append_singleton pieces p ih =>
    rw [pushAll, List.map_append, List.map_singleton, run_concat, covered_concat]
    refine (ih fun q hq => hpieces q (List.mem_append_left _ hq)).push hs hcap ?_
    exact hpieces p (List.mem_append_right _ List.mem_cons_self)

/-- **Reassembly does not depend on arrival order.**  After any list of pushes of intervals of a
stream that fits the capacity, the output holds the longest run of covered bytes from the start,
the bytes that wait are the distinct covered indices beyond it, and every permutation of the
pushes leads to the same state. -/
theorem arrival_order_irrelevant (s : List UInt8) (capacity : ℕ) (hs : s.length ≤ capacity)
    (hcap : capacity < 2 ^ 31) (pieces : List (ℕ × ℕ))
    (hpieces : ∀ p ∈ pieces, p.1 ≤ p.2 ∧ p.2 ≤ s.length) :
    (pushAll s capacity pieces).streamOut.buffer = s.take (firstMissing (covered pieces)) ∧
      (pushAll s capacity pieces).unassembledBytes =
        ((covered pieces).filter (firstMissing (covered pieces) ≤ ·)).card ∧
      ∀ pieces' : List (ℕ × ℕ), pieces'.Perm pieces →
        pushAll s capacity pieces' = pushAll s capacity pieces := by
  have h : Arrived s capacity (covered pieces) (pushAll s capacity pieces) :=
    .of_run s hs hcap fun p hp => (hpieces p hp).2
  refine ⟨?_, h.unassembledBytes_eq, fun pieces' hperm => ?_⟩
  · rw [h.next]
    exact h.content.written_open h.isOpen.isOpen
  · have h' : Arrived s capacity (covered pieces') (pushAll s capacity pieces') :=
      .of_run s hs hcap fun p hp => (hpieces p (hperm.mem_iff.mp hp)).2
    rw [covered_of_perm hperm] at h'
    exact h'.unique h

/-- Three overlapping pieces of `"abcde"`, with a gap at index 2. -/
theorem arrival_order_irrelevant_gap :
    (pushAll [97, 98, 99, 100, 101] 5 [(3, 5), (1, 2), (0, 2)]).streamOut.buffer =
        [97, 98, 99, 100, 101].take (firstMissing (covered [(3, 5), (1, 2), (0, 2)])) ∧
      pushAll [97, 98, 99, 100, 101] 5 [(0, 2), (3, 5), (1, 2)] =
        pushAll [97, 98, 99, 100, 101] 5 [(3, 5), (1, 2), (0, 2)] := by
  have h := arrival_order_irrelevant [97, 98, 99, 100, 101] 5 (by decide) (by decide)
    [(3, 5), (1, 2), (0, 2)] (by decide)
  exact ⟨h.1, h.2.2 _ (by decide)⟩

end StreamReassembler

end Sponge
