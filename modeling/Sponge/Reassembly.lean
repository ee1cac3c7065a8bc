import Sponge.Lib.Run
import Sponge.Lib.Slices
import Sponge.StreamReassembler

/-!
# Reassembly of one stream

Here every substring that is pushed is a slice of one byte string `s`.  `Content s written r`
is the content invariant of the reassembler: `written` is everything the output stream has
ever taken, the map holds bytes of `s` at or beyond `nextIndex`, and while the output is open
`written` is exactly the part of `s` below `nextIndex`.  `Content.push` shows that a push keeps
it; the stream may meanwhile grow at its end (`Content.mono`).

The second half is about the end of the stream.  The source remembers that some `eof` was
seen, not where the stream ends, and ends the output as soon as the map is empty.
`Premature` describes, from the state before a push, when that is too early: the bytes held
are a gapless run from `nextIndex` that stops short of the end.  `Pushed.premature_iff` shows that
these are the pushes that end the output too early, and the results on whole runs that nothing else
goes wrong.
-/

namespace Sponge

open MachineInt Run Slices

namespace StreamReassembler

/-- The reassembler is working on the stream `s` and its output has taken `written` so far. -/
structure Content (s written : List UInt8) (r : StreamReassembler) : Prop where
  wf : r.WF
  next_le : r.nextIndex ≤ s.length
  held : ∀ e ∈ r.unassembled.entries, r.nextIndex ≤ e.1 ∧ s[e.1]? = some e.2
  written_prefix : written <+: s
  written_open : r.output.inputEnded = false → written = s.take r.nextIndex

/-- At least `2 ^ 31` bytes would be assembled at once, more than the `int` bound of the output
stream's write loop can count. -/
def Overlong (r : StreamReassembler) (data : List UInt8) (index : ℕ) : Prop :=
  2 ^ 31 ≤ r.remainingCapacity ∧
    ∀ k, r.nextIndex ≤ k → k < r.nextIndex + 2 ^ 31 → r.Holds data index k

section

variable {s written : List UInt8} {r : StreamReassembler}

/-- Everything held after the storing pass is a byte of the stream beyond `nextIndex`. -/
theorem Content.intake (h : Content s written r) (hs : s.length < 2 ^ 64) {data : List UInt8}
    {index : ℕ} (hd : data <+: s.drop index) {e : ℕ × UInt8}
    (he : e ∈ (r.intake data index).entries) : r.nextIndex ≤ e.1 ∧ s[e.1]? = some e.2 := by
  rcases mem_storeBytes _ _ _ he with hold | ⟨i, hkey, hbyte⟩
  · exact h.held e hold
  · have hget := getElem?_of_prefix_drop (slice_of_prefix_drop (r := r) hd) hbyte
    have hlt := (List.getElem?_eq_some_iff.mp hget).1
    rw [u64_of_lt (by omega)] at hkey
    rw [hkey]
    exact ⟨(nextIndex_le_slice r data index).trans (Nat.le_add_right _ _), hget⟩

/-- The bytes one push assembles are the next bytes of the stream. -/
theorem Content.taken (h : Content s written r) (hs : s.length < 2 ^ 64) {data : List UInt8}
    {index : ℕ} {eof : Bool} (hd : data <+: s.drop index) {w : List UInt8}
    {r' : StreamReassembler} (hp : Pushed r data index eof w r') : w <+: s.drop r.nextIndex :=
  prefix_drop_of_getElem? fun i b hb => (h.intake hs hd (hp.taken i b hb)).2

theorem Content.pushed_next (h : Content s written r) (hs : s.length < 2 ^ 64)
    {data : List UInt8} {index : ℕ} {eof : Bool} (hd : data <+: s.drop index) {w : List UInt8}
    {r' : StreamReassembler} (hp : Pushed r data index eof w r') :
    r'.nextIndex = r.nextIndex + w.length := by
  have hle := length_le_of_prefix_drop h.next_le (h.taken hs hd hp)
  rw [hp.nextIndex, u64_of_lt (by omega)]

theorem remainingCapacity_eq (h : r.WF) :
    r.remainingCapacity = r.capacity - r.output.buffer.length := by
  have := h.out.remainingCapacity_eq
  rwa [h.sameCapacity, ByteStream.remainingCapacity, h.sameCapacity] at this

/-- A push that is not overlong assembles fewer than `2 ^ 31` bytes. -/
theorem Pushed.length_lt (h : r.WF) {data : List UInt8} {index : ℕ} {eof : Bool}
    {w : List UInt8} {r' : StreamReassembler} (hp : Pushed r data index eof w r')
    (hshort : ¬ r.Overlong data index) : w.length < 2 ^ 31 := by
  by_contra hlong
  refine hshort ⟨?_, fun k hk hlt => ?_⟩
  · have hfits := hp.fits
    rw [remainingCapacity_eq h]
    omega
  · obtain ⟨b, hb⟩ : ∃ b, w[k - r.nextIndex]? = some b :=
      ⟨_, List.getElem?_eq_getElem (by omega)⟩
    have hmem := hp.taken _ b hb
    rw [show r.nextIndex + (k - r.nextIndex) = k by omega] at hmem
    exact (mem_keys_intake r data index k).mp (SortedMap.mem_keys.mpr ⟨b, hmem⟩)

/-- While the output is open, everything a push assembles is taken by the output stream. -/
theorem Pushed.accepted_eq (h : r.WF) {data : List UInt8} {index : ℕ} {eof : Bool}
    {w : List UInt8} {r' : StreamReassembler} (hp : Pushed r data index eof w r')
    (hshort : ¬ r.Overlong data index) (hopen : r.output.inputEnded = false) :
    r.output.accepted w = w := by
  refine h.out.accepted_eq hopen ?_ (hp.length_lt h hshort)
  rw [h.sameCapacity]
  exact hp.fits

/-- **A push of a slice keeps the content invariant**, with the bytes it appends to the output
added to the history. -/
theorem Content.push (h : Content s written r) (hs : s.length < 2 ^ 64) {data : List UInt8}
    {index : ℕ} (hd : data <+: s.drop index) (hshort : ¬ r.Overlong data index) (eof : Bool) :
    Content s
      (written ++ ByteStream.appended r.output (r.pushSubstring data index eof).output)
      (r.pushSubstring data index eof) := by
  obtain ⟨w, hp⟩ := pushSubstring_spec h.wf data index eof
  have hw := h.taken hs hd hp
  have hnext := h.pushed_next hs hd hp
  have hlen := length_le_of_prefix_drop h.next_le hw
  rw [ByteStream.appended_of_buffer hp.output_buffer]
  cases hend : r.output.inputEnded with
  | false =>
    have htaken : written ++ r.output.accepted w = s.take (r.nextIndex + w.length) := by
      rw [hp.accepted_eq h.wf hshort hend, h.written_open hend, take_append_of_prefix_drop hw]
    refine ⟨h.wf.pushSubstring data index eof, by omega, ?_, ?_, ?_⟩
    · intro e he
      obtain ⟨hmem, hrange⟩ := (hp.left e).mp he
      obtain ⟨hge, hget⟩ := h.intake hs hd hmem
      exact ⟨by omega, hget⟩
    · rw [htaken]
      exact List.take_prefix _ _
    · intro _
      rw [htaken, hnext]
  | true =>
    rw [ByteStream.accepted_of_ended hend, List.append_nil]
    refine ⟨h.wf.pushSubstring data index eof, by omega, ?_, h.written_prefix, ?_⟩
    · intro e he
      obtain ⟨hmem, hrange⟩ := (hp.left e).mp he
      obtain ⟨hge, hget⟩ := h.intake hs hd hmem
      exact ⟨by omega, hget⟩
    · intro hopen
      have := hp.inputEnded_iff.mpr (Or.inl hend)
      rw [hopen] at this
      cases this

/-- A stream of fewer than `2 ^ 31` bytes never gives that many at once. -/
theorem Content.not_overlong (h : Content s written r) (hs : s.length < 2 ^ 31)
    {data : List UInt8} {index : ℕ} (hd : data <+: s.drop index) : ¬ r.Overlong data index := by
  intro hall
  obtain ⟨-, hall⟩ := hall
  have hheld := hall (r.nextIndex + (2 ^ 31 - 1)) (by omega) (by omega)
  obtain ⟨b, hb⟩ := SortedMap.mem_keys.mp ((mem_keys_intake r data index _).mpr hheld)
  have := (List.getElem?_eq_some_iff.mp (h.intake (by omega) hd hb).2).1
  simp only at this
  omega

theorem Content.readOut (h : Content s written r) (len : ℕ) : Content s written (r.readOut len) :=
  ⟨h.wf.readOut len, h.next_le, h.held, h.written_prefix, h.written_open⟩

/-- The stream may grow at its end. -/
theorem Content.mono (h : Content s written r) {s' : List UInt8} (hs : s <+: s') :
    Content s' written r := by
  refine ⟨h.wf, h.next_le.trans hs.length_le, ?_, h.written_prefix.trans hs, ?_⟩
  · intro e he
    obtain ⟨hge, hget⟩ := h.held e he
    have hlt := (List.getElem?_eq_some_iff.mp hget).1
    refine ⟨hge, ?_⟩
    rw [← hget, List.prefix_iff_getElem?.mp hs e.1 hlt]
    exact (List.getElem?_eq_getElem hlt).symm
  · intro hopen
    obtain ⟨t, rfl⟩ := hs
    rw [h.written_open hopen, List.take_append_of_le_length h.next_le]

theorem Content.new {capacity : ℕ} (h : capacity < 2 ^ 64) (s : List UInt8) :
    Content s [] (new capacity) :=
  ⟨new_WF h, Nat.zero_le _, (by intro e he; cases he), List.nil_prefix, fun _ => rfl⟩

/-! ### The end of the stream -/

/-- The bytes held after the storing pass are exactly the run from `nextIndex` up to `n`, and
that run fits the output. -/
def Gapless (r : StreamReassembler) (data : List UInt8) (index n : ℕ) : Prop :=
  r.nextIndex ≤ n ∧ n ≤ r.nextIndex + r.remainingCapacity ∧
    ∀ k, r.Holds data index k ↔ r.nextIndex ≤ k ∧ k < n

/-- The run of held bytes from `nextIndex` on goes up to `n`: there the next byte is missing or
the output is full. -/
def RunTo (r : StreamReassembler) (data : List UInt8) (index n : ℕ) : Prop :=
  r.nextIndex ≤ n ∧ n ≤ r.nextIndex + r.remainingCapacity ∧
    (∀ k, r.nextIndex ≤ k → k < n → r.Holds data index k) ∧
    (n < r.nextIndex + r.remainingCapacity → ¬ r.Holds data index n)

/-- A push that ends the output too early: an `eof` has been seen, and the bytes held are a
gapless run from `nextIndex` that stops before the end `total`. -/
def Premature (total : ℕ) (r : StreamReassembler) (data : List UInt8) (index : ℕ)
    (eof : Bool) : Prop :=
  (eof = true ∨ r.ifEof = true) ∧ ∃ n < total, r.Gapless data index n

theorem Pushed.holds_of_lt {data : List UInt8} {index : ℕ} {eof : Bool} {w : List UInt8}
    {r' : StreamReassembler} (hp : Pushed r data index eof w r') {k : ℕ} (hge : r.nextIndex ≤ k)
    (hlt : k < r.nextIndex + w.length) : r.Holds data index k := by
  have hmem := hp.taken (k - r.nextIndex) _ (List.getElem?_eq_getElem (by omega))
  rw [show r.nextIndex + (k - r.nextIndex) = k by omega] at hmem
  exact (mem_keys_intake r data index k).mp (SortedMap.mem_keys.mpr ⟨_, hmem⟩)

/-- The run that a push assembles is the run of held bytes. -/
theorem Pushed.runTo_iff (h : r.WF) {data : List UInt8} {index : ℕ} {eof : Bool}
    {w : List UInt8} {r' : StreamReassembler} (hp : Pushed r data index eof w r') {n : ℕ} :
    r.RunTo data index n ↔ n = r.nextIndex + w.length := by
  have hfits := hp.fits
  have hroom := remainingCapacity_eq h
  constructor
  · intro hall
    obtain ⟨hge, hle, hrun, hstop⟩ := hall
    have h1 : r.nextIndex + w.length ≤ n := by
      -- otherwise index `n` itself was taken, so it was held and there was room for it
      by_contra hlt
      exact hstop (by omega) (hp.holds_of_lt hge (by omega))
    have h2 : n ≤ r.nextIndex + w.length := by
      -- otherwise the loop stopped at an index that is held, with room left
      by_contra hlt
      exact hp.stops (by omega)
        ((mem_keys_intake r data index _).mpr (hrun _ (by omega) (by omega)))
    omega
  · rintro rfl
    refine ⟨by omega, by omega, fun k hge hlt => hp.holds_of_lt hge hlt, fun hlt hheld => ?_⟩
    exact hp.stops (by omega) ((mem_keys_intake r data index _).mpr hheld)

/-- The bytes held are the run from `nextIndex` to `n` exactly when the push assembles that run
and leaves nothing. -/
theorem Pushed.gapless_iff (h : r.WF) {data : List UInt8} {index : ℕ} {eof : Bool}
    {w : List UInt8} {r' : StreamReassembler} (hp : Pushed r data index eof w r') {n : ℕ} :
    r.Gapless data index n ↔ n = r.nextIndex + w.length ∧ r'.unassembled.entries = [] := by
  constructor
  · intro hall
    obtain ⟨hge, hle, hrun⟩ := hall
    have hn : n = r.nextIndex + w.length := (hp.runTo_iff h).mp
      ⟨hge, hle, fun k hk hlt => (hrun k).mpr ⟨hk, hlt⟩, fun _ hheld => by
        have := (hrun n).mp hheld
        omega⟩
    refine ⟨hn, List.eq_nil_iff_forall_not_mem.mpr fun x hx => ?_⟩
    obtain ⟨hmem, hrange⟩ := (hp.left x).mp hx
    have := (hrun x.1).mp
      ((mem_keys_intake r data index x.1).mp (SortedMap.mem_keys.mpr ⟨x.2, hmem⟩))
    omega
  · intro hall
    obtain ⟨rfl, hnil⟩ := hall
    obtain ⟨hge, hle, _, _⟩ := (hp.runTo_iff h).mpr rfl
    refine ⟨hge, hle, fun k => ⟨fun hk => ?_, fun hk => hp.holds_of_lt hk.1 hk.2⟩⟩
    -- a held byte outside the run would have been left in the map
    obtain ⟨b, hb⟩ := SortedMap.mem_keys.mp ((mem_keys_intake r data index k).mpr hk)
    by_contra hout
    have : (k, b) ∈ r'.unassembled.entries := (hp.left _).mpr ⟨hb, by simp only; omega⟩
    rw [hnil] at this
    cases this

/-- **`Premature` is exact.**  A push to an open output is premature exactly when it ends the
output with the next index still below `total`. -/
theorem Pushed.premature_iff (h : r.WF) {data : List UInt8} {index : ℕ} {eof : Bool}
    {w : List UInt8} {r' : StreamReassembler} (hp : Pushed r data index eof w r')
    (hopen : r.output.inputEnded = false) (total : ℕ) :
    r.Premature total data index eof ↔
      r'.output.inputEnded = true ∧ r.nextIndex + w.length < total := by
  rw [hp.inputEnded_iff, hopen]
  constructor
  · intro hall
    obtain ⟨hseen, n, hlt, hrun⟩ := hall
    obtain ⟨rfl, hnil⟩ := (hp.gapless_iff h).mp hrun
    exact ⟨Or.inr ⟨hseen, hnil⟩, hlt⟩
  · intro hall
    rcases hall with ⟨hend | ⟨hseen, hnil⟩, hlt⟩
    · cases hend
    · exact ⟨hseen, _, hlt, (hp.gapless_iff h).mpr ⟨rfl, hnil⟩⟩

/-- The output was ended with the whole stream written. -/
def EndedWhole (s written : List UInt8) (r : StreamReassembler) : Prop :=
  r.output.inputEnded = true ↔ r.ifEof = true ∧ written = s

theorem Content.next_eq_of_written (h : Content s written r) (hw : written = s)
    (hopen : r.output.inputEnded = false) : r.nextIndex = s.length := by
  have hle := h.next_le
  have hlen := congrArg List.length (h.written_open hopen)
  rw [hw, List.length_take] at hlen
  omega

/-- Nothing is held once every byte of the stream has been passed. -/
theorem Content.held_nil (h : Content s written r) (hnext : s.length ≤ r.nextIndex) :
    r.unassembled.entries = [] := by
  refine List.eq_nil_iff_forall_not_mem.mpr fun e he => ?_
  obtain ⟨hge, hget⟩ := h.held e he
  have := (List.getElem?_eq_some_iff.mp hget).1
  omega

/-- **A push that is not premature ends the output exactly when the stream is complete.** -/
theorem EndedWhole.push (h : Content s written r) (he : EndedWhole s written r)
    (hs : s.length < 2 ^ 64) {data : List UInt8} {index : ℕ} {eof : Bool}
    (hd : data <+: s.drop index) (hshort : ¬ r.Overlong data index)
    (hok : ¬ r.Premature s.length data index eof) :
    EndedWhole s
      (written ++ ByteStream.appended r.output (r.pushSubstring data index eof).output)
      (r.pushSubstring data index eof) := by
  have hc' := h.push hs hd hshort eof
  obtain ⟨w, hp⟩ := pushSubstring_spec h.wf data index eof
  rw [EndedWhole, hp.ifEof, Bool.or_eq_true]
  cases hend : r.output.inputEnded with
  | true =>
    -- an ended output takes nothing more and stays ended
    obtain ⟨hseen, hw⟩ := he.mp hend
    rw [ByteStream.appended_of_buffer hp.output_buffer, ByteStream.accepted_of_ended hend,
      List.append_nil]
    exact iff_of_true (hp.inputEnded_iff.mpr (Or.inl hend)) ⟨Or.inr hseen, hw⟩
  | false =>
    have hlen := length_le_of_prefix_drop h.next_le (h.taken hs hd hp)
    constructor
    · intro hended
      have hwhole : ¬ r.nextIndex + w.length < s.length := fun hlt =>
        hok ((hp.premature_iff h.wf hend s.length).mpr ⟨hended, hlt⟩)
      rcases hp.inputEnded_iff.mp hended with hold | ⟨hseen, _⟩
      · rw [hend] at hold; cases hold
      · refine ⟨hseen, ?_⟩
        rw [ByteStream.appended_of_buffer hp.output_buffer, hp.accepted_eq h.wf hshort hend,
          h.written_open hend, take_append_of_prefix_drop (h.taken hs hd hp)]
        exact List.take_of_length_le (by omega)
    · intro hall
      obtain ⟨hseen, hw⟩ := hall
      by_contra hopen'
      have hopen' : (r.pushSubstring data index eof).output.inputEnded = false := by
        simpa using hopen'
      have hnil := hc'.held_nil (hc'.next_eq_of_written hw hopen').ge
      rw [hp.inputEnded_iff.mpr (Or.inr ⟨hseen, hnil⟩)] at hopen'
      cases hopen'

end

/-! ### Runs of pushes and reads -/

/-- What a user of the reassembler does: push a substring, or read from the output. -/
inductive StreamOp where
  | push (data : List UInt8) (index : ℕ) (eof : Bool)
  | read (len : ℕ)
deriving DecidableEq

def streamStep (r : StreamReassembler) : StreamOp → StreamReassembler
  | .push data index eof => r.pushSubstring data index eof
  | .read len => r.readOut len

/-- The push is a slice of `s`, and carries `eof` only at the end of `s`. -/
def SliceOf (s : List UInt8) : StreamOp → Prop
  | .push data index eof => index + data.length ≤ s.length ∧
      data = (s.drop index).take data.length ∧ (eof = true → index + data.length = s.length)
  | .read _ => True

instance (s : List UInt8) (op : StreamOp) : Decidable (SliceOf s op) := by
  cases op <;> unfold SliceOf <;> infer_instance

def carriesEof : StreamOp → Bool
  | .push _ _ eof => eof
  | .read _ => false

/-- The push neither ends the output early nor assembles `2 ^ 31` bytes at once. -/
def PushOk (s : List UInt8) (r : StreamReassembler) : StreamOp → Prop
  | .push data index eof => ¬ r.Premature s.length data index eof ∧ ¬ r.Overlong data index
  | .read _ => True

/-- The output has ended exactly when some push carried `eof` and all of `s` is written. -/
def EndOfStream (s : List UInt8) (ops : List StreamOp) (r : StreamReassembler) : Prop :=
  r.output.inputEnded = true ↔
    ops.any carriesEof = true ∧ r.streamOut.bytesWritten = s.length

instance (s : List UInt8) (ops : List StreamOp) (r : StreamReassembler) :
    Decidable (EndOfStream s ops r) := inferInstanceAs (Decidable (_ ↔ _))

/-- The invariant of a run on the stream `s`, with the operations so far. -/
structure OnStream (s : List UInt8) (ops : List StreamOp) (r : StreamReassembler) : Prop where
  seen : r.ifEof = ops.any carriesEof
  history : ∃ written, Content s written r ∧ EndedWhole s written r ∧
    r.output.numWritten = written.length

theorem OnStream.step {s : List UInt8} {ops : List StreamOp} {r : StreamReassembler}
    (h : OnStream s ops r) (hs : s.length < 2 ^ 64) {op : StreamOp} (hop : SliceOf s op)
    (hok : PushOk s r op) : OnStream s (ops ++ [op]) (streamStep r op) := by
  obtain ⟨written, hc, he, hn⟩ := h.history
  cases op with
  | read len =>
    exact ⟨by simpa [carriesEof, streamStep, StreamReassembler.readOut] using h.seen,
      written, hc.readOut len, he, hn⟩
  | push data index eof =>
    obtain ⟨_, hdata, _⟩ := hop
    have hd : data <+: s.drop index := List.prefix_iff_eq_take.mpr hdata
    obtain ⟨hpre, hshort⟩ := hok
    have hc' := hc.push hs hd hshort eof
    obtain ⟨w, hp⟩ := pushSubstring_spec hc.wf data index eof
    refine ⟨?_, _, hc', he.push hc hs hd hshort hpre, ?_⟩
    · simp [carriesEof, streamStep, hp.ifEof, h.seen, Bool.or_comm]
    · have hle := hc'.written_prefix.length_le
      rw [ByteStream.appended_of_buffer hp.output_buffer, List.length_append] at hle ⊢
      show (r.pushSubstring data index eof).output.numWritten = _
      rw [hp.output_numWritten, ByteStream.write_numWritten (by omega), hn, u64_of_lt (by omega)]

/-- **End of stream.**  For every stream, capacity and sequence of slices of the stream, with
reads in between: if no push is premature or overlong, then after every step the output has
ended exactly when an `eof` has been pushed and the whole stream has been written. -/
theorem endOfStream_of_pushOk (s : List UInt8) (capacity : ℕ) (hs : s.length < 2 ^ 64)
    (hcap : capacity < 2 ^ 64) (ops : List StreamOp) (hslice : ∀ op ∈ ops, SliceOf s op)
    (hok : Along streamStep (PushOk s) (new capacity) ops) :
    EndOfStream s ops (run streamStep (new capacity) ops) := by
  have hinit : OnStream s [] (new capacity) := by
    refine ⟨rfl, [], Content.new hcap s, ?_, rfl⟩
    simp [EndedWhole, StreamReassembler.new, ByteStream.new]
  have hinv : OnStream s ops (run streamStep (new capacity) ops) :=
    run_history (I := OnStream s) hinit (fun _ _ _ h he => h.step hs he.2 he.1) ops
      (hok.and_forall hslice)
  obtain ⟨written, hc, he, hn⟩ := hinv.history
  unfold EndedWhole at he
  rw [EndOfStream, he, hinv.seen, StreamReassembler.streamOut, ByteStream.bytesWritten, hn]
  refine and_congr_right fun _ => ⟨fun h => by rw [h], fun h => ?_⟩
  exact hc.written_prefix.eq_of_length h

/-- The two bytes of `"ab"` arriving last byte first, the last one with `eof`. -/
theorem endOfStream_of_pushOk_swapped :
    EndOfStream [97, 98] [.push [98] 1 true, .read 4, .push [97] 0 false]
      (run streamStep (new 8) [.push [98] 1 true, .read 4, .push [97] 0 false]) := by
  refine endOfStream_of_pushOk [97, 98] 8 (by decide) (by decide) _ (by decide)
    ⟨?_, trivial, ?_, trivial⟩
  · refine ⟨?_, fun h => absurd h.1 (by decide)⟩
    intro hall
    obtain ⟨_, n, hn, _, _, hrun⟩ := hall
    have := (hrun 1).mp (by decide)
    simp only [List.length_cons, List.length_nil] at hn
    omega
  · refine ⟨?_, fun h => absurd h.1 (by decide)⟩
    intro hall
    obtain ⟨_, n, hn, _, _, hrun⟩ := hall
    have := (hrun 1).mp (by decide)
    simp only [List.length_cons, List.length_nil] at hn
    omega

/-- The empty `eof` substring of `"ab"` arriving before the two bytes ends the output at once,
with nothing written. -/
theorem endOfStream_fails_on_early_eof :
    (∀ op ∈ [StreamOp.push [] 2 true], SliceOf [97, 98] op) ∧
      ¬ EndOfStream [97, 98] [.push [] 2 true] (run streamStep (new 8) [.push [] 2 true]) := by
  decide

/-! ### Pieces with any `eof` -/

/-- The push is a piece of `s` whose end is a 64-bit index, with any `eof`. -/
def PieceOf (s : List UInt8) : StreamOp → Prop
  | .push data index _ => index + data.length ≤ s.length ∧ index + data.length < 2 ^ 64 ∧
      data = (s.drop index).take data.length
  | .read _ => True

instance (s : List UInt8) (op : StreamOp) : Decidable (PieceOf s op) := by
  cases op <;> unfold PieceOf <;> infer_instance

/-- Everything that a run writes to the output. -/
def writtenAlong : StreamReassembler → List StreamOp → List UInt8
  | _, [] => []
  | r, op :: ops =>
    ByteStream.appended r.output (streamStep r op).output ++ writtenAlong (streamStep r op) ops

theorem writtenAlong_concat (r : StreamReassembler) (ops : List StreamOp) (op : StreamOp) :
    writtenAlong r (ops ++ [op]) = writtenAlong r ops ++
      ByteStream.appended (run streamStep r ops).output
        (streamStep (run streamStep r ops) op).output := by
  induction ops generalizing r with
  | nil => simp [writtenAlong]
  | cons op' ops ih =>
    rw [List.cons_append, writtenAlong, ih, writtenAlong, List.append_assoc]
    rfl

/-- The part of the stream that has 64-bit indices below the last one. -/
def indexed (s : List UInt8) : List UInt8 := s.take (2 ^ 64 - 1)

theorem length_indexed_lt (s : List UInt8) : (indexed s).length < 2 ^ 64 := by
  rw [indexed, List.length_take]
  omega

theorem PieceOf.prefix_indexed {s data : List UInt8} {index : ℕ} {eof : Bool}
    (h : PieceOf s (.push data index eof)) : data <+: (indexed s).drop index := by
  obtain ⟨_, hlt, hdata⟩ := h
  have hcut : (s.drop index).take data.length <+: (s.drop index).take (2 ^ 64 - 1 - index) :=
    List.take_prefix_take_left (by omega)
  rw [← hdata] at hcut
  rw [indexed, List.drop_take]
  exact hcut

/-- The reassembler after a run of pieces of `s`, with everything that it has written. -/
structure Tracks (s : List UInt8) (capacity : ℕ) (written : List UInt8) (r : StreamReassembler) :
    Prop where
  content : Content (indexed s) written r
  count : r.output.numWritten = written.length
  capacity : r.capacity = capacity

section

variable {s written : List UInt8} {capacity : ℕ} {r : StreamReassembler}

/-- A buffer of fewer than `2 ^ 31` bytes never takes that many at once. -/
theorem Tracks.not_overlong (h : Tracks s capacity written r) (hcap : capacity < 2 ^ 31)
    (data : List UInt8) (index : ℕ) : ¬ r.Overlong data index := by
  intro hall
  have hlong := hall.1
  have hroom := remainingCapacity_eq h.content.wf
  have hcapacity := h.capacity
  omega

theorem Tracks.step (h : Tracks s capacity written r) (hcap : capacity < 2 ^ 31) {op : StreamOp}
    (hop : PieceOf s op) : Tracks s capacity
      (written ++ ByteStream.appended r.output (streamStep r op).output) (streamStep r op) := by
  cases op with
  | read len =>
    have hnil : ByteStream.appended r.output (streamStep r (.read len)).output = [] :=
      List.drop_eq_nil_of_le (ByteStream.popOutput_length_le ..)
    rw [hnil, List.append_nil]
    exact ⟨h.content.readOut len, h.count, h.capacity⟩
  | push data index eof =>
    have hlen := length_indexed_lt s
    have hc := h.content.push hlen hop.prefix_indexed (h.not_overlong hcap data index) eof
    obtain ⟨w, hp⟩ := pushSubstring_spec h.content.wf data index eof
    refine ⟨hc, ?_, hp.capacity.trans h.capacity⟩
    have hle := hc.written_prefix.length_le
    have hcount := h.count
    show (r.pushSubstring data index eof).output.numWritten = List.length (written ++
      ByteStream.appended r.output (r.pushSubstring data index eof).output)
    rw [ByteStream.appended_of_buffer hp.output_buffer, List.length_append] at hle ⊢
    rw [hp.output_numWritten, ByteStream.write_numWritten (by omega), hcount, u64_of_lt (by omega)]

theorem Tracks.of_run (s : List UInt8) {capacity : ℕ} (hcap : capacity < 2 ^ 31)
    {ops : List StreamOp} (hops : ∀ op ∈ ops, PieceOf s op) :
    Tracks s capacity (writtenAlong (new capacity) ops) (run streamStep (new capacity) ops) := by
  refine run_history (I := fun ops r => Tracks s capacity (writtenAlong (new capacity) ops) r)
    ⟨Content.new (by omega) _, rfl, rfl⟩ ?_ ops (along_of_events hops _)
  intro es op _ h hop
  rw [writtenAlong_concat]
  exact h.step hcap hop

/-- A push to an open output leaves the byte at the next index in the map only if the output is
full. -/
theorem Tracks.assembled (h : Tracks s capacity written r) (hcap : capacity < 2 ^ 31)
    {data : List UInt8} {index : ℕ} {eof : Bool} (hop : PieceOf s (.push data index eof))
    (hopen : r.output.inputEnded = false)
    (hkey : (r.pushSubstring data index eof).nextIndex ∈
      (r.pushSubstring data index eof).unassembled.keys) :
    (r.pushSubstring data index eof).output.bufferSize = capacity := by
  obtain ⟨w, hp⟩ := pushSubstring_spec h.content.wf data index eof
  have hnext := h.content.pushed_next (length_indexed_lt s) hop.prefix_indexed hp
  have htaken := hp.accepted_eq h.content.wf (h.not_overlong hcap data index) hopen
  have hfits := hp.fits
  have hcapacity := h.capacity
  obtain ⟨b, hb⟩ := SortedMap.mem_keys.mp hkey
  rw [hnext] at hb
  -- with room left the pass would have gone on
  have hfull : ¬ r.output.buffer.length + w.length < r.capacity := fun hroom =>
    hp.stops hroom (SortedMap.mem_keys.mpr ⟨b, ((hp.left _).mp hb).1⟩)
  rw [ByteStream.bufferSize, hp.output_buffer, htaken, List.length_append]
  omega

end

/-- **Content safety and bookkeeping.**  For every stream, every capacity below `2 ^ 31` and
every run of pushes of its pieces, in any order and with any `eof`, and of reads: what was ever
written is the beginning of the stream, the map holds bytes of the stream from the next index
on, each counted once, and a push to an open output leaves the byte at the next index in the map
only if the output buffer is full. -/
theorem content_of_pieces (s : List UInt8) (capacity : ℕ) (hcap : capacity < 2 ^ 31)
    (ops : List StreamOp) (hops : ∀ op ∈ ops, PieceOf s op) :
    let r := run streamStep (new capacity) ops
    writtenAlong (new capacity) ops = s.take r.streamOut.bytesWritten ∧
      (∀ e ∈ r.unassembled.entries, r.nextIndex ≤ e.1 ∧ e.1 < s.length ∧ s[e.1]? = some e.2) ∧
      r.unassembledBytes = r.unassembled.size ∧ r.unassembled.keys.Nodup ∧
      ∀ data index eof, PieceOf s (.push data index eof) → r.streamOut.inputEnded = false →
        let r' := r.pushSubstring data index eof
        r'.nextIndex ∉ r'.unassembled.keys ∨ r'.streamOut.bufferSize = capacity := by
  intro r
  have h : Tracks s capacity (writtenAlong (new capacity) ops) r := .of_run s hcap hops
  have hstream := h.content.mono (List.take_prefix (2 ^ 64 - 1) s)
  refine ⟨?_, fun e he => ?_, h.content.wf.count, r.unassembled.keys_nodup, ?_⟩
  · show _ = s.take r.output.numWritten
    rw [h.count]
    exact List.prefix_iff_eq_take.mp hstream.written_prefix
  · obtain ⟨hge, hget⟩ := hstream.held e he
    exact ⟨hge, (List.getElem?_eq_some_iff.mp hget).1, hget⟩
  · intro data index eof hop hopen
    refine or_iff_not_imp_left.mpr fun hkey => ?_
    exact h.assembled hcap hop hopen (not_not.mp hkey)

/-- The last byte of `"abc"` arrives twice, the second time with `eof`, and then the first. -/
theorem content_of_pieces_repeated :
    writtenAlong (new 8) [.push [99] 2 false, .push [99] 2 true, .push [97] 0 false] =
        [97, 98, 99].take 1 ∧
      (run streamStep (new 8) [.push [99] 2 false, .push [99] 2 true,
        .push [97] 0 false]).unassembledBytes = 1 := by
  have h := content_of_pieces [97, 98, 99] 8 (by decide)
    [.push [99] 2 false, .push [99] 2 true, .push [97] 0 false] (by decide)
  exact ⟨h.1, h.2.2.1⟩

end StreamReassembler

end Sponge
