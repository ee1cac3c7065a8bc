import Sponge.ByteStream
import Sponge.Lib.Fifo
import Sponge.Lib.Run

/-!
# The byte stream is a bounded queue

A stream is followed together with two histories: the bytes that its writers were told it has
accepted, and the bytes that its readers have taken out.  `Refines` relates such a stream to the
abstract `Fifo`: the buffer is what the queue holds, and the two counters are the lengths of the
histories, reduced to 64 bits.  Each call is simulated by an operation of the queue, provided that
the capacity is below `2 ^ 31`, where the `int` loops of the source run to their end.
-/

namespace Sponge

open MachineInt Run

/-- A call on a byte stream that can change it, or that reads from it. -/
inductive ByteStreamOp where
  | write (data : List UInt8)
  | peekOutput (len : ℕ)
  | popOutput (len : ℕ)
  | read (len : ℕ)
  | endInput
  | setError
deriving DecidableEq, Repr

namespace ByteStream

/-- The stream after a call. -/
def call (s : ByteStream) : ByteStreamOp → ByteStream
  | .write data => (s.write data).1
  | .peekOutput _ => s
  | .popOutput len => s.popOutput len
  | .read len => (s.read len).2
  | .endInput => s.endInput
  | .setError => s.setError

/-- The leading bytes of its argument that a write reports as written. -/
def bytesIn (s : ByteStream) : ByteStreamOp → List UInt8
  | .write data => data.take (s.write data).2
  | _ => []

/-- The bytes that a call removes from the front of the buffer; a read returns them. -/
def bytesOut (s : ByteStream) : ByteStreamOp → List UInt8
  | .popOutput len => s.buffer.take (s.buffer.length - (s.popOutput len).buffer.length)
  | .read len => (s.read len).1
  | _ => []

/-- A stream with the bytes it has accepted and the bytes that were popped or read. -/
structure Traced where
  stream : ByteStream
  accepted : List UInt8
  popped : List UInt8
deriving DecidableEq, Repr

namespace Traced

def call (t : Traced) (op : ByteStreamOp) : Traced where
  stream := t.stream.call op
  accepted := t.accepted ++ t.stream.bytesIn op
  popped := t.popped ++ t.stream.bytesOut op

/-- A new stream after a sequence of calls. -/
def of (capacity : ℕ) (ops : List ByteStreamOp) : Traced :=
  run call { stream := ByteStream.new capacity, accepted := [], popped := [] } ops

end Traced

/-! ### Streams that an `int` can count -/

/-- The buffer fits the capacity, and the capacity fits an `int`. -/
structure Small (s : ByteStream) : Prop where
  fits : s.buffer.length ≤ s.capacity
  small : s.capacity < 2 ^ 31

/-- The number of bytes that a write accepts. -/
def room (s : ByteStream) (data : List UInt8) : ℕ :=
  if s.inputEnded then 0 else min data.length (s.capacity - s.bufferSize)

section Small

variable {s : ByteStream}

theorem Small.remainingCapacity_eq (h : s.Small) :
    s.remainingCapacity = s.capacity - s.bufferSize :=
  sub64_of_le (by have := h.small; omega) h.fits

theorem Small.min_lt (h : s.Small) (data : List UInt8) :
    min data.length s.remainingCapacity < 2 ^ 31 := by
  have hsmall := h.small
  rw [h.remainingCapacity_eq]
  omega

theorem Small.accepted_eq (h : s.Small) (data : List UInt8) :
    s.accepted data = data.take (s.room data) := by
  rw [accepted, room, intCount_of_lt (h.min_lt data), h.remainingCapacity_eq]
  split <;> rfl

theorem Small.write_snd (h : s.Small) (data : List UInt8) : (s.write data).2 = s.room data := by
  have hlt := h.min_lt data
  rw [room, ByteStream.write]
  split
  · rfl
  · show (int32 (min data.length s.remainingCapacity) % 2 ^ 64).toNat = _
    rw [int32_of_lt hlt, ← h.remainingCapacity_eq]
    omega

theorem Small.bytesIn_write (h : s.Small) (data : List UInt8) :
    s.bytesIn (.write data) = s.accepted data := by
  rw [bytesIn, h.write_snd, h.accepted_eq]

theorem Small.count_eq (h : s.Small) (len : ℕ) :
    intCount (min len s.bufferSize) = min len s.bufferSize := by
  have hfits := h.fits
  have hsmall := h.small
  exact intCount_of_lt ((min_le_right _ _).trans_lt (hfits.trans_lt hsmall))

theorem Small.peekOutput_eq (h : s.Small) (len : ℕ) :
    s.peekOutput len = s.buffer.take (min len s.bufferSize) := by
  rw [peekOutput, h.count_eq]

theorem Small.popOutput_eq (h : s.Small) (len : ℕ) :
    s.popOutput len = { s with
      buffer := s.buffer.drop (min len s.bufferSize)
      numRead := u64 (s.numRead + min len s.bufferSize) } := by
  rw [popOutput, h.count_eq]

/-- A pop removes what a read returns. -/
theorem Small.bytesOut_popOutput (h : s.Small) (len : ℕ) :
    s.bytesOut (.popOutput len) = s.peekOutput len := by
  have hlen : s.buffer.length - (s.popOutput len).buffer.length = min len s.bufferSize := by
    rw [h.popOutput_eq, List.length_drop, bufferSize]
    omega
  rw [bytesOut, hlen, h.peekOutput_eq]

end Small

/-! ### The simulation -/

/-- The operation of the queue that a call stands for. -/
def queueCall (q : Fifo UInt8) : ByteStreamOp → Fifo UInt8
  | .write data => q.push data
  | .popOutput len => q.pop len
  | .read len => q.pop len
  | .endInput => q.close
  | .peekOutput _ => q
  | .setError => q

/-- The stream and its histories are those of the queue. -/
structure Refines (t : Traced) (q : Fifo UInt8) : Prop where
  small : q.capacity < 2 ^ 31
  capacity : t.stream.capacity = q.capacity
  buffer : t.stream.buffer = q.contents
  inputEnded : t.stream.inputEnded = q.closed
  numWritten : t.stream.numWritten = u64 q.accepted.length
  numRead : t.stream.numRead = u64 q.released.length
  accepted : t.accepted = q.accepted
  popped : t.popped = q.released

namespace Refines

variable {t : Traced} {q : Fifo UInt8}

theorem new {capacity : ℕ} (h : capacity < 2 ^ 31) :
    Refines { stream := ByteStream.new capacity, accepted := [], popped := [] }
      (Fifo.empty capacity) where
  small := h
  capacity := rfl
  buffer := rfl
  inputEnded := rfl
  numWritten := rfl
  numRead := rfl
  accepted := rfl
  popped := rfl

theorem isSmall (h : Refines t q) : t.stream.Small where
  fits := by
    rw [h.buffer, h.capacity]
    exact q.contents_le_capacity
  small := by
    rw [h.capacity]
    exact h.small

/-- A write pushes exactly what the queue has room for. -/
theorem taken_eq (h : Refines t q) (data : List UInt8) :
    t.stream.accepted data = q.taken data := by
  rw [h.isSmall.accepted_eq, Fifo.taken, room, h.inputEnded, h.capacity, bufferSize, h.buffer]
  split
  · exact List.take_zero
  · rw [List.take_eq_take_iff]
    omega

theorem write (h : Refines t q) (data : List UInt8) :
    Refines (t.call (.write data)) (q.push data) where
  small := h.small
  capacity := (write_capacity ..).trans h.capacity
  buffer := by
    show (t.stream.write data).1.buffer = _
    rw [write_buffer, h.buffer, h.taken_eq, Fifo.contents_push]
  inputEnded := (write_inputEnded ..).trans h.inputEnded
  numWritten := by
    show (t.stream.write data).1.numWritten = u64 (q.accepted ++ q.taken data).length
    have hlt : t.stream.numWritten < 2 ^ 64 := by
      rw [h.numWritten]
      exact u64_lt _
    rw [write_numWritten hlt, h.numWritten, u64_add, h.taken_eq, List.length_append]
  numRead := (write_numRead ..).trans h.numRead
  accepted := by
    show t.accepted ++ t.stream.bytesIn (.write data) = q.accepted ++ q.taken data
    rw [h.isSmall.bytesIn_write, h.accepted, h.taken_eq]
  popped := (List.append_nil _).trans h.popped

/-- What a call that takes `len` bytes out of the stream does to the relation. -/
theorem pop (h : Refines t q) (len : ℕ) :
    Refines { stream := t.stream.popOutput len, accepted := t.accepted
              popped := t.popped ++ t.stream.peekOutput len } (q.pop len) := by
  have htake : t.stream.peekOutput len = q.contents.take len := by
    rw [h.isSmall.peekOutput_eq, bufferSize, h.buffer, List.take_eq_take_iff]
    omega
  have hpop := h.isSmall.popOutput_eq len
  constructor
  case small => exact h.small
  case capacity => exact h.capacity
  case buffer =>
    rw [hpop, Fifo.contents_pop, bufferSize, h.buffer, List.drop_eq_drop_iff]
    omega
  case inputEnded => exact h.inputEnded
  case numWritten => exact h.numWritten
  case numRead =>
    show (t.stream.popOutput len).numRead = u64 (q.released ++ q.contents.take len).length
    rw [hpop, h.numRead, u64_add, List.length_append, List.length_take, bufferSize, h.buffer]
  case accepted => exact h.accepted
  case popped =>
    show t.popped ++ t.stream.peekOutput len = q.released ++ q.contents.take len
    rw [h.popped, htake]

/-- **Every call is an operation of the queue.** -/
theorem call (h : Refines t q) (op : ByteStreamOp) : Refines (t.call op) (queueCall q op) := by
  cases op with
  | write data => exact h.write data
  | popOutput len =>
    have hpop := h.pop len
    rw [← h.isSmall.bytesOut_popOutput len, ← List.append_nil t.accepted] at hpop
    exact hpop
  | read len =>
    have hpop := h.pop len
    rw [← List.append_nil t.accepted] at hpop
    exact hpop
  | peekOutput len | setError =>
    exact { h with
      accepted := (List.append_nil _).trans h.accepted
      popped := (List.append_nil _).trans h.popped }
  | endInput =>
    exact { h with
      inputEnded := rfl
      accepted := (List.append_nil _).trans h.accepted
      popped := (List.append_nil _).trans h.popped }

/-- The simulation over a whole run. -/
theorem of_run {capacity : ℕ} (hcap : capacity < 2 ^ 31) (ops : List ByteStreamOp) :
    Refines (Traced.of capacity ops) (run queueCall (Fifo.empty capacity) ops) :=
  run_simulation (fun _ _ op h => h.call op) (Refines.new hcap) ops

/-- The counters differ by what is held: the histories do, and less than `2 ^ 31` is held. -/
theorem sub64_counters (h : Refines t q) :
    sub64 t.stream.bytesWritten t.stream.bytesRead = t.stream.bufferSize := by
  have hheld := q.contents_le_capacity
  have hsmall := h.small
  rw [bytesWritten, bytesRead, bufferSize, h.numWritten, h.numRead, h.buffer, q.length_accepted]
  unfold sub64 u64
  omega

theorem eof_iff_counters (h : Refines t q) :
    t.stream.eof = true ↔
      t.stream.inputEnded = true ∧ t.stream.bytesRead = t.stream.bytesWritten := by
  have hcount := h.sub64_counters
  have hread : t.stream.bytesRead < 2 ^ 64 := by
    rw [bytesRead, h.numRead]
    exact u64_lt _
  have hwritten : t.stream.bytesWritten < 2 ^ 64 := by
    rw [bytesWritten, h.numWritten]
    exact u64_lt _
  rw [eof_iff, ← List.length_eq_zero_iff]
  refine and_congr_right fun _ => ?_
  rw [bufferSize] at hcount
  rw [← hcount, sub64]
  omega

end Refines

/-! ### The statement for all runs -/

theorem queueCall_capacity (q : Fifo UInt8) (op : ByteStreamOp) :
    (queueCall q op).capacity = q.capacity := by
  cases op <;> rfl

theorem queueCall_closed (q : Fifo UInt8) (op : ByteStreamOp) :
    (queueCall q op).closed = (q.closed || decide (op = .endInput)) := by
  cases op <;> simp [queueCall, Fifo.push, Fifo.pop, Fifo.close]

/-- A run keeps the capacity, and its queue is closed once the input has been ended. -/
theorem run_queueCall (q : Fifo UInt8) (ops : List ByteStreamOp) :
    (run queueCall q ops).capacity = q.capacity ∧
      (run queueCall q ops).closed = (q.closed || decide (.endInput ∈ ops)) := by
  induction ops generalizing q with
  | nil => simp
  | cons op ops ih =>
    obtain ⟨hcap, hclosed⟩ := ih (queueCall q op)
    refine ⟨hcap.trans (queueCall_capacity q op), hclosed.trans ?_⟩
    rw [queueCall_closed, Bool.or_assoc]
    congr 1
    rw [← Bool.decide_or]
    simp only [List.mem_cons, eq_comm]

/-- **A byte stream is a bounded queue.**  After every sequence of calls, what a write accepts
and what a peek, a read and a pop take are those of a first-in first-out queue, and the counters
agree with the buffer. -/
theorem bounded_fifo {capacity : ℕ} (hcap : capacity < 2 ^ 31) (ops : List ByteStreamOp)
    {t : Traced} (ht : t = Traced.of capacity ops) :
    (∀ data,
        (t.stream.write data).2 =
          (if .endInput ∈ ops then 0 else min data.length (capacity - t.stream.bufferSize)) ∧
        (t.stream.write data).1.buffer = t.stream.buffer ++ data.take (t.stream.write data).2) ∧
      t.popped ++ t.stream.buffer = t.accepted ∧
      (∀ len, t.stream.peekOutput len = t.stream.buffer.take (min len t.stream.bufferSize) ∧
        t.stream.call (.peekOutput len) = t.stream) ∧
      (∀ len, (t.stream.read len).1 = t.stream.buffer.take (min len t.stream.bufferSize) ∧
        (t.stream.read len).2.buffer = t.stream.buffer.drop (min len t.stream.bufferSize) ∧
        (t.stream.popOutput len).buffer =
          t.stream.buffer.drop (min len t.stream.bufferSize)) ∧
      t.stream.bufferSize ≤ capacity ∧
      t.stream.remainingCapacity = capacity - t.stream.bufferSize ∧
      sub64 t.stream.bytesWritten t.stream.bytesRead = t.stream.bufferSize ∧
      (t.stream.eof = true ↔
        .endInput ∈ ops ∧ t.stream.bytesRead = t.stream.bytesWritten) := by
  subst ht
  have h := Refines.of_run hcap ops
  obtain ⟨hqcap, hqclosed⟩ := run_queueCall (Fifo.empty capacity) ops
  have hsmall := h.isSmall
  have hcapacity : (Traced.of capacity ops).stream.capacity = capacity := h.capacity.trans hqcap
  have hended : (Traced.of capacity ops).stream.inputEnded = decide (.endInput ∈ ops) := by
    rw [h.inputEnded, hqclosed]
    rfl
  refine ⟨fun data => ⟨?_, ?_⟩, ?_, fun len => ⟨hsmall.peekOutput_eq len, rfl⟩,
    fun len => ⟨hsmall.peekOutput_eq len, ?_, ?_⟩, ?_, ?_, h.sub64_counters, ?_⟩
  · rw [hsmall.write_snd, room, hended, hcapacity]
    simp only [decide_eq_true_eq]
  · rw [write_buffer, hsmall.accepted_eq, hsmall.write_snd]
  · rw [h.popped, h.buffer, h.accepted, Fifo.released_append_contents]
  · rw [read, hsmall.popOutput_eq]
  · rw [hsmall.popOutput_eq]
  · exact hsmall.fits.trans_eq hcapacity
  · rw [hsmall.remainingCapacity_eq, hcapacity]
  · rw [h.eof_iff_counters, hended, decide_eq_true_eq]

/-- A stream of capacity two that is offered three bytes. -/
theorem bounded_fifo_two :
    (2 : ℕ) < 2 ^ 31 ∧
      (Traced.of 2 [.write [1, 2, 3], .read 1]).popped ++
        (Traced.of 2 [.write [1, 2, 3], .read 1]).stream.buffer = [1, 2] :=
  ⟨by decide, (bounded_fifo (by decide) [.write [1, 2, 3], .read 1] rfl).2.1⟩

end ByteStream

end Sponge
