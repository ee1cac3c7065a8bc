import Sponge.ByteStream
import Sponge.TcpSegment

/-!
# The TCP sender

The sender cuts its outgoing stream into segments, keeps the unacknowledged ones in
`outstandingSegments` and retransmits the oldest when the timer expires.  All counters are
64-bit (`u64`) or 32-bit (`u32`) as in the source; the window edge
`_recent_abs_ackno + _window_size` wraps like any other sum.

`fillWindow` is a `while` loop.  It is run here with a fuel that `fillMeasure` bounds from the
state, and `fillWindow_eq` is its unfolding equation: the fuel never decides anything.
-/

namespace Sponge

open MachineInt

/-- `TCPConfig::MAX_PAYLOAD_SIZE`. -/
def maxPayloadSize : ℕ := 1000

structure Timer where
  elapsedTime : ℕ
  ifRun : Bool
deriving DecidableEq, Repr

namespace Timer

def new : Timer := { elapsedTime := 0, ifRun := false }

def stop (_ : Timer) : Timer := { elapsedTime := 0, ifRun := false }

def start (_ : Timer) : Timer := { elapsedTime := 0, ifRun := true }

def increment (t : Timer) (msSinceLastTick : ℕ) : Timer :=
  if !t.ifRun then t else { t with elapsedTime := u32 (t.elapsedTime + msSinceLastTick) }

end Timer

structure TCPSender where
  isn : WrappingInt32
  segmentsOut : List TCPSegment
  initialRetransmissionTimeout : ℕ
  stream : ByteStream
  nextSeqno : ℕ
  outstandingSegments : List TCPSegment
  bytesInFlight : ℕ
  isSynSet : Bool
  isFinSet : Bool
  consecutiveRetransmissions : ℕ
  recentAbsAckno : ℕ
  windowSize : UInt16
  isWindowSize0 : Bool
  rto : ℕ
  timer : Timer
deriving DecidableEq

namespace TCPSender

/-- The constructor; `random` is the value drawn when no ISN is configured. -/
def new (capacity : ℕ) (retxTimeout : UInt16) (fixedIsn : Option WrappingInt32)
    (random : WrappingInt32) : TCPSender :=
  { isn := fixedIsn.getD random, segmentsOut := []
    initialRetransmissionTimeout := retxTimeout.toNat, stream := ByteStream.new capacity
    nextSeqno := 0, outstandingSegments := [], bytesInFlight := 0, isSynSet := false
    isFinSet := false, consecutiveRetransmissions := 0, recentAbsAckno := 0, windowSize := 1
    isWindowSize0 := false, rto := retxTimeout.toNat, timer := Timer.new }

def isSynSent (st : TCPSender) : Bool := st.isSynSet

def isFinSent (st : TCPSender) : Bool := st.isFinSet

def isFinAcked (st : TCPSender) : Bool := st.isFinSet && st.nextSeqno == st.recentAbsAckno

/-- The first sequence number beyond the window, as `fill_window` computes it. -/
def windowEdge (st : TCPSender) : ℕ := u64 (st.recentAbsAckno + st.windowSize.toNat)

/-- The body of the `fill_window` loop up to the emptiness test: the segment it builds and the
sender after reading from the stream and setting the flags. -/
def nextSegment (st : TCPSender) : TCPSegment × TCPSender :=
  let remainingCapacity := sub64 st.windowEdge st.nextSeqno
  let readSize := min remainingCapacity maxPayloadSize
  let syn := st.nextSeqno == 0
  let segment : TCPSegment :=
    { header := { seqno := wrap st.nextSeqno st.isn, syn := syn }
      payload := (st.stream.read readSize).1 }
  let stream := (st.stream.read readSize).2
  let fin := stream.eof && !st.isFinSet &&
    decide (remainingCapacity > segment.lengthInSequenceSpace)
  ({ segment with header := { segment.header with fin := fin } },
    { st with
      stream := stream
      isSynSet := st.isSynSet || syn
      isFinSet := st.isFinSet || fin })

/-- The rest of the loop body: enqueue the segment and count it. -/
def pushSegment (st : TCPSender) (segment : TCPSegment) : TCPSender :=
  { st with
    segmentsOut := st.segmentsOut ++ [segment]
    outstandingSegments := st.outstandingSegments ++ [segment]
    bytesInFlight := u64 (st.bytesInFlight + segment.lengthInSequenceSpace)
    nextSeqno := u64 (st.nextSeqno + segment.lengthInSequenceSpace)
    timer := if !st.timer.ifRun then st.timer.start else st.timer }

/-- The loop condition of `fill_window`. -/
def mayFill (st : TCPSender) : Bool := !st.isSynSet || decide (st.nextSeqno < st.windowEdge)

def fillLoop : ℕ → TCPSender → TCPSender
  | 0, st => st
  | fuel + 1, st =>
    if st.mayFill then
      if st.nextSegment.1.lengthInSequenceSpace = 0 then st.nextSegment.2
      else fillLoop fuel (st.nextSegment.2.pushSegment st.nextSegment.1)
    else st

/-- Bounds the number of iterations: each one that goes on takes a byte, sets the FIN, or is the
SYN. -/
def fillMeasure (st : TCPSender) : ℕ :=
  2 * st.stream.buffer.length + (if st.isFinSet then 0 else 2) + (if st.nextSeqno = 0 then 1 else 0)

def fillWindow (st : TCPSender) : TCPSender := fillLoop (st.fillMeasure + 1) st

/-- The pop loop of `ack_received`, over the queue of outstanding segments. -/
def popAcked (absAckno : ℕ) : List TCPSegment → TCPSender → TCPSender
  | [], st => st
  | segment :: rest, st =>
    let absSeqno := unwrap segment.header.seqno st.isn st.recentAbsAckno
    if absAckno < u64 (absSeqno + segment.lengthInSequenceSpace) ∨ absAckno > st.nextSeqno then st
    else
      popAcked absAckno rest
        { st with
          outstandingSegments := rest
          bytesInFlight := sub64 st.bytesInFlight segment.lengthInSequenceSpace
          rto := st.initialRetransmissionTimeout
          consecutiveRetransmissions := 0
          timer := st.timer.start }

/-- The start of `ack_received`: a window of zero counts as one and is remembered. -/
def takeWindow (st : TCPSender) (windowSize : UInt16) : TCPSender :=
  if windowSize = 0 then { st with windowSize := 1, isWindowSize0 := true }
  else { st with windowSize := windowSize }

def ackReceived (st : TCPSender) (ackno : WrappingInt32) (windowSize : UInt16) : TCPSender :=
  let st := st.takeWindow windowSize
  let absAckno := unwrap ackno st.isn st.recentAbsAckno
  let st := popAcked absAckno st.outstandingSegments st
  let st := { st with recentAbsAckno := absAckno }
  if st.outstandingSegments.isEmpty then { st with timer := st.timer.stop } else st

/-- `tick`.  `front()` of an empty queue is undefined in the source; nothing is pushed for it
here, and the timer runs only while the queue is not empty. -/
def tick (st : TCPSender) (msSinceLastTick : ℕ) : TCPSender :=
  if !st.timer.ifRun then st
  else
    let st := { st with timer := st.timer.increment msSinceLastTick }
    if st.timer.elapsedTime ≥ st.rto then
      let st := { st with segmentsOut := st.segmentsOut ++ st.outstandingSegments.take 1 }
      let st := if !st.isWindowSize0 then
          { st with
            consecutiveRetransmissions := u32 (st.consecutiveRetransmissions + 1)
            rto := u32 (st.rto * 2) }
        else st
      { st with timer := st.timer.start }
    else st

def sendEmptySegment (st : TCPSender) : TCPSender :=
  { st with
    segmentsOut := st.segmentsOut ++ [{ header := { seqno := wrap st.nextSeqno st.isn } }] }

/-- A write to `stream_in()`. -/
def writeStream (st : TCPSender) (data : List UInt8) : TCPSender :=
  { st with stream := (st.stream.write data).1 }

/-- `stream_in().end_input()`. -/
def endStream (st : TCPSender) : TCPSender := { st with stream := st.stream.endInput }

/-- `stream_in().set_error()`. -/
def errorStream (st : TCPSender) : TCPSender := { st with stream := st.stream.setError }

/-- `segments_out().pop()` by the owner. -/
def popSegment (st : TCPSender) : TCPSender := { st with segmentsOut := st.segmentsOut.drop 1 }

/-! ### The `fill_window` loop -/

theorem readSize_lt (n : ℕ) : min n maxPayloadSize < 2 ^ 31 := by
  unfold maxPayloadSize
  omega

/-- The payload of the next segment and what stays in the stream. -/
theorem nextSegment_stream (st : TCPSender) :
    st.nextSegment.1.payload ++ st.nextSegment.2.stream.buffer = st.stream.buffer :=
  st.stream.peekOutput_append_popOutput _

theorem nextSegment_payload (st : TCPSender) :
    st.nextSegment.1.payload =
      st.stream.buffer.take (min (sub64 st.windowEdge st.nextSeqno) maxPayloadSize) :=
  st.stream.peekOutput_of_lt (readSize_lt _)

/-- A segment without length leaves the sender as it was. -/
theorem nextSegment_of_length_zero {st : TCPSender}
    (h : st.nextSegment.1.lengthInSequenceSpace = 0) :
    st.nextSeqno ≠ 0 ∧ st.nextSegment.1.header.fin = false ∧
      st.nextSegment.2.stream.buffer = st.stream.buffer := by
  obtain ⟨hpay, hsyn, hfin⟩ := TCPSegment.lengthInSequenceSpace_eq_zero_iff.mp h
  refine ⟨?_, hfin, ?_⟩
  · intro h0
    simp [nextSegment, h0] at hsyn
  · rw [← nextSegment_stream st, hpay, List.nil_append]

/-- Every iteration that goes on lowers the measure. -/
theorem fillMeasure_lt {st : TCPSender} (h : st.nextSegment.1.lengthInSequenceSpace ≠ 0) :
    (st.nextSegment.2.pushSegment st.nextSegment.1).fillMeasure < st.fillMeasure := by
  have hbuf := congrArg List.length (nextSegment_stream st)
  rw [List.length_append] at hbuf
  have hstream : (st.nextSegment.2.pushSegment st.nextSegment.1).stream.buffer.length =
      st.nextSegment.2.stream.buffer.length := rfl
  have hnext : (st.nextSegment.2.pushSegment st.nextSegment.1).nextSeqno =
      u64 (st.nextSeqno + st.nextSegment.1.lengthInSequenceSpace) := rfl
  have hfin : (st.nextSegment.2.pushSegment st.nextSegment.1).isFinSet =
      (st.isFinSet || st.nextSegment.1.header.fin) := rfl
  have hsyn : st.nextSegment.1.header.syn = (st.nextSeqno == 0) := rfl
  have hnofin : st.isFinSet = true → st.nextSegment.1.header.fin = false := by
    intro hset
    simp [nextSegment, hset]
  unfold fillMeasure
  rw [hstream, hnext, hfin]
  unfold TCPSegment.lengthInSequenceSpace u64 at *
  rw [hsyn] at h ⊢
  cases hset : st.isFinSet with
  | true =>
    rw [hnofin hset] at h ⊢
    by_cases h0 : st.nextSeqno = 0
    · simp only [h0, beq_self_eq_true, if_true, Bool.or_false, Bool.false_eq_true, if_false] at h ⊢
      split <;> omega
    · simp only [beq_eq_false_iff_ne.mpr h0, if_neg h0, Bool.false_eq_true, if_false,
        Bool.or_false, if_true] at h ⊢
      split <;> omega
  | false =>
    cases hf : st.nextSegment.1.header.fin with
    | true =>
      simp only [Bool.or_true, if_true, Bool.false_eq_true, if_false]
      split <;> split <;> omega
    | false =>
      rw [hf] at h
      by_cases h0 : st.nextSeqno = 0
      · simp only [h0, beq_self_eq_true, if_true, Bool.or_false, Bool.false_eq_true,
          if_false] at h ⊢
        split <;> omega
      · simp only [beq_eq_false_iff_ne.mpr h0, if_neg h0, Bool.false_eq_true, if_false,
          Bool.or_false] at h ⊢
        split <;> omega

/-- More fuel than the measure makes no difference. -/
theorem fillLoop_eq_of_lt {fuel fuel' : ℕ} {st : TCPSender} (h : st.fillMeasure < fuel)
    (h' : st.fillMeasure < fuel') : fillLoop fuel st = fillLoop fuel' st := by
  induction fuel generalizing fuel' st with
  | zero => omega
  | succ fuel ih =>
    cases fuel' with
    | zero => omega
    | succ fuel' =>
      unfold fillLoop
      split
      · split
        · rfl
        · rename_i hlen
          have hlt := fillMeasure_lt hlen
          exact ih (by omega) (by omega)
      · rfl

/-- **The loop equation of `fill_window`.** -/
theorem fillWindow_eq (st : TCPSender) :
    st.fillWindow =
      if st.mayFill then
        if st.nextSegment.1.lengthInSequenceSpace = 0 then st.nextSegment.2
        else (st.nextSegment.2.pushSegment st.nextSegment.1).fillWindow
      else st := by
  conv_lhs => unfold fillWindow fillLoop
  split
  · split
    · rfl
    · rename_i hlen
      exact fillLoop_eq_of_lt (by have := fillMeasure_lt hlen; omega) (by omega)
  · rfl

/-- **The induction rule of `fill_window`.**  What the last, fruitless iteration and every
fruitful iteration keep, the whole call keeps. -/
theorem fillWindow_induct {P : TCPSender → TCPSender → Prop}
    (hstop : ∀ st, st.mayFill = false → P st st)
    (hbreak : ∀ st, st.mayFill = true → st.nextSegment.1.lengthInSequenceSpace = 0 →
      P st st.nextSegment.2)
    (hpush : ∀ st, st.mayFill = true → st.nextSegment.1.lengthInSequenceSpace ≠ 0 →
      P (st.nextSegment.2.pushSegment st.nextSegment.1)
        (st.nextSegment.2.pushSegment st.nextSegment.1).fillWindow →
      P st (st.nextSegment.2.pushSegment st.nextSegment.1).fillWindow)
    (st : TCPSender) : P st st.fillWindow := by
  induction hn : st.fillMeasure using Nat.strong_induction_on generalizing st with
  | _ n ih =>
    rw [fillWindow_eq]
    split
    · rename_i hmay
      split
      · rename_i hlen
        exact hbreak st hmay hlen
      · rename_i hlen
        refine hpush st hmay hlen (ih _ ?_ _ rfl)
        rw [← hn]
        exact fillMeasure_lt hlen
    · rename_i hmay
      exact hstop st (by simpa using hmay)

end TCPSender

end Sponge
