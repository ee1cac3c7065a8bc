import Sponge.BeforeSyn
import Sponge.HiddenState
import Sponge.Retransmission

/-!
# Segments without SYN in LISTEN

A connection that has sent nothing and received no SYN ought to ignore a segment without SYN.
The source ignores none: any payload or FIN is answered with an empty segment, a RST deactivates
the connection for good, and an ACK sets the sender's acknowledgment base and window before there
is anything to acknowledge.

Every such connection is a new one up to a `Variation`, the zero-window flag and the active flag
(`Listening`), and the last section says exactly which of these differences show in a
continuation: `listening_indistinguishable_iff`.  What a segment must look like to go unnoticed
follows from that.
-/

namespace Sponge

open MachineInt Run

namespace TCPConnection

open TCPSender

/-- A new connection, with the two flags that a segment in LISTEN can set. -/
def idle (cfg : TCPConfig) (random : WrappingInt32) (zeroWindow active : Bool) : TCPConnection :=
  { TCPConnection.new cfg random with
    sender := { (TCPConnection.new cfg random).sender with isWindowSize0 := zeroWindow }
    active := active }

/-- The connection is idle, up to what a segment in LISTEN can leave behind. -/
def Listening (cfg : TCPConfig) (random : WrappingInt32) (c : TCPConnection) : Prop :=
  ∃ zeroWindow active v, v.recent < 2 ^ 64 ∧ c = (idle cfg random zeroWindow active).vary v

/-- The call brings no SYN. -/
def carriesSyn : ConnOp → Bool
  | .segment seg => seg.header.syn
  | _ => false

variable {cfg : TCPConfig} {random : WrappingInt32} {zeroWindow active : Bool} {v : Variation}
  {seg : TCPSegment}

theorem idle_inv (hrecent : v.recent < 2 ^ 64) :
    SenderInv [] [] ((idle cfg random zeroWindow active).vary v).sender :=
  { new_inv cfg.sendCapacity cfg.rtTimeout cfg.fixedIsn random with recent := hrecent }

theorem idle_senderOk (hrecent : v.recent < 2 ^ 64) :
    SenderOk ((idle cfg random zeroWindow active).vary v).sender := ⟨[], [], idle_inv hrecent⟩

/-! ### What a segment leaves behind -/

/-- What a segment without SYN and without length leaves behind. -/
def hear (isn : WrappingInt32) (seg : TCPSegment) (v : Variation) : Variation :=
  { inError := v.inError || seg.header.rst
    outError := v.outError || seg.header.rst
    recent := if seg.header.ack then unwrap seg.header.ackno isn v.recent else v.recent
    window := if seg.header.ack then (if seg.header.win = 0 then 1 else seg.header.win)
      else v.window
    time := 0 }

theorem segmentReceived_new {capacity : ℕ} (hlen : seg.lengthInSequenceSpace = 0) :
    (TCPReceiver.new capacity).segmentReceived seg = TCPReceiver.new capacity := by
  obtain ⟨-, hsyn, hfin⟩ := TCPSegment.lengthInSequenceSpace_eq_zero_iff.mp hlen
  rw [TCPReceiver.segmentReceived_of_not_pushes fun hp => hp.1 hlen,
    TCPReceiver.noteFlags_new capacity hsyn hfin]

theorem noteReset_idle :
    ((idle cfg random zeroWindow active).vary v).noteReset seg =
      (idle cfg random zeroWindow (active && !seg.header.rst)).vary
        { v with inError := v.inError || seg.header.rst
                 outError := v.outError || seg.header.rst } := by
  unfold noteReset
  cases seg.header.rst with
  | false => simp
  | true =>
    simp only [if_true, Bool.or_true, Bool.not_true, Bool.and_false]
    rfl

/-- An acknowledgment with nothing outstanding sets the base and the window. -/
theorem ackReceived_idle (ackno : WrappingInt32) (window : UInt16) :
    ((idle cfg random zeroWindow active).vary v).sender.ackReceived ackno window =
      ((idle cfg random (zeroWindow || decide (window = 0)) active).vary
        { v with recent := unwrap ackno (cfg.fixedIsn.getD random) v.recent
                 window := if window = 0 then 1 else window }).sender := by
  unfold ackReceived takeWindow
  by_cases hzero : window = 0
  · simp only [hzero, if_true, decide_true, Bool.or_true]
    rfl
  · simp only [hzero, if_false, decide_false, Bool.or_false]
    rfl

theorem takeAck_idle :
    ((idle cfg random zeroWindow active).vary v).takeAck seg =
      (idle cfg random (zeroWindow || (seg.header.ack && decide (seg.header.win = 0))) active).vary
        { v with
          recent := if seg.header.ack then
            unwrap seg.header.ackno (cfg.fixedIsn.getD random) v.recent else v.recent
          window := if seg.header.ack then (if seg.header.win = 0 then 1 else seg.header.win)
            else v.window } := by
  unfold takeAck
  cases seg.header.ack with
  | false => simp
  | true =>
    simp only [if_true, Bool.true_and, ackReceived_idle]
    rfl

/-- **What a segment without SYN and without length does in LISTEN.** -/
theorem segment_idle (hlen : seg.lengthInSequenceSpace = 0) :
    connStep ((idle cfg random zeroWindow active).vary v) (.segment seg) =
      (idle cfg random (zeroWindow || (seg.header.ack && decide (seg.header.win = 0)))
        (active && !seg.header.rst)).vary (hear (cfg.fixedIsn.getD random) seg v) := by
  have hrecv : ∀ (z a : Bool) (w : Variation),
      { (idle cfg random z a).vary w with
        receiver := ((idle cfg random z a).vary w).receiver.segmentReceived seg } =
      (idle cfg random z a).vary w := by
    intro z a w
    have hsame : ((idle cfg random z a).vary w).receiver.segmentReceived seg =
        ((idle cfg random z a).vary w).receiver := by
      show ((TCPReceiver.new cfg.recvCapacity).mark w.inError).segmentReceived seg = _
      rw [TCPReceiver.segmentReceived_mark, segmentReceived_new hlen]
      rfl
    rw [hsame]
  show (processSegment _ seg).sendSegments = _
  unfold processSegment
  simp only [noteReset_idle, hrecv, takeAck_idle]
  rw [replyToData, if_neg (by simp [hlen])]
  rfl

/-! ### The connections in LISTEN -/

theorem Listening.new (cfg : TCPConfig) (random : WrappingInt32) :
    Listening cfg random (TCPConnection.new cfg random) :=
  ⟨false, true, { inError := false, outError := false, recent := 0, window := 1, time := 0 },
    Nat.two_pow_pos 64, rfl⟩

theorem hear_recent_lt (hrecent : v.recent < 2 ^ 64) (isn : WrappingInt32) (seg : TCPSegment) :
    (hear isn seg v).recent < 2 ^ 64 := by
  show (if seg.header.ack then unwrap seg.header.ackno isn v.recent else v.recent) < 2 ^ 64
  split
  · exact unwrap_lt _ _ _
  · exact hrecent

/-- A call in LISTEN that brings no SYN and sends nothing. -/
theorem Listening.step {c : TCPConnection} (h : Listening cfg random c) {op : ConnOp}
    (hop : carriesSyn op = false) (hquiet : enqueued c op = []) :
    Listening cfg random (connStep c op) := by
  obtain ⟨zeroWindow, active, v, hrecent, rfl⟩ := h
  rw [enqueued_eq_nil_iff (idle_senderOk hrecent)] at hquiet
  have hsyn : ∀ st : TCPSender, st.isSynSet = false → ¬ st.NothingToSend := by
    intro st hst hnothing
    exact absurd hnothing.1 (by simp [hst])
  cases op with
  | segment seg =>
    obtain ⟨-, hlen, -⟩ := hquiet
    exact ⟨_, _, _, hear_recent_lt hrecent _ seg, segment_idle hlen⟩
  | write data =>
    rcases hquiet with rfl | ⟨-, hnothing⟩
    · exact ⟨zeroWindow, active, v, hrecent, rfl⟩
    · exact absurd hnothing (hsyn _ rfl)
  | endInput => exact absurd hquiet.2 (hsyn _ rfl)
  | connect =>
    rcases hquiet with hinactive | ⟨-, hnothing⟩
    · have hinactive : active = false := hinactive
      subst hinactive
      exact ⟨zeroWindow, false, v, hrecent, rfl⟩
    · exact absurd hnothing (hsyn _ rfl)
  | tick ms => exact ⟨zeroWindow, active, { v with time := u64 (v.time + ms) }, hrecent, rfl⟩
  | read len =>
    refine ⟨zeroWindow, active, v, hrecent, ?_⟩
    have hread : ((TCPReceiver.new cfg.recvCapacity).mark v.inError).readOut len =
        (TCPReceiver.new cfg.recvCapacity).mark v.inError :=
      congrArg (·.mark v.inError) (TCPReceiver.readOut_new cfg.recvCapacity len)
    show { (idle cfg random zeroWindow active).vary v with
      receiver := ((TCPReceiver.new cfg.recvCapacity).mark v.inError).readOut len } = _
    rw [hread]
    rfl
  | popOut => exact ⟨zeroWindow, active, v, hrecent, rfl⟩

/-- A connection that has sent nothing and received no SYN is in LISTEN. -/
theorem Listening.of_run (cfg : TCPConfig) (random : WrappingInt32) {early : List ConnOp}
    (hearly : Along connStep (fun c op => carriesSyn op = false ∧ enqueued c op = [])
      (TCPConnection.new cfg random) early) :
    Listening cfg random (run connStep (TCPConnection.new cfg random) early) :=
  run_invariant (fun _ _ h hop => h.step hop.1 hop.2) (Listening.new cfg random) hearly

/-! ### The first segment shows whether the window edge is zero, one or more -/

/-- `fill_window` starts with the SYN segment. -/
theorem fillWindow_head (st : TCPSender) (hsyn : st.isSynSet = false) (hnext : st.nextSeqno = 0)
    (hout : st.segmentsOut = []) :
    ∃ rest, st.fillWindow.segmentsOut = st.nextSegment.1 :: rest := by
  have hlen : st.nextSegment.1.lengthInSequenceSpace ≠ 0 := by
    rw [nextSegment_length, if_pos hnext]
    omega
  obtain ⟨new, hf⟩ := fillWindow_filled (st.nextSegment.2.pushSegment st.nextSegment.1)
  refine ⟨new, ?_⟩
  rw [fillWindow_eq, if_pos (by simp [mayFill, hsyn]), if_neg hlen, hf.segmentsOut]
  show (st.segmentsOut ++ [st.nextSegment.1]) ++ new = _
  rw [hout]
  rfl

theorem stamp_of_none {r : TCPReceiver} (h : r.ackno = none) (seg : TCPSegment) :
    stamp r seg = seg := by
  rw [stamp, h]

/-- In LISTEN, what `fill_window` builds is what is enqueued. -/
theorem enqueued_idle {op : ConnOp} {st : TCPSender}
    (hstep : connStep ((idle cfg random zeroWindow active).vary v) op =
      { (idle cfg random zeroWindow active).vary v with sender := st }.sendSegments) :
    enqueued ((idle cfg random zeroWindow active).vary v) op = st.segmentsOut := by
  rw [enqueued, hstep]
  show (st.segmentsOut.map (stamp _)).drop 0 = _
  rw [List.drop_zero, List.map_congr_left fun seg _ => stamp_of_none rfl seg, List.map_id']

/-- The FIN goes out with the SYN if the window edge is above one. -/
theorem endInput_idle (cfg : TCPConfig) (random : WrappingInt32) (zeroWindow active : Bool)
    (v : Variation) :
    ∃ seg rest, enqueued ((idle cfg random zeroWindow active).vary v) .endInput = seg :: rest ∧
      (seg.header.fin = true ↔ 1 < u64 (v.recent + v.window.toNat)) := by
  obtain ⟨st, hst⟩ : ∃ st, st = ((idle cfg random zeroWindow active).vary v).sender.endStream :=
    ⟨_, rfl⟩
  have hempty : st.stream.buffer = [] := by rw [hst]; rfl
  have hended : st.nextSegment.2.stream.inputEnded = true := by rw [hst]; rfl
  have hnext : st.nextSeqno = 0 := by rw [hst]; rfl
  have hfin : st.isFinSet = false := by rw [hst]; rfl
  have hedge : st.windowEdge = u64 (v.recent + v.window.toNat) := by rw [hst]; rfl
  obtain ⟨rest, hrest⟩ := fillWindow_head st (by rw [hst]; rfl) hnext (by rw [hst]; rfl)
  refine ⟨_, rest, (enqueued_idle (by rw [hst]; rfl)).trans hrest, ?_⟩
  have hread := nextSegment_stream st
  rw [hempty, List.append_eq_nil_iff] at hread
  rw [nextSegment_fin, hread.1, hread.2, hnext, hfin, hended, hedge,
    sub64_of_le (u64_lt _) (by omega)]
  simp

/-- The SYN takes a byte along if the window edge is not zero. -/
theorem write_idle (hcap : 0 < cfg.sendCapacity) (hsize : cfg.sendCapacity < 2 ^ 64)
    (random : WrappingInt32) (zeroWindow active : Bool) (v : Variation) (b : UInt8) :
    ∃ seg rest, enqueued ((idle cfg random zeroWindow active).vary v) (.write [b]) = seg :: rest ∧
      (seg.payload = [] ↔ u64 (v.recent + v.window.toNat) = 0) := by
  obtain ⟨st, hst⟩ :
      ∃ st, st = ((idle cfg random zeroWindow active).vary v).sender.writeStream [b] := ⟨_, rfl⟩
  have hbuffer : st.stream.buffer = [b] := by
    have hwf : (((idle cfg random zeroWindow active).vary v).sender.stream).WF :=
      ⟨Nat.zero_le _, hsize⟩
    have hfit : ([] : List UInt8).length + [b].length ≤ cfg.sendCapacity := by
      simp only [List.length_nil, List.length_singleton]
      omega
    have haccepted :
        ((idle cfg random zeroWindow active).vary v).sender.stream.accepted [b] = [b] :=
      hwf.accepted_eq rfl hfit (by simp)
    rw [hst]
    show (ByteStream.write _ [b]).1.buffer = [b]
    rw [ByteStream.write_buffer, haccepted]
    rfl
  have hnext : st.nextSeqno = 0 := by rw [hst]; rfl
  have hedge : st.windowEdge = u64 (v.recent + v.window.toNat) := by rw [hst]; rfl
  obtain ⟨rest, hrest⟩ := fillWindow_head st (by rw [hst]; rfl) hnext (by rw [hst]; rfl)
  refine ⟨_, rest, (enqueued_idle (by rw [hst]; rfl)).trans hrest, ?_⟩
  rw [nextSegment_payload, hbuffer, hnext, hedge, sub64_of_le (u64_lt _) (by omega), Nat.sub_zero]
  unfold maxPayloadSize
  simp

/-! ### Writing on shows every other window edge -/

theorem fillWindow_capacity (st : TCPSender) :
    st.fillWindow.stream.capacity = st.stream.capacity := by
  refine fillWindow_induct (P := fun st st' => st'.stream.capacity = st.stream.capacity) ?_ ?_ ?_ st
  · intro st _
    rfl
  · intro st _ _
    rfl
  · intro st _ _ ih
    exact ih

/-- A byte that is written finds the buffer empty, or something is in it anyway. -/
theorem writeStream_ne_nil {st : TCPSender} (hopen : st.stream.inputEnded = false)
    (hcap : 0 < st.stream.capacity) (hsize : st.stream.capacity < 2 ^ 64) (b : UInt8) :
    (st.writeStream [b]).stream.buffer ≠ [] := by
  show (st.stream.write [b]).1.buffer ≠ []
  rw [ByteStream.write_buffer]
  by_cases hnil : st.stream.buffer = []
  · have hwf : st.stream.WF := ⟨by rw [hnil]; exact Nat.zero_le _, hsize⟩
    have hfit : st.stream.buffer.length + [b].length ≤ st.stream.capacity := by
      rw [hnil, List.length_nil, List.length_singleton]
      omega
    rw [hwf.accepted_eq hopen hfit (by simp)]
    simp
  · simp [hnil]

/-- With a byte to send and room in the window, `fill_window` moves on. -/
theorem fillWindow_advances {accepted : List UInt8} {acked : List TCPSegment} {st : TCPSender}
    (h : SenderInv accepted acked st) (hbuffer : st.stream.buffer ≠ [])
    (hlt : st.nextSeqno < st.windowEdge) : st.nextSeqno < st.fillWindow.nextSeqno := by
  have hmay : st.mayFill = true := by simp [mayFill, hlt]
  have hlen : st.nextSegment.1.lengthInSequenceSpace ≠ 0 := by
    by_cases hnext : st.nextSeqno = 0
    · rw [nextSegment_length, if_pos hnext]
      omega
    · rw [ne_eq, nextSegment_length_zero_iff hnext hlt]
      exact fun hdrained => hbuffer hdrained.1
  have hpush := (h.pushSegment hmay hlen).nextSeqno_le_fillWindow
  have hnext : (st.nextSegment.2.pushSegment st.nextSegment.1).nextSeqno =
      st.nextSeqno + st.nextSegment.1.lengthInSequenceSpace := u64_of_lt (h.next_add_lt hmay)
  rw [fillWindow_eq, if_pos hmay, if_neg hlen]
  omega

theorem seqLen_stamp (r : TCPReceiver) (segs : List TCPSegment) :
    seqLen (segs.map (stamp r)) = seqLen segs := by
  induction segs with
  | nil => rfl
  | cons seg segs ih =>
    rw [List.map_cons, seqLen_cons, seqLen_cons, ih, (Endpoint.stamp_sameData r seg).length]

/-- Some bytes have been written one by one to a connection with window edge `edge`, and nothing
has come back. -/
structure Typed (edge count : ℕ) (c : TCPConnection) : Prop where
  inv : ∃ accepted, SenderInv accepted [] c.sender ∧ accepted.length ≤ count
  windowEdge : c.sender.windowEdge = edge
  queue : c.sender.segmentsOut = []
  isOpen : c.sender.stream.inputEnded = false
  capacity : 0 < c.sender.stream.capacity
  size : c.sender.stream.capacity < 2 ^ 64
  atLeast : min count edge ≤ c.sender.nextSeqno
  atMost : c.sender.nextSeqno ≤ max 2 edge

theorem Typed.idle (hrecent : v.recent < 2 ^ 64) (hcap : 0 < cfg.sendCapacity)
    (hsize : cfg.sendCapacity < 2 ^ 64) :
    Typed (u64 (v.recent + v.window.toNat)) 0
      ((TCPConnection.idle cfg random zeroWindow active).vary v) :=
  ⟨⟨[], idle_inv hrecent, le_rfl⟩, rfl, rfl, rfl, hcap, hsize, by simp, Nat.zero_le _⟩

/-- Before the owner ends the input, only the SYN is numbered besides the bytes. -/
theorem next_le_of_open {accepted : List UInt8} {acked : List TCPSegment} {st : TCPSender}
    (h : SenderInv accepted acked st) (hopen : st.stream.inputEnded = false) :
    st.nextSeqno ≤ accepted.length + 1 := by
  have hfin : st.isFinSet = false := by
    by_contra hne
    have hended := (h.ended (by simpa using hne)).1
    rw [hopen] at hended
    cases hended
  have hread := congrArg List.length h.stream
  rw [List.length_append, ← h.read] at hread
  rw [h.next_eq, hfin]
  simp only [Bool.false_eq_true, if_false]
  split <;> omega

/-- The call of a one-byte write is `write`, `fill_window` and `send_segments`. -/
theorem connStep_write_byte (c : TCPConnection) (b : UInt8) : connStep c (.write [b]) =
    { c with sender := (c.sender.writeStream [b]).fillWindow }.sendSegments := rfl

/-- A one-byte write moves on by as much as it enqueues. -/
theorem Typed.write_next {edge count : ℕ} {c : TCPConnection} (h : Typed edge count c)
    (b : UInt8) : (connStep c (.write [b])).sender.nextSeqno =
      c.sender.nextSeqno + seqLen (enqueued c (.write [b])) := by
  obtain ⟨accepted, hinv, -⟩ := h.inv
  have hwrite := hinv.write [b]
  have hqueue : (c.sender.writeStream [b]).segmentsOut = [] := h.queue
  have hnext : (c.sender.writeStream [b]).nextSeqno = c.sender.nextSeqno := rfl
  have hstep := connStep_write_byte c b
  generalize c.sender.writeStream [b] = st at hwrite hqueue hnext hstep
  obtain ⟨new, hf⟩ := fillWindow_filled st
  -- what is new in the queue is what is new among the outstanding segments
  have henqueued : enqueued c (.write [b]) = new.map (stamp c.receiver) := by
    rw [enqueued, hstep, sendSegments, List.drop_left, hf.segmentsOut, hqueue]
    rfl
  rw [hstep]
  show st.fillWindow.nextSeqno = _
  rw [henqueued, seqLen_stamp, hwrite.fillWindow.next, hf.outstanding, List.nil_append,
    seqLen_append, ← hnext, hwrite.next, List.nil_append]

/-- A one-byte write moves on by something while the window has room. -/
theorem Typed.write {edge count : ℕ} {c : TCPConnection} (h : Typed edge count c)
    (hedge : 0 < edge) (b : UInt8) : Typed edge (count + 1) (connStep c (.write [b])) := by
  obtain ⟨accepted, hinv, hcount⟩ := h.inv
  have hwrite := hinv.write [b]
  have hnext : (c.sender.writeStream [b]).nextSeqno = c.sender.nextSeqno := rfl
  have hst_edge : (c.sender.writeStream [b]).windowEdge = edge := h.windowEdge
  have hst_open : (c.sender.writeStream [b]).stream.inputEnded = false :=
    (ByteStream.write_inputEnded _ _).trans h.isOpen
  have hst_cap : (c.sender.writeStream [b]).stream.capacity = c.sender.stream.capacity :=
    ByteStream.write_capacity _ _
  have hbuffer := writeStream_ne_nil h.isOpen h.capacity h.size b
  have hlen : (accepted ++ c.sender.stream.accepted [b]).length ≤ count + 1 := by
    have := (ByteStream.accepted_prefix c.sender.stream [b]).length_le
    rw [List.length_append]
    simp only [List.length_singleton] at this
    omega
  rw [connStep_write_byte]
  generalize c.sender.writeStream [b] = st at *
  obtain ⟨new, hf⟩ := fillWindow_filled st
  have hfill := hwrite.fillWindow
  have hopen := hf.inputEnded.trans hst_open
  have hgrow := hwrite.nextSeqno_le_fillWindow
  have hatLeast := h.atLeast
  have hatMost := h.atMost
  refine ⟨⟨_, { hfill with }, hlen⟩, ?_, rfl, hopen, ?_, ?_, ?_, ?_⟩
  · show st.fillWindow.windowEdge = edge
    rw [TCPSender.windowEdge, hf.recent, hf.window]
    exact hst_edge
  · show 0 < st.fillWindow.stream.capacity
    rw [fillWindow_capacity, hst_cap]
    exact h.capacity
  · show st.fillWindow.stream.capacity < 2 ^ 64
    rw [fillWindow_capacity, hst_cap]
    exact h.size
  · show min (count + 1) edge ≤ st.fillWindow.nextSeqno
    by_cases hroom : st.nextSeqno < st.windowEdge
    · have := fillWindow_advances hwrite hbuffer hroom
      omega
    · omega
  · show st.fillWindow.nextSeqno ≤ max 2 edge
    rcases hwrite.fillWindow_edge with hsame | ⟨hzero, -⟩ | hle
    · rw [hsame]
      omega
    · -- the SYN has at most the one byte with it
      have := next_le_of_open hfill hopen
      omega
    · omega

/-- Two connections that cannot be told apart stay at the same number while bytes are written. -/
theorem Typed.both {edge edge' count : ℕ} {c c' : TCPConnection} (h : Typed edge count c)
    (h' : Typed edge' count c') (hedge : 0 < edge) (hedge' : 0 < edge')
    (hsame : Indistinguishable connStep shows c c')
    (hnext : c.sender.nextSeqno = c'.sender.nextSeqno) (more : ℕ) :
    ∃ d d', Typed edge (count + more) d ∧ Typed edge' (count + more) d' ∧
      d.sender.nextSeqno = d'.sender.nextSeqno := by
  induction more generalizing count c c' with
  | zero => exact ⟨c, c', h, h', hnext⟩
  | succ more ih =>
    have henqueued := enqueued_eq_of_indistinguishable hsame (.write [0])
    have hlater := ih (h.write hedge 0) (h'.write hedge' 0) (hsame.after [.write [0]])
      (by rw [h.write_next, h'.write_next, henqueued, hnext])
    rwa [Nat.add_assoc, Nat.add_comm 1] at hlater

/-! ### Retransmissions show the zero-window flag -/

/-- A tick that lets any retransmission timer run out. -/
def expire : ConnOp := .tick (2 ^ 32 - 1)

/-- The timer has just been started, and so many retransmissions have been counted. -/
structure Ringing (zeroWindow : Bool) (count : ℕ) (c : TCPConnection) : Prop where
  timer : c.sender.timer = { elapsedTime := 0, ifRun := true }
  oldest : ∃ seg rest, c.sender.outstandingSegments = seg :: rest ∧ seg.header.rst = false
  queue : c.sender.segmentsOut = []
  zeroWindow : c.sender.isWindowSize0 = zeroWindow
  counted : c.sender.consecutiveRetransmissions = count
  rto : c.sender.rto < 2 ^ 32

/-- A timer that runs is left alone. -/
theorem fillWindow_timer {st : TCPSender} (hrun : st.timer.ifRun = true) :
    st.fillWindow.timer = st.timer := by
  refine fillWindow_induct (P := fun st st' => st.timer.ifRun = true → st'.timer = st.timer)
    ?_ ?_ ?_ st hrun
  · exact fun _ _ _ => rfl
  · exact fun _ _ _ _ => rfl
  · intro st _ _ ih hrun
    have hsame : (st.nextSegment.2.pushSegment st.nextSegment.1).timer = st.timer := by
      show (if !st.timer.ifRun then st.timer.start else st.timer) = st.timer
      rw [hrun]
      rfl
    rw [ih (by rw [hsame, hrun]), hsame]

/-- Ending the input in LISTEN sends the SYN and starts the timer. -/
theorem Ringing.endInput (cfg : TCPConfig) (random : WrappingInt32) (zeroWindow active : Bool)
    (v : Variation) :
    Ringing zeroWindow 0 (connStep ((idle cfg random zeroWindow active).vary v) .endInput) := by
  obtain ⟨st, hst⟩ : ∃ st, st = ((idle cfg random zeroWindow active).vary v).sender.endStream :=
    ⟨_, rfl⟩
  have hlen : st.nextSegment.1.lengthInSequenceSpace ≠ 0 := by
    rw [nextSegment_length, if_pos (by rw [hst]; rfl)]
    omega
  have hfill : st.fillWindow = (st.nextSegment.2.pushSegment st.nextSegment.1).fillWindow := by
    rw [fillWindow_eq, if_pos (by rw [hst]; rfl), if_neg hlen]
  have htiming := fillWindow_sameTiming (st.nextSegment.2.pushSegment st.nextSegment.1)
  obtain ⟨new, hf⟩ := fillWindow_filled (st.nextSegment.2.pushSegment st.nextSegment.1)
  have hstart : (st.nextSegment.2.pushSegment st.nextSegment.1).timer =
      { elapsedTime := 0, ifRun := true } := by rw [hst]; rfl
  have hstep : (connStep ((idle cfg random zeroWindow active).vary v) .endInput).sender =
      { st.fillWindow with segmentsOut := [] } := by rw [hst]; rfl
  have hout : st.outstandingSegments = [] := by rw [hst]; rfl
  refine ⟨?_, ?_, ?_, ?_, ?_, ?_⟩ <;> rw [hstep]
  · show st.fillWindow.timer = _
    rw [hfill, fillWindow_timer (by rw [hstart]), hstart]
  · refine ⟨st.nextSegment.1, new, ?_, rfl⟩
    show st.fillWindow.outstandingSegments = _
    rw [hfill, hf.outstanding]
    show (st.outstandingSegments ++ [st.nextSegment.1]) ++ new = _
    rw [hout]
    rfl
  · show st.fillWindow.isWindowSize0 = _
    rw [hfill, htiming.zeroWindow, hst]
    rfl
  · show st.fillWindow.consecutiveRetransmissions = _
    rw [hfill, hf.retransmissions, hst]
    rfl
  · show st.fillWindow.rto < 2 ^ 32
    rw [hfill, htiming.rto, hst]
    show cfg.rtTimeout.toNat < 2 ^ 32
    have := cfg.rtTimeout.toNat_lt
    omega

/-- The oldest segment is sent again; it counts unless the window was zero. -/
theorem Ringing.tick_sender {zeroWindow : Bool} {count : ℕ} {c : TCPConnection}
    (h : Ringing zeroWindow count c) :
    ∃ seg rest, c.sender.outstandingSegments = seg :: rest ∧ seg.header.rst = false ∧
      c.sender.tick (2 ^ 32 - 1) =
        { c.sender with
          segmentsOut := [seg]
          timer := { elapsedTime := 0, ifRun := true }
          consecutiveRetransmissions := if zeroWindow then count else u32 (count + 1)
          rto := if zeroWindow then c.sender.rto else u32 (c.sender.rto * 2) } := by
  obtain ⟨seg, rest, hout, hrst⟩ := h.oldest
  refine ⟨seg, rest, hout, hrst, ?_⟩
  have helapsed : (Timer.increment { elapsedTime := 0, ifRun := true } (2 ^ 32 - 1)).elapsedTime =
      2 ^ 32 - 1 := by decide
  have hexp : c.sender.Expires (2 ^ 32 - 1) := by
    have hrto := h.rto
    rw [TCPSender.Expires, h.timer, helapsed]
    exact ⟨rfl, by omega⟩
  rw [TCPSender.tick_of_expires hexp]
  simp [h.queue, hout, h.zeroWindow, h.counted]

theorem stamp_rst (r : TCPReceiver) (seg : TCPSegment) :
    (stamp r seg).header.rst = seg.header.rst := by
  unfold stamp
  split <;> rfl

/-- A retransmission below the limit goes out as it is, and the timer starts anew. -/
theorem Ringing.again {zeroWindow : Bool} {count : ℕ} {c : TCPConnection}
    (h : Ringing zeroWindow count c) (count' : ℕ)
    (hcount : count' = if zeroWindow then count else count + 1) (hle : count' ≤ maxRetxAttempts) :
    Ringing zeroWindow count' (connStep c expire) ∧
      ∀ seg ∈ enqueued c expire, seg.header.rst = false := by
  obtain ⟨seg, rest, hout, hrst, htick⟩ := h.tick_sender
  have hretx : (c.sender.tick (2 ^ 32 - 1)).consecutiveRetransmissions = count' := by
    unfold maxRetxAttempts at hle
    rw [htick, hcount]
    cases zeroWindow with
    | true => rfl
    | false =>
      simp only [Bool.false_eq_true, if_false] at hcount ⊢
      exact Nat.mod_eq_of_lt (by omega)
  -- both other ways through `tick` end with `send_segments`
  have hstep : ∃ c' : TCPConnection, connStep c expire = c'.sendSegments ∧
      c'.segmentsOut = c.segmentsOut ∧ c'.sender = c.sender.tick (2 ^ 32 - 1) := by
    rcases c.tick_cases (2 ^ 32 - 1) with ⟨hexceeds, -⟩ | ⟨-, active, -, heq⟩
    · rw [hretx] at hexceeds
      exact absurd hle (not_le.mpr hexceeds)
    · exact ⟨_, heq, rfl, rfl⟩
  obtain ⟨c', hstep, hqueue, hsender⟩ := hstep
  have hsender' : (connStep c expire).sender =
      { c.sender.tick (2 ^ 32 - 1) with segmentsOut := [] } := by
    rw [hstep, ← hsender]
    rfl
  refine ⟨⟨?_, ⟨seg, rest, ?_, hrst⟩, ?_, ?_, ?_, ?_⟩, ?_⟩
  · rw [hsender', htick]
  · rw [hsender', htick]
    exact hout
  · rw [hsender']
  · rw [hsender', htick]
    exact h.zeroWindow
  · rw [hsender']
    exact hretx
  · rw [hsender', htick]
    show (if zeroWindow then c.sender.rto else u32 (c.sender.rto * 2)) < 2 ^ 32
    split
    · exact h.rto
    · exact Nat.mod_lt _ (by decide)
  · intro s hs
    rw [enqueued, hstep, sendSegments, hqueue, List.drop_left, hsender, htick] at hs
    obtain ⟨s', hs', rfl⟩ := List.mem_map.mp hs
    rw [stamp_rst, List.mem_singleton.mp hs', hrst]

/-- The retransmission beyond the limit goes out as a RST. -/
theorem Ringing.reset {c : TCPConnection} (h : Ringing false maxRetxAttempts c) :
    ∃ seg ∈ enqueued c expire, seg.header.rst = true := by
  obtain ⟨seg, rest, hout, -, htick⟩ := h.tick_sender
  have hretx : (c.sender.tick (2 ^ 32 - 1)).consecutiveRetransmissions > maxRetxAttempts := by
    rw [htick]
    exact (by decide : u32 (maxRetxAttempts + 1) > maxRetxAttempts)
  rcases c.tick_cases (2 ^ 32 - 1) with ⟨-, heq⟩ | ⟨hle, -⟩
  · obtain ⟨front, queue, -, hreset⟩ := (c.passTime (2 ^ 32 - 1)).sendReset_abort
    refine ⟨stamp (c.passTime (2 ^ 32 - 1)).abort.receiver
      { front with header := { front.header with rst := true } }, ?_, stamp_rst _ _⟩
    show _ ∈ (c.tick (2 ^ 32 - 1)).segmentsOut.drop c.segmentsOut.length
    rw [heq, hreset]
    show _ ∈ (c.segmentsOut ++ [_]).drop c.segmentsOut.length
    rw [List.drop_left]
    exact List.mem_singleton_self _
  · exact absurd hretx (not_lt.mpr hle)

section Tests

variable {z z' a a' : Bool} {v v' : Variation}

/-- The smaller window edge shows. -/
theorem not_edge_lt (hcap : 0 < cfg.sendCapacity) (hsize : cfg.sendCapacity < 2 ^ 64)
    (hrecent : v.recent < 2 ^ 64) (hrecent' : v'.recent < 2 ^ 64)
    (hsame : Indistinguishable connStep shows ((idle cfg random z a).vary v)
      ((idle cfg random z' a').vary v')) :
    ¬ u64 (v.recent + v.window.toNat) < u64 (v'.recent + v'.window.toNat) := by
  intro hlt
  by_cases hzero : u64 (v.recent + v.window.toNat) = 0
  · obtain ⟨seg, rest, heq, hseg⟩ := write_idle hcap hsize random z a v 0
    obtain ⟨seg', rest', heq', hseg'⟩ := write_idle hcap hsize random z' a' v' 0
    have henqueued := enqueued_eq_of_indistinguishable hsame (.write [0])
    rw [heq, heq', List.cons.injEq] at henqueued
    rw [henqueued.1, hseg'] at hseg
    omega
  by_cases hone : u64 (v.recent + v.window.toNat) = 1
  · obtain ⟨seg, rest, heq, hseg⟩ := endInput_idle cfg random z a v
    obtain ⟨seg', rest', heq', hseg'⟩ := endInput_idle cfg random z' a' v'
    have henqueued := enqueued_eq_of_indistinguishable hsame .endInput
    rw [heq, heq', List.cons.injEq] at henqueued
    rw [henqueued.1, hseg'] at hseg
    omega
  · obtain ⟨d, d', htyped, htyped', hnext⟩ :=
      (Typed.idle hrecent hcap hsize).both (Typed.idle hrecent' hcap hsize) (by omega) (by omega)
        hsame rfl (u64 (v.recent + v.window.toNat) + 1)
    have hmost := htyped.atMost
    have hleast := htyped'.atLeast
    omega

/-- **The window edge shows.** -/
theorem edge_eq (hcap : 0 < cfg.sendCapacity) (hsize : cfg.sendCapacity < 2 ^ 64)
    (hrecent : v.recent < 2 ^ 64) (hrecent' : v'.recent < 2 ^ 64)
    (hsame : Indistinguishable connStep shows ((idle cfg random z a).vary v)
      ((idle cfg random z' a').vary v')) :
    u64 (v.recent + v.window.toNat) = u64 (v'.recent + v'.window.toNat) := by
  have hge := not_edge_lt hcap hsize hrecent hrecent' hsame
  have hle := not_edge_lt hcap hsize hrecent' hrecent hsame.symm
  omega

/-- **The acknowledgment base shows**, as far as `unwrap` can tell: the next acknowledgment turns
a difference into one of the window edges. -/
theorem unwrap_recent_eq (hcap : 0 < cfg.sendCapacity) (hsize : cfg.sendCapacity < 2 ^ 64)
    (hsame : Indistinguishable connStep shows ((idle cfg random z a).vary v)
      ((idle cfg random z' a').vary v')) (n : WrappingInt32) :
    unwrap n (cfg.fixedIsn.getD random) v.recent =
      unwrap n (cfg.fixedIsn.getD random) v'.recent := by
  have hafter := hsame.after [.segment { header := { ack := true, ackno := n, win := 1 } }]
  have hlt := unwrap_lt n (cfg.fixedIsn.getD random) v.recent
  have hlt' := unwrap_lt n (cfg.fixedIsn.getD random) v'.recent
  simp only [run_cons, run_nil, segment_idle
    (show TCPSegment.lengthInSequenceSpace { header := { ack := true, ackno := n, win := 1 } } = 0
      from rfl)] at hafter
  have hedge := edge_eq hcap hsize hlt hlt' hafter
  have hone : (1 : UInt16).toNat = 1 := rfl
  have hedge : u64 (unwrap n (cfg.fixedIsn.getD random) v.recent + (1 : UInt16).toNat) =
      u64 (unwrap n (cfg.fixedIsn.getD random) v'.recent + (1 : UInt16).toNat) := hedge
  rw [hone] at hedge
  unfold u64 at hedge
  omega

/-- **The active flag shows** in `connect`. -/
theorem active_eq (hrecent : v.recent < 2 ^ 64) (hrecent' : v'.recent < 2 ^ 64)
    (hsame : Indistinguishable connStep shows ((idle cfg random z a).vary v)
      ((idle cfg random z' a').vary v')) : a = a' := by
  have hconnect : ∀ {z a : Bool} {v : Variation}, v.recent < 2 ^ 64 →
      (enqueued ((idle cfg random z a).vary v) .connect = [] ↔ a = false) := by
    intro z a v hv
    rw [enqueued_eq_nil_iff (idle_senderOk hv)]
    refine or_iff_left fun hnothing => ?_
    exact absurd hnothing.2.1
      (by simp [idle, vary, TCPSender.vary, TCPConnection.new, TCPSender.new])
  have henqueued := enqueued_eq_of_indistinguishable hsame .connect
  have hiff := hconnect (z := z) (a := a) hrecent
  rw [henqueued, hconnect hrecent'] at hiff
  cases a <;> cases a' <;> simp_all

/-- Eight retransmissions that count lead up to the limit; without counting there is none. -/
theorem Ringing.run {zeroWindow : Bool} {c : TCPConnection} (h : Ringing zeroWindow 0 c) {k : ℕ}
    (hk : k ≤ maxRetxAttempts) :
    Ringing zeroWindow (if zeroWindow then 0 else k)
      (Run.run connStep c (List.replicate k expire)) := by
  induction k with
  | zero => cases zeroWindow <;> exact h
  | succ k ih =>
    rw [List.replicate_succ', run_concat]
    refine ((ih (by omega)).again _ ?_ ?_).1
    · cases zeroWindow <;> rfl
    · cases zeroWindow
      · exact hk
      · exact Nat.zero_le _

/-- A connection whose retransmissions count is told apart from one whose do not. -/
theorem zeroWindow_shows (hsame : Indistinguishable connStep shows
      ((idle cfg random false a).vary v) ((idle cfg random true a').vary v')) : False := by
  have hstart := hsame.after [.endInput]
  rw [run_cons, run_nil, run_cons, run_nil] at hstart
  have hlater := hstart.after (List.replicate maxRetxAttempts expire)
  have hcounts := (Ringing.endInput cfg random false a v).run le_rfl
  have hfree := (Ringing.endInput cfg random true a' v').run le_rfl
  obtain ⟨seg, hmem, hrst⟩ := hcounts.reset
  rw [enqueued_eq_of_indistinguishable hlater expire] at hmem
  have hplain := (hfree.again 0 rfl (Nat.zero_le _)).2 seg hmem
  rw [hrst] at hplain
  cases hplain

/-- **The zero-window flag shows.** -/
theorem zeroWindow_eq (hsame : Indistinguishable connStep shows ((idle cfg random z a).vary v)
      ((idle cfg random z' a').vary v')) : z = z' := by
  cases z with
  | false =>
    cases z' with
    | false => rfl
    | true => exact (zeroWindow_shows hsame).elim
  | true =>
    cases z' with
    | false => exact (zeroWindow_shows hsame.symm).elim
    | true => rfl

/-- The differences that do not show. -/
structure SameMarks (z z' a a' : Bool) (v v' : Variation) : Prop where
  zeroWindow : z = z'
  active : a = a'
  edge : u64 (v.recent + v.window.toNat) = u64 (v'.recent + v'.window.toNat)
  base : v.recent = v'.recent ∨ v.recent ≤ 2 ^ 31 ∧ v'.recent ≤ 2 ^ 31

theorem SameMarks.indistinguishable (h : SameMarks z z' a a' v v') (hrecent : v.recent < 2 ^ 64) :
    Indistinguishable connStep shows ((idle cfg random z a).vary v)
      ((idle cfg random z' a').vary v') := by
  obtain ⟨rfl, rfl, hedge, hbase⟩ := h
  refine Alike.indistinguishable ⟨⟨v', rfl, ?_⟩, Or.inr rfl⟩
  rcases hbase with hbase | ⟨hle, hle'⟩
  · refine Or.inl ⟨hbase.symm, UInt16.toNat_inj.mp ?_⟩
    show v'.window.toNat = v.window.toNat
    have hlt := v.window.toNat_lt
    have hlt' := v'.window.toNat_lt
    rw [hbase] at hedge
    unfold u64 at hedge
    omega
  · exact Or.inr ⟨⟨[], idle_inv hrecent⟩, hle', hle, hedge.symm⟩

/-- **What shows of a connection in LISTEN**, if its owner can write at all: the two flags, the
window edge, and the acknowledgment base unless it is in the first half of the number space. -/
theorem listening_indistinguishable_iff (hcap : 0 < cfg.sendCapacity)
    (hsize : cfg.sendCapacity < 2 ^ 64) (hrecent : v.recent < 2 ^ 64)
    (hrecent' : v'.recent < 2 ^ 64) :
    Indistinguishable connStep shows ((idle cfg random z a).vary v)
      ((idle cfg random z' a').vary v') ↔ SameMarks z z' a a' v v' := by
  refine ⟨fun hsame => ?_, fun h => h.indistinguishable hrecent⟩
  exact ⟨zeroWindow_eq hsame, active_eq hrecent hrecent' hsame,
    edge_eq hcap hsize hrecent hrecent' hsame,
    (unwrap_congr_iff _ hrecent hrecent').mp (unwrap_recent_eq hcap hsize hsame)⟩

end Tests

/-! ### Unnoticed segments -/

/-- Nothing is sent in reply, and whatever happens next the connection sends and delivers the same
as if the segment had never arrived. -/
def Unnoticed (c : TCPConnection) (seg : TCPSegment) : Prop :=
  enqueued c (.segment seg) = [] ∧
    Indistinguishable connStep shows (connStep c (.segment seg)) c

/-- From the state before a segment: nothing about it stays. -/
structure Unremarkable (c : TCPConnection) (seg : TCPSegment) : Prop where
  empty : seg.lengthInSequenceSpace = 0
  reset : seg.header.rst = true → c.active = false
  zeroWindow : seg.header.ack = true → seg.header.win = 0 → c.sender.isWindowSize0 = true
  edge : seg.header.ack = true →
    u64 (c.sender.absAckno seg.header.ackno + max 1 seg.header.win.toNat) = c.sender.windowEdge
  base : seg.header.ack = true → c.sender.absAckno seg.header.ackno = c.sender.recentAbsAckno ∨
    c.sender.absAckno seg.header.ackno ≤ 2 ^ 31 ∧ c.sender.recentAbsAckno ≤ 2 ^ 31

/-- An unremarkable segment is one that sets nothing that shows. -/
theorem unremarkable_iff (hlen : seg.lengthInSequenceSpace = 0) :
    Unremarkable ((idle cfg random zeroWindow active).vary v) seg ↔
      SameMarks (zeroWindow || (seg.header.ack && decide (seg.header.win = 0))) zeroWindow
        (active && !seg.header.rst) active (hear (cfg.fixedIsn.getD random) seg v) v := by
  have hreset :
      (active && !seg.header.rst) = active ↔ (seg.header.rst = true → active = false) := by
    cases active <;> cases seg.header.rst <;> simp
  cases hack : seg.header.ack with
  | false =>
    have hmarks : (hear (cfg.fixedIsn.getD random) seg v).recent = v.recent ∧
        (hear (cfg.fixedIsn.getD random) seg v).window = v.window := by
      simp [hear, hack]
    constructor
    · intro h
      exact ⟨by simp, hreset.mpr h.reset, by rw [hmarks.1, hmarks.2], Or.inl hmarks.1⟩
    · intro h
      exact ⟨hlen, hreset.mp h.active, by simp [hack], by simp [hack], by simp [hack]⟩
  | true =>
    have hrecent : (hear (cfg.fixedIsn.getD random) seg v).recent =
        unwrap seg.header.ackno (cfg.fixedIsn.getD random) v.recent := by
      simp [hear, hack]
    have hwindow : (hear (cfg.fixedIsn.getD random) seg v).window.toNat =
        max 1 seg.header.win.toNat := by
      rw [← toNat_window]
      simp [hear, hack]
    have hzero : (zeroWindow || (true && decide (seg.header.win = 0))) = zeroWindow ↔
        (seg.header.win = 0 → zeroWindow = true) := by
      by_cases hwin : seg.header.win = 0 <;> cases zeroWindow <;> simp [hwin]
    constructor
    · intro h
      refine ⟨hzero.mpr (h.zeroWindow hack), hreset.mpr h.reset, ?_, ?_⟩
      · rw [hrecent, hwindow]
        exact h.edge hack
      · rw [hrecent]
        exact h.base hack
    · intro h
      refine ⟨hlen, hreset.mp h.active, fun _ => hzero.mp h.zeroWindow, fun _ => ?_, fun _ => ?_⟩
      · have hedge := h.edge
        rw [hrecent, hwindow] at hedge
        exact hedge
      · have hbase := h.base
        rw [hrecent] at hbase
        exact hbase

theorem enqueued_segment_idle (hlen : seg.lengthInSequenceSpace = 0) :
    enqueued ((idle cfg random zeroWindow active).vary v) (.segment seg) = [] := by
  rw [enqueued, segment_idle hlen]
  rfl

/-- **Which segments go unnoticed in LISTEN.**  For every connection that has sent nothing and
received no SYN, an unremarkable segment is without effect on all that follows; and if the
connection can take any bytes from its owner at all, no other segment is. -/
theorem unnoticed_in_listen (cfg : TCPConfig) (random : WrappingInt32)
    (hsize : cfg.sendCapacity < 2 ^ 64) (early : List ConnOp)
    (hearly : Along connStep (fun c op => carriesSyn op = false ∧ enqueued c op = [])
      (TCPConnection.new cfg random) early)
    (seg : TCPSegment) :
    let c := run connStep (TCPConnection.new cfg random) early
    (Unremarkable c seg → Unnoticed c seg) ∧
      (0 < cfg.sendCapacity → (Unnoticed c seg ↔ Unremarkable c seg)) := by
  intro c
  obtain ⟨zeroWindow, active, v, hrecent, hc⟩ := Listening.of_run cfg random hearly
  have hc : c = (idle cfg random zeroWindow active).vary v := hc
  have hhear := hear_recent_lt hrecent (cfg.fixedIsn.getD random) seg
  rw [hc]
  refine ⟨fun h => ?_, fun hcap => ?_⟩
  · refine ⟨enqueued_segment_idle h.empty, ?_⟩
    rw [segment_idle h.empty]
    exact ((unremarkable_iff h.empty).mp h).indistinguishable hhear
  · by_cases hlen : seg.lengthInSequenceSpace = 0
    · rw [Unnoticed, segment_idle hlen, listening_indistinguishable_iff hcap hsize hhear hrecent,
        unremarkable_iff hlen]
      exact ⟨And.right, fun h => ⟨enqueued_segment_idle hlen, h⟩⟩
    · refine iff_of_false (fun h => ?_) (fun h => hlen h.empty)
      exact hlen ((enqueued_eq_nil_iff (idle_senderOk hrecent) _).mp h.1).2.1

/-- After some time in LISTEN, an ACK of the ISN that grants the window assumed anyway. -/
theorem unnoticed_in_listen_ack :
    Unnoticed (run connStep (TCPConnection.new {} ⟨7⟩) [.tick 5])
      { header := { ack := true, ackno := ⟨7⟩, win := 1 } } :=
  (unnoticed_in_listen {} ⟨7⟩ (by decide) [.tick 5] (by decide) _).1
    ⟨by decide, by decide, by decide, by decide, by decide⟩

/-- In a new connection an ACK that opens the window lets the FIN go out with the SYN, a RST keeps
`connect` from sending at all, and a byte of payload is answered. -/
theorem noticed_in_listen :
    ¬ Unnoticed (TCPConnection.new {} ⟨7⟩) { header := { ack := true, ackno := ⟨7⟩, win := 100 } } ∧
    ¬ Unnoticed (TCPConnection.new {} ⟨7⟩) { header := { rst := true } } ∧
    ¬ Unnoticed (TCPConnection.new {} ⟨7⟩) { payload := [97] } := by
  refine ⟨fun h => ?_, fun h => ?_, fun h => ?_⟩
  · exact absurd (h.2 [] .endInput) (by decide)
  · exact absurd (h.2 [] .connect) (by decide)
  · exact absurd h.1 (by decide)

end TCPConnection

end Sponge
