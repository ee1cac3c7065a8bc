import Sponge.SenderWindow
import Sponge.TcpConnection

/-!
# A connection that is no longer active

Of the entry points only `connect` looks at `active`: after a reset or a shutdown the others
still fill the window, retransmit and acknowledge, and hand everything to `segments_out`.
`Quiet` says, from the state before a call, when the call enqueues nothing.  A run is silent in
its dead phase exactly when every call of that phase is quiet.
-/

namespace Sponge

open MachineInt Run

namespace TCPSender

/-- Nothing is left to cut: the buffer is empty, and the FIN is sent if the input has ended. -/
def Drained (st : TCPSender) : Prop :=
  st.stream.buffer = [] ∧ (st.stream.inputEnded = true → st.isFinSet = true)

/-- `fill_window` has nothing to do: the SYN is sent, and the window is closed or the stream
drained. -/
def NothingToSend (st : TCPSender) : Prop :=
  st.isSynSet = true ∧ (st.windowEdge ≤ st.nextSeqno ∨ st.Drained)

/-- The timer runs out with this tick. -/
def Expires (st : TCPSender) (ms : ℕ) : Prop :=
  st.timer.ifRun = true ∧ (st.timer.increment ms).elapsedTime ≥ st.rto

section

variable {accepted : List UInt8} {acked : List TCPSegment} {st : TCPSender}

/-- With the SYN sent and room in the window, the next segment is empty exactly when the stream
is drained. -/
theorem nextSegment_length_zero_iff (hnext : st.nextSeqno ≠ 0)
    (hlt : st.nextSeqno < st.windowEdge) :
    st.nextSegment.1.lengthInSequenceSpace = 0 ↔ st.Drained := by
  have hedge : st.windowEdge < 2 ^ 64 := u64_lt _
  have hroom : 0 < sub64 st.windowEdge st.nextSeqno := by
    rw [sub64_of_le hedge hlt.le]
    omega
  have hfin := nextSegment_fin st
  rw [if_neg hnext, add_zero] at hfin
  constructor
  · intro hlen
    obtain ⟨-, hnofin, hsame⟩ := nextSegment_of_length_zero hlen
    have hpay := (TCPSegment.lengthInSequenceSpace_eq_zero_iff.mp hlen).1
    have hbuf : st.stream.buffer = [] := by
      rw [nextSegment_payload, List.take_eq_nil_iff] at hpay
      refine hpay.resolve_left ?_
      unfold maxPayloadSize
      omega
    refine ⟨hbuf, fun hin => ?_⟩
    by_contra hopen
    have := hfin.mpr ⟨hin, hsame.trans hbuf, by simpa using hopen, by rw [hpay]; exact hroom⟩
    rw [hnofin] at this
    cases this
  · intro hall
    obtain ⟨hbuf, hended⟩ := hall
    have hpay : st.nextSegment.1.payload = [] := by rw [nextSegment_payload, hbuf, List.take_nil]
    have hnofin : st.nextSegment.1.header.fin = false := by
      by_contra hne
      obtain ⟨hin, -, hopen, -⟩ := hfin.mp (by simpa using hne)
      have hset := hended hin
      rw [hopen] at hset
      cases hset
    rw [nextSegment_length, hpay, hnofin, if_neg hnext]
    rfl

/-- `fill_window` enqueues nothing exactly when there is nothing to send. -/
theorem SenderInv.fillWindow_silent_iff (h : SenderInv accepted acked st) :
    st.fillWindow.segmentsOut = [] ↔ st.segmentsOut = [] ∧ st.NothingToSend := by
  rw [fillWindow_eq]
  by_cases hmay : st.mayFill = true
  · rw [if_pos hmay]
    by_cases hlen : st.nextSegment.1.lengthInSequenceSpace = 0
    · rw [if_pos hlen]
      have hnext := (nextSegment_of_length_zero hlen).1
      have hsyn := h.synSet_iff.mpr hnext
      have hlt : st.nextSeqno < st.windowEdge := by simpa [mayFill, hsyn] using hmay
      have hdrained := (nextSegment_length_zero_iff hnext hlt).mp hlen
      exact ⟨fun hout => ⟨hout, hsyn, Or.inr hdrained⟩, And.left⟩
    · rw [if_neg hlen]
      obtain ⟨new, hf⟩ := fillWindow_filled (st.nextSegment.2.pushSegment st.nextSegment.1)
      rw [hf.segmentsOut]
      refine iff_of_false (by simp [TCPSender.pushSegment]) ?_
      intro hall
      rcases hall with ⟨-, hsyn, hclosed | hdrained⟩
      · have hlt : st.nextSeqno < st.windowEdge := by simpa [mayFill, hsyn] using hmay
        omega
      · have hlt : st.nextSeqno < st.windowEdge := by simpa [mayFill, hsyn] using hmay
        exact hlen ((nextSegment_length_zero_iff (h.synSet_iff.mp hsyn) hlt).mpr hdrained)
  · rw [if_neg hmay]
    have hno : st.isSynSet = true ∧ st.windowEdge ≤ st.nextSeqno := by
      simpa [mayFill] using hmay
    exact ⟨fun hout => ⟨hout, hno.1, Or.inl hno.2⟩, And.left⟩

/-- The next segments after an acknowledgment depend on the window it grants. -/
theorem nothingToSend_ackReceived (st : TCPSender) (ackno : WrappingInt32) (window : UInt16) :
    (st.ackReceived ackno window).NothingToSend ↔ st.isSynSet = true ∧
      (u64 (st.absAckno ackno + max 1 window.toNat) ≤ st.nextSeqno ∨ st.Drained) := by
  obtain ⟨popped, ha⟩ := ackReceived_acked st ackno window
  unfold NothingToSend Drained windowEdge
  rw [ha.synSet, ha.recent, ha.window, toNat_window, ha.nextSeqno, ha.stream,
    ha.finSet]
  rfl

theorem tick_of_not_expires {ms : ℕ} (h : ¬ st.Expires ms) :
    st.tick ms = { st with timer := st.timer.increment ms } := by
  rw [TCPSender.tick]
  cases hrun : st.timer.ifRun with
  | false => simp [Timer.increment, hrun]
  | true =>
    have hlow : ¬ (st.timer.increment ms).elapsedTime ≥ st.rto := fun hge => h ⟨hrun, hge⟩
    simp [hlow]

/-- **What a tick does when the timer runs out.** -/
theorem tick_of_expires {ms : ℕ} (h : st.Expires ms) :
    st.tick ms =
      { st with
        segmentsOut := st.segmentsOut ++ st.outstandingSegments.take 1
        consecutiveRetransmissions := if st.isWindowSize0 then st.consecutiveRetransmissions
          else u32 (st.consecutiveRetransmissions + 1)
        rto := if st.isWindowSize0 then st.rto else u32 (st.rto * 2)
        timer := { elapsedTime := 0, ifRun := true } } := by
  obtain ⟨hrun, hge⟩ := h
  rw [TCPSender.tick]
  cases st.isWindowSize0 <;> simp [hrun, hge, Timer.start]

/-- A tick enqueues nothing exactly when the timer does not run out. -/
theorem SenderInv.tick_silent_iff (h : SenderInv accepted acked st) (ms : ℕ) :
    (st.tick ms).segmentsOut = [] ↔ st.segmentsOut = [] ∧ ¬ st.Expires ms := by
  by_cases hexp : st.Expires ms
  · obtain ⟨seg, rest, hcons⟩ := List.exists_cons_of_ne_nil (h.timer.mp hexp.1)
    rw [tick_of_expires hexp, hcons]
    refine iff_of_false ?_ (fun hall => hall.2 hexp)
    exact List.append_ne_nil_of_right_ne_nil _ (List.cons_ne_nil _ _)
  · rw [tick_of_not_expires hexp]
    exact (and_iff_left hexp).symm

theorem tick_retransmissions {ms : ℕ} (hexp : ¬ st.Expires ms) :
    (st.tick ms).consecutiveRetransmissions = st.consecutiveRetransmissions := by
  rw [tick_of_not_expires hexp]

end

end TCPSender

namespace TCPConnection

/-! ### Runs of a connection -/

/-- The calls on a connection; `popOut` is its owner taking a segment from `segments_out`. -/
inductive ConnOp where
  | segment (seg : TCPSegment)
  | write (data : List UInt8)
  | endInput
  | connect
  | tick (msSinceLastTick : ℕ)
  | read (len : ℕ)
  | popOut
deriving DecidableEq

def connStep (c : TCPConnection) : ConnOp → TCPConnection
  | .segment seg => c.segmentReceived seg
  | .write data => (c.write data).1
  | .endInput => c.endInputStream
  | .connect => c.connect
  | .tick msSinceLastTick => c.tick msSinceLastTick
  | .read len => c.readInbound len
  | .popOut => { c with segmentsOut := c.segmentsOut.drop 1 }

/-- The segments that a call enqueues on `segments_out`. -/
def enqueued (c : TCPConnection) (op : ConnOp) : List TCPSegment :=
  (connStep c op).segmentsOut.drop c.segmentsOut.length

/-- The call processes an RST segment. -/
def isReset : ConnOp → Bool
  | .segment seg => seg.header.rst
  | _ => false

/-- From the state before a call: the call enqueues nothing. -/
def Quiet (c : TCPConnection) : ConnOp → Prop
  | .segment seg =>
    c.sender.segmentsOut = [] ∧ seg.lengthInSequenceSpace = 0 ∧
      isKeepAlive c.receiver seg = false ∧
      (seg.header.ack = true → c.sender.isSynSet = true →
        u64 (c.sender.absAckno seg.header.ackno + max 1 seg.header.win.toNat) ≤
          c.sender.nextSeqno ∨ c.sender.Drained)
  | .write data =>
    data = [] ∨ c.sender.segmentsOut = [] ∧ (c.sender.writeStream data).NothingToSend
  | .endInput => c.sender.segmentsOut = [] ∧ c.sender.endStream.NothingToSend
  | .connect => c.active = false ∨ c.sender.segmentsOut = [] ∧ c.sender.NothingToSend
  | .tick msSinceLastTick =>
    c.sender.segmentsOut = [] ∧ c.sender.consecutiveRetransmissions ≤ maxRetxAttempts ∧
      ¬ c.sender.Expires msSinceLastTick
  | .read _ => True
  | .popOut => True

/-! ### The steps of `segment_received` -/

section Operated

open TCPSender

variable {c c' : TCPConnection}

theorem operated_noteReset (c : TCPConnection) (seg : TCPSegment) :
    Operated c.sender (c.noteReset seg).sender := by
  rcases c.noteReset_cases seg with ⟨-, heq⟩ | ⟨-, heq⟩
  · rw [heq]
    exact (Operated.refl c.sender).then .setError
  · rw [heq]
    exact Operated.refl _

theorem operated_takeAck (h : Operated c.sender c'.sender) (seg : TCPSegment) :
    Operated c.sender (c'.takeAck seg).sender := by
  have hack := h.then (.ackReceived seg.header.ackno seg.header.win)
  rcases c'.takeAck_cases seg with ⟨-, heq⟩ | ⟨-, _, rfl, ⟨-, heq⟩ | ⟨-, heq⟩⟩
  · rw [heq]
    exact h
  · rw [heq]
    exact hack.then .fillWindow
  · rw [heq]
    exact hack

theorem operated_replyToData (h : Operated c.sender c'.sender) (seg : TCPSegment) :
    Operated c.sender (c'.replyToData seg).sender := by
  rcases c'.replyToData_cases seg with ⟨-, heq⟩ | ⟨-, ⟨-, heq⟩ | heq⟩
  · rw [heq]
    exact h
  · rw [heq]
    exact h.then .fillWindow
  · rw [heq]
    exact h.then .sendEmptySegment

theorem operated_replyToKeepAlive (h : Operated c.sender c'.sender) (seg : TCPSegment) :
    Operated c.sender (c'.replyToKeepAlive seg).sender := by
  rcases c'.replyToKeepAlive_cases seg with ⟨-, heq⟩ | ⟨-, heq⟩
  · rw [heq]
    exact h.then .sendEmptySegment
  · rw [heq]
    exact h

theorem noteInboundEnd_sender (c : TCPConnection) : c.noteInboundEnd.sender = c.sender := by
  rcases c.noteInboundEnd_cases with ⟨-, -, heq⟩ | heq
  · rw [heq]
  · rw [heq]

/-- Everything that `segment_received` does to the sender is an operation of the sender. -/
theorem operated_processSegment (c : TCPConnection) (seg : TCPSegment) :
    Operated c.sender (c.processSegment seg).sender := by
  rw [processSegment]
  simp only [noteInboundEnd_sender]
  apply operated_replyToKeepAlive
  apply operated_replyToData
  apply operated_takeAck
  exact operated_noteReset c seg

end Operated

/-- The sender of the connection keeps its invariant. -/
def SenderOk (st : TCPSender) : Prop := ∃ accepted acked, TCPSender.SenderInv accepted acked st

section SenderOk

variable {st : TCPSender} {c : TCPConnection}

/-- Every operation of the sender keeps its invariant. -/
theorem SenderOk.operation (h : SenderOk st) (op : TCPSender.SenderOp) :
    SenderOk (TCPSender.senderStep st op) := by
  obtain ⟨accepted, acked, h⟩ := h
  cases op with
  | write data => exact ⟨_, acked, h.write data⟩
  | endInput => exact ⟨accepted, acked, h.endStream⟩
  | setError => exact ⟨accepted, acked, h.errorStream⟩
  | fillWindow => exact ⟨accepted, acked, h.fillWindow⟩
  | ackReceived ackno window =>
    obtain ⟨popped, ha⟩ := TCPSender.ackReceived_acked st ackno window
    exact ⟨accepted, _, h.ack ha (unwrap_lt ..)⟩
  | tick ms => exact ⟨accepted, acked, h.tick ms⟩
  | sendEmptySegment => exact ⟨accepted, acked, h.sendEmptySegment⟩
  | popSegment => exact ⟨accepted, acked, { h with }⟩

theorem SenderOk.operated {st' : TCPSender} (h : SenderOk st) (hops : TCPSender.Operated st st') :
    SenderOk st' := hops.keeps (fun _ op h => h.operation op) h

/-- The invariant does not speak of the outgoing queue. -/
theorem SenderOk.queue (h : SenderOk st) (queue : List TCPSegment) :
    SenderOk { st with segmentsOut := queue } := by
  obtain ⟨accepted, acked, h⟩ := h
  exact ⟨accepted, acked, { h with }⟩

theorem SenderOk.tick (h : SenderOk c.sender) (ms : ℕ) : SenderOk (c.tick ms).sender := by
  have hticked := h.operation (.tick ms)
  rcases c.tick_cases ms with ⟨-, htick⟩ | ⟨-, active, -, htick⟩
  · obtain ⟨front, rest, -, hreset⟩ := (c.passTime ms).sendReset_abort
    rw [htick, hreset]
    exact ((hticked.operation .setError).operation .sendEmptySegment).queue _
  · rw [htick]
    exact hticked.queue _

/-- Every call keeps the sender's invariant. -/
theorem SenderOk.step (h : SenderOk c.sender) (op : ConnOp) :
    SenderOk (connStep c op).sender := by
  cases op with
  | segment seg => exact (h.operated (operated_processSegment c seg)).queue _
  | write data =>
    show SenderOk (c.write data).1.sender
    rcases c.write_cases data with heq | heq <;> rw [heq]
    · exact h
    · exact ((h.operation (.write data)).operation .fillWindow).queue _
  | endInput => exact ((h.operation .endInput).operation .fillWindow).queue _
  | connect =>
    show SenderOk c.connect.sender
    rcases c.connect_cases with heq | heq <;> rw [heq]
    · exact h
    · exact (h.operation .fillWindow).queue _
  | tick ms => exact h.tick ms
  | read len => exact h
  | popOut => exact h

end SenderOk

/-! ### Calls that enqueue nothing -/

section Silent

variable {c c' : TCPConnection} {seg : TCPSegment}

theorem sendSegments_silent_iff (h : c'.segmentsOut = c.segmentsOut) :
    c'.sendSegments.segmentsOut.drop c.segmentsOut.length = [] ↔ c'.sender.segmentsOut = [] := by
  rw [sendSegments, h, List.drop_left, List.map_eq_nil_iff]

theorem flush_silent_iff (c : TCPConnection) (st : TCPSender) :
    { c with sender := st }.sendSegments.segmentsOut.drop c.segmentsOut.length = [] ↔
      st.segmentsOut = [] := sendSegments_silent_iff rfl

theorem sendEmptySegment_ne_nil (st : TCPSender) : st.sendEmptySegment.segmentsOut ≠ [] := by
  simp [TCPSender.sendEmptySegment]

theorem takeAck_silent_iff (h : SenderOk c.sender) :
    (c.takeAck seg).sender.segmentsOut = [] ↔ c.sender.segmentsOut = [] ∧
      (seg.header.ack = true → c.sender.isSynSet = true →
        u64 (c.sender.absAckno seg.header.ackno + max 1 seg.header.win.toNat) ≤
          c.sender.nextSeqno ∨ c.sender.Drained) := by
  obtain ⟨popped, ha⟩ := TCPSender.ackReceived_acked c.sender seg.header.ackno seg.header.win
  obtain ⟨accepted, acked, hinv⟩ :
      SenderOk (c.sender.ackReceived seg.header.ackno seg.header.win) :=
    h.operation (.ackReceived ..)
  rw [takeAck]
  cases hack : seg.header.ack with
  | false => simp
  | true =>
    simp only [if_true, forall_const]
    rw [TCPSender.isSynSent, ha.synSet]
    cases hsyn : c.sender.isSynSet with
    | false => simp [ha.segmentsOut]
    | true =>
      simp only [if_true, forall_const]
      rw [hinv.fillWindow_silent_iff, ha.segmentsOut, TCPSender.nothingToSend_ackReceived, hsyn]
      simp

/-- Any segment with length is answered. -/
theorem replyToData_silent_iff (h : SenderOk c.sender) :
    (c.replyToData seg).sender.segmentsOut = [] ↔
      c.sender.segmentsOut = [] ∧ seg.lengthInSequenceSpace = 0 := by
  obtain ⟨accepted, acked, hinv⟩ := h
  rcases c.replyToData_cases seg with ⟨hlen, heq⟩ | ⟨hlen, ⟨hsyn, heq⟩ | heq⟩
  · rw [heq]
    exact (and_iff_left hlen).symm
  · -- the reply to a SYN is our own SYN
    rw [heq, hinv.fillWindow_silent_iff]
    refine iff_of_false (fun hall => ?_) fun hall => hlen hall.2
    obtain ⟨-, hset, -⟩ := hall
    rw [TCPSender.isSynSent, hset] at hsyn
    cases hsyn
  · rw [heq]
    exact iff_of_false (sendEmptySegment_ne_nil _) fun hall => hlen hall.2

theorem replyToKeepAlive_silent_iff :
    (c.replyToKeepAlive seg).sender.segmentsOut = [] ↔
      c.sender.segmentsOut = [] ∧ isKeepAlive c.receiver seg = false := by
  rcases c.replyToKeepAlive_cases seg with ⟨hkeep, heq⟩ | ⟨hkeep, heq⟩
  · rw [heq, hkeep]
    exact iff_of_false (sendEmptySegment_ne_nil _) fun hall => Bool.false_ne_true hall.2.symm
  · rw [heq]
    exact (and_iff_left hkeep).symm

/-! The replies change nothing but the sender. -/

theorem takeAck_frame (c : TCPConnection) (seg : TCPSegment) :
    ∃ st, c.takeAck seg = { c with sender := st } := by
  rcases c.takeAck_cases seg with ⟨-, heq⟩ | ⟨-, _, -, ⟨-, heq⟩ | ⟨-, heq⟩⟩
  · exact ⟨c.sender, heq⟩
  · exact ⟨_, heq⟩
  · exact ⟨_, heq⟩

theorem replyToData_frame (c : TCPConnection) (seg : TCPSegment) :
    ∃ st, c.replyToData seg = { c with sender := st } := by
  rcases c.replyToData_cases seg with ⟨-, heq⟩ | ⟨-, ⟨-, heq⟩ | heq⟩
  · exact ⟨c.sender, heq⟩
  · exact ⟨_, heq⟩
  · exact ⟨_, heq⟩

theorem replyToKeepAlive_frame (c : TCPConnection) (seg : TCPSegment) :
    ∃ st, c.replyToKeepAlive seg = { c with sender := st } := by
  rcases c.replyToKeepAlive_cases seg with ⟨-, heq⟩ | ⟨-, heq⟩
  · exact ⟨_, heq⟩
  · exact ⟨c.sender, heq⟩

theorem replies_frame (c : TCPConnection) (seg : TCPSegment) :
    (((c.takeAck seg).replyToData seg).replyToKeepAlive seg).receiver = c.receiver ∧
      (((c.takeAck seg).replyToData seg).replyToKeepAlive seg).segmentsOut = c.segmentsOut ∧
      (((c.takeAck seg).replyToData seg).replyToKeepAlive seg).active = c.active ∧
      (((c.takeAck seg).replyToData seg).replyToKeepAlive seg).lingerAfterStreamsFinish =
        c.lingerAfterStreamsFinish := by
  obtain ⟨_, hack⟩ := c.takeAck_frame seg
  obtain ⟨_, hdata⟩ := (c.takeAck seg).replyToData_frame seg
  obtain ⟨_, hkeep⟩ := ((c.takeAck seg).replyToData seg).replyToKeepAlive_frame seg
  rw [hkeep, hdata, hack]
  exact ⟨rfl, rfl, rfl, rfl⟩

theorem noteInboundEnd_receiver (c : TCPConnection) :
    c.noteInboundEnd.receiver = c.receiver ∧ c.noteInboundEnd.segmentsOut = c.segmentsOut ∧
      c.noteInboundEnd.active = c.active := by
  rcases c.noteInboundEnd_cases with ⟨-, -, heq⟩ | heq
  · rw [heq]
    exact ⟨rfl, rfl, rfl⟩
  · rw [heq]
    exact ⟨rfl, rfl, rfl⟩

/-- A reset only marks the two streams and ends the connection. -/
theorem noteReset_frame (c : TCPConnection) (seg : TCPSegment) :
    ∃ outError inError active, c.noteReset seg =
      { c with
        sender := { c.sender with stream := { c.sender.stream with error := outError } }
        receiver := { c.receiver with reassembler := { c.receiver.reassembler with
          output := { c.receiver.reassembler.output with error := inError } } }
        active } := by
  rcases c.noteReset_cases seg with ⟨-, heq⟩ | ⟨-, heq⟩
  · exact ⟨true, true, false, heq⟩
  · exact ⟨c.sender.stream.error, c.receiver.reassembler.output.error, c.active, heq⟩

/-- What `segment_received` has done to the rest of the connection when it flushes. -/
theorem processSegment_frame (c : TCPConnection) (seg : TCPSegment) :
    (c.processSegment seg).receiver = (c.noteReset seg).receiver.segmentReceived seg ∧
      (c.processSegment seg).segmentsOut = c.segmentsOut ∧
      (c.processSegment seg).active = (c.noteReset seg).active := by
  have hreset : (c.noteReset seg).segmentsOut = c.segmentsOut := by
    obtain ⟨_, _, _, heq⟩ := c.noteReset_frame seg
    rw [heq]
  rw [processSegment]
  simp only [noteInboundEnd_receiver, replies_frame, hreset, and_self]

/-- An empty segment leaves the acknowledgment number alone. -/
theorem ackno_of_length_zero (r : TCPReceiver) (h : seg.lengthInSequenceSpace = 0) :
    (r.segmentReceived seg).ackno = r.ackno := by
  obtain ⟨-, hsyn, hnofin⟩ := TCPSegment.lengthInSequenceSpace_eq_zero_iff.mp h
  rw [TCPReceiver.segmentReceived_of_not_pushes fun hp => hp.1 h]
  have hisn : (r.noteFlags seg).isn = r.isn := by
    rw [TCPReceiver.noteFlags_isn, hsyn, if_neg (by simp)]
  have hfin : (r.noteFlags seg).absSeqnoFin = r.absSeqnoFin := by
    rw [TCPReceiver.noteFlags_absSeqnoFin, hnofin, if_neg (by simp)]
  rw [TCPReceiver.ackno, TCPReceiver.ackno, TCPReceiver.noteFlags_ifSynSet,
    TCPReceiver.noteFlags_reassembler, hisn, hfin, hsyn, Bool.or_false]

theorem isKeepAlive_congr {r r' : TCPReceiver} (h : r'.ackno = r.ackno) :
    isKeepAlive r' seg = isKeepAlive r seg := by
  rw [isKeepAlive, isKeepAlive, h]

/-- The replies to a segment that the receiver has taken. -/
theorem reply_silent_iff (c : TCPConnection) (seg : TCPSegment) (h : SenderOk c.sender) :
    (((c.takeAck seg).replyToData seg).replyToKeepAlive seg).sender.segmentsOut = [] ↔
      ((c.sender.segmentsOut = [] ∧ (seg.header.ack = true → c.sender.isSynSet = true →
        u64 (c.sender.absAckno seg.header.ackno + max 1 seg.header.win.toNat) ≤
          c.sender.nextSeqno ∨ c.sender.Drained)) ∧
      seg.lengthInSequenceSpace = 0) ∧ isKeepAlive c.receiver seg = false := by
  have hack : SenderOk (c.takeAck seg).sender := h.operated (operated_takeAck (.refl _) seg)
  have hrecv : ((c.takeAck seg).replyToData seg).receiver = c.receiver := by
    obtain ⟨_, htake⟩ := c.takeAck_frame seg
    obtain ⟨_, hdata⟩ := (c.takeAck seg).replyToData_frame seg
    rw [hdata, htake]
  rw [replyToKeepAlive_silent_iff, replyToData_silent_iff hack, takeAck_silent_iff h, hrecv]

/-- `segment_received` enqueues nothing exactly when it is quiet. -/
theorem segment_silent_iff (h : SenderOk c.sender) (seg : TCPSegment) :
    enqueued c (.segment seg) = [] ↔ Quiet c (.segment seg) := by
  obtain ⟨hrecv, hout, -⟩ := processSegment_frame c seg
  -- the reset only marks the two streams
  have hreset : (c.noteReset seg).sender.segmentsOut = c.sender.segmentsOut ∧
      (c.noteReset seg).sender.isSynSet = c.sender.isSynSet ∧
      (c.noteReset seg).sender.nextSeqno = c.sender.nextSeqno ∧
      (c.noteReset seg).sender.absAckno seg.header.ackno = c.sender.absAckno seg.header.ackno ∧
      ((c.noteReset seg).sender.Drained ↔ c.sender.Drained) ∧
      (c.noteReset seg).receiver.ackno = c.receiver.ackno := by
    obtain ⟨_, _, _, heq⟩ := c.noteReset_frame seg
    rw [heq]
    exact ⟨rfl, rfl, rfl, rfl, Iff.rfl, rfl⟩
  obtain ⟨hq, hsyn, hnext, habs, hdrained, hackno⟩ := hreset
  have hreply := reply_silent_iff
    { c.noteReset seg with receiver := (c.noteReset seg).receiver.segmentReceived seg } seg
    (h.operated (operated_noteReset c seg))
  refine (sendSegments_silent_iff hout).trans ?_
  rw [processSegment]
  simp only [noteInboundEnd_sender]
  rw [hreply]
  simp only [hq, hsyn, hnext, habs, hdrained, Quiet]
  constructor
  · intro hall
    obtain ⟨⟨⟨hnil, hquiet⟩, hlen⟩, hkeep⟩ := hall
    rw [isKeepAlive_congr ((ackno_of_length_zero _ hlen).trans hackno)] at hkeep
    exact ⟨hnil, hlen, hkeep, hquiet⟩
  · intro hall
    obtain ⟨hnil, hlen, hkeep, hquiet⟩ := hall
    rw [isKeepAlive_congr ((ackno_of_length_zero _ hlen).trans hackno)]
    exact ⟨⟨⟨hnil, hquiet⟩, hlen⟩, hkeep⟩

/-- `tick` enqueues nothing exactly when it is quiet. -/
theorem tick_silent_iff (h : SenderOk c.sender) (ms : ℕ) :
    enqueued c (.tick ms) = [] ↔ Quiet c (.tick ms) := by
  obtain ⟨accepted, acked, hinv⟩ := h
  show (c.tick ms).segmentsOut.drop c.segmentsOut.length = [] ↔ _
  rcases c.tick_cases ms with ⟨hretx, htick⟩ | ⟨hretx, active, -, htick⟩
  · -- the unclean shutdown sends a reset
    obtain ⟨front, rest, -, hreset⟩ := (c.passTime ms).sendReset_abort
    refine iff_of_false ?_ ?_
    · rw [htick, hreset]
      simp [passTime]
    · intro hall
      obtain ⟨-, hle, hexp⟩ := hall
      rw [TCPSender.tick_retransmissions hexp] at hretx
      omega
  · have hout : ((c.passTime ms).setActive active).segmentsOut = c.segmentsOut := rfl
    rw [htick, sendSegments_silent_iff hout]
    show (c.sender.tick ms).segmentsOut = [] ↔ _
    rw [hinv.tick_silent_iff, Quiet]
    refine and_congr_right fun _ => ⟨fun hexp => ⟨?_, hexp⟩, And.right⟩
    rwa [← TCPSender.tick_retransmissions hexp]

/-- **A call enqueues nothing exactly when it is quiet.** -/
theorem enqueued_eq_nil_iff (h : SenderOk c.sender) (op : ConnOp) :
    enqueued c op = [] ↔ Quiet c op := by
  obtain ⟨accepted, acked, hinv⟩ := h
  cases op with
  | segment seg => exact segment_silent_iff ⟨accepted, acked, hinv⟩ seg
  | write data =>
    show (c.write data).1.segmentsOut.drop c.segmentsOut.length = [] ↔ _
    unfold TCPConnection.write
    split
    · rename_i hdata
      simp [Quiet, List.length_eq_zero_iff.mp hdata]
    · rename_i hdata
      have hne : data ≠ [] := fun h => hdata (by rw [h]; rfl)
      refine (flush_silent_iff c _).trans ?_
      rw [(hinv.write data).fillWindow_silent_iff, Quiet]
      simp only [hne, false_or]
      rfl
  | endInput =>
    refine (flush_silent_iff c _).trans ?_
    rw [hinv.endStream.fillWindow_silent_iff]
    rfl
  | connect =>
    show c.connect.segmentsOut.drop c.segmentsOut.length = [] ↔ _
    unfold TCPConnection.connect
    cases hact : c.active with
    | false => simp [Quiet, hact]
    | true =>
      rw [if_neg (by simp)]
      refine (flush_silent_iff c _).trans ?_
      rw [hinv.fillWindow_silent_iff]
      simp [Quiet, hact]
  | tick ms => exact tick_silent_iff ⟨accepted, acked, hinv⟩ ms
  | read len => simp [enqueued, connStep, readInbound, Quiet]
  | popOut =>
    refine iff_of_true ?_ trivial
    show (c.segmentsOut.drop 1).drop _ = []
    rw [List.drop_drop, List.drop_eq_nil_iff]
    omega

/-- No call makes a connection active again. -/
theorem connStep_active (c : TCPConnection) (op : ConnOp)
    (h : c.active = false ∨ isReset op = true) : (connStep c op).active = false := by
  cases op with
  | segment seg =>
    show (c.processSegment seg).active = false
    rw [(processSegment_frame c seg).2.2]
    rcases c.noteReset_cases seg with ⟨-, heq⟩ | ⟨hrst, heq⟩
    · rw [heq]
      rfl
    · rw [heq]
      exact h.resolve_right (ne_true_of_eq_false hrst)
  | write data =>
    have h : c.active = false := h.resolve_right (by simp [isReset])
    show (c.write data).1.active = false
    rcases c.write_cases data with heq | heq <;> rw [heq] <;> exact h
  | endInput => exact h.resolve_right (by simp [isReset])
  | connect =>
    have h : c.active = false := h.resolve_right (by simp [isReset])
    show c.connect.active = false
    rcases c.connect_cases with heq | heq <;> rw [heq] <;> exact h
  | tick ms =>
    have h : c.active = false := h.resolve_right (by simp [isReset])
    show (c.tick ms).active = false
    rcases c.tick_cases ms with ⟨-, htick⟩ | ⟨-, active, hactive, htick⟩
    · obtain ⟨front, rest, -, hreset⟩ := (c.passTime ms).sendReset_abort
      rw [htick, hreset]
      rfl
    · rw [htick]
      show active = false
      rw [h] at hactive
      simpa using hactive
  | read len => exact h.resolve_right (by simp [isReset])
  | popOut => exact h.resolve_right (by simp [isReset])

end Silent

/-! ### The dead phase of a run -/

/-- In the dead phase, which begins with the call that processes an RST or after the call that
made the connection inactive, a call enqueues nothing and the connection stays inactive. -/
def DeadSilent (c : TCPConnection) (op : ConnOp) : Prop :=
  c.active = false ∨ isReset op = true →
    enqueued c op = [] ∧ (connStep c op).active = false

/-- In the dead phase a call is quiet. -/
def DeadQuiet (c : TCPConnection) (op : ConnOp) : Prop :=
  c.active = false ∨ isReset op = true → Quiet c op

/-- **A dead connection is silent exactly in the runs whose dead phase has only quiet calls.** -/
theorem deadSilent_iff_deadQuiet (cfg : TCPConfig) (random : WrappingInt32) (ops : List ConnOp) :
    Along connStep DeadSilent (new cfg random) ops ↔
      Along connStep DeadQuiet (new cfg random) ops := by
  refine along_iff_of_invariant (I := fun c => SenderOk c.sender) ?_ ?_ ?_
    (along_of_forall (fun _ _ => trivial) _ ops)
  · intro c op h _ _
    exact h.step op
  · intro c op h _
    unfold DeadSilent DeadQuiet
    refine forall_congr' fun hdead => ?_
    rw [enqueued_eq_nil_iff h]
    exact and_iff_left (connStep_active c op hdead)
  · exact ⟨[], [], TCPSender.new_inv ..⟩

/-- A new connection answers a segment with both SYN and RST by its own SYN. -/
theorem deadSilent_fails_on_syn_reset :
    ¬ Along connStep DeadSilent (new { fixedIsn := some ⟨0⟩ } ⟨0⟩)
      [.segment { header := { syn := true, rst := true } }] := by
  intro h
  exact absurd (h.1 (Or.inr rfl)).1 (by decide)

end TCPConnection

end Sponge
