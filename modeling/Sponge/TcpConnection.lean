import Sponge.TcpReceiver
import Sponge.TcpSender

/-!
# The TCP connection

One endpoint: a receiver, a sender, and the outgoing queue that both feed.  The definitions
follow `tcp_connection.cc`; `segment_received` is cut at its `if` statements into the steps
`noteReset`, `takeAck`, `replyToData`, `replyToKeepAlive` and `noteInboundEnd`.  Only `connect`
looks at `active`.
-/

namespace Sponge

open MachineInt

/-- `TCPConfig`, without the adapter settings. -/
structure TCPConfig where
  rtTimeout : UInt16 := 1000
  recvCapacity : ℕ := 64000
  sendCapacity : ℕ := 64000
  fixedIsn : Option WrappingInt32 := none
deriving DecidableEq, Repr

/-- `TCPConfig::MAX_RETX_ATTEMPTS`. -/
def maxRetxAttempts : ℕ := 8

/-- `stream_out().set_error()`. -/
def TCPReceiver.errorStream (r : TCPReceiver) : TCPReceiver :=
  { r with reassembler := { r.reassembler with output := r.reassembler.output.setError } }

structure TCPConnection where
  cfg : TCPConfig
  receiver : TCPReceiver
  sender : TCPSender
  segmentsOut : List TCPSegment
  lingerAfterStreamsFinish : Bool
  active : Bool
  timeSinceLastSegmentReceived : ℕ
deriving DecidableEq

namespace TCPConnection

/-- The constructor; `random` is what the sender draws when no ISN is configured. -/
def new (cfg : TCPConfig) (random : WrappingInt32) : TCPConnection :=
  { cfg := cfg, receiver := TCPReceiver.new cfg.recvCapacity
    sender := TCPSender.new cfg.sendCapacity cfg.rtTimeout cfg.fixedIsn random
    segmentsOut := [], lingerAfterStreamsFinish := true, active := true
    timeSinceLastSegmentReceived := 0 }

def remainingOutboundCapacity (c : TCPConnection) : ℕ := c.sender.stream.remainingCapacity

def bytesInFlight (c : TCPConnection) : ℕ := c.sender.bytesInFlight

def unassembledBytes (c : TCPConnection) : ℕ := c.receiver.unassembledBytes

def inboundStream (c : TCPConnection) : ByteStream := c.receiver.streamOut

/-- The acknowledgment fields that an outgoing segment gets from the receiver. -/
def stamp (r : TCPReceiver) (seg : TCPSegment) : TCPSegment :=
  match r.ackno with
  | none => seg
  | some ackno =>
    { seg with
      header :=
        { seg.header with
          ack := true
          ackno := ackno
          win := UInt16.ofNat (min r.windowSize 65535) } }

/-- `send_segments`: the loop moves the sender's whole queue, front first. -/
def sendSegments (c : TCPConnection) : TCPConnection :=
  { c with
    segmentsOut := c.segmentsOut ++ c.sender.segmentsOut.map (stamp c.receiver)
    sender := { c.sender with segmentsOut := [] } }

/-- The unclean shutdown of both streams. -/
def shutdown (c : TCPConnection) : TCPConnection :=
  { c with
    sender := c.sender.errorStream
    receiver := c.receiver.errorStream
    active := false }

def noteReset (c : TCPConnection) (seg : TCPSegment) : TCPConnection :=
  if seg.header.rst then c.shutdown else c

def takeAck (c : TCPConnection) (seg : TCPSegment) : TCPConnection :=
  if seg.header.ack then
    let sender := c.sender.ackReceived seg.header.ackno seg.header.win
    { c with sender := if sender.isSynSent then sender.fillWindow else sender }
  else c

def replyToData (c : TCPConnection) (seg : TCPSegment) : TCPConnection :=
  if seg.lengthInSequenceSpace ≠ 0 then
    if seg.header.syn && !c.sender.isSynSent then { c with sender := c.sender.fillWindow }
    else { c with sender := c.sender.sendEmptySegment }
  else c

/-- The segment is a keep-alive: empty, and one before the acknowledgment number. -/
def isKeepAlive (r : TCPReceiver) (seg : TCPSegment) : Bool :=
  match r.ackno with
  | none => false
  | some ackno => seg.lengthInSequenceSpace == 0 && seg.header.seqno == ackno.sub 1

def replyToKeepAlive (c : TCPConnection) (seg : TCPSegment) : TCPConnection :=
  if isKeepAlive c.receiver seg then { c with sender := c.sender.sendEmptySegment } else c

def noteInboundEnd (c : TCPConnection) : TCPConnection :=
  if !c.sender.isFinSent && c.receiver.streamOut.inputEnded then
    { c with lingerAfterStreamsFinish := false }
  else c

/-- `segment_received` up to `send_segments`. -/
def processSegment (c : TCPConnection) (seg : TCPSegment) : TCPConnection :=
  let c := c.noteReset seg
  let c := { c with receiver := c.receiver.segmentReceived seg }
  let c := c.takeAck seg
  let c := c.replyToData seg
  let c := c.replyToKeepAlive seg
  let c := c.noteInboundEnd
  { c with timeSinceLastSegmentReceived := 0 }

def segmentReceived (c : TCPConnection) (seg : TCPSegment) : TCPConnection :=
  (c.processSegment seg).sendSegments

/-- `write`: the connection afterwards, and the number of bytes written. -/
def write (c : TCPConnection) (data : List UInt8) : TCPConnection × ℕ :=
  if data.length = 0 then (c, 0)
  else
    ({ c with sender := (c.sender.writeStream data).fillWindow }.sendSegments,
      (c.sender.stream.write data).2)

/-- The end of `tick`'s unclean shutdown: the front of the sender's queue, which is the segment
just retransmitted if there is one, leaves with the RST flag; the rest stays queued. -/
def sendReset (c : TCPConnection) : TCPConnection :=
  match c.sender.segmentsOut with
  | [] => c
  | front :: rest =>
    { c with
      segmentsOut := c.segmentsOut ++
        [stamp c.receiver { front with header := { front.header with rst := true } }]
      sender := { c.sender with segmentsOut := rest } }

/-- The clean-shutdown test of `tick`. -/
def cleanShutdown (c : TCPConnection) : Bool :=
  c.sender.stream.eof && c.receiver.streamOut.inputEnded && c.bytesInFlight == 0 &&
    c.unassembledBytes == 0 && c.sender.isFinAcked &&
    c.sender.nextSeqno == u64 (c.sender.stream.bytesWritten + 2)

/-- `tick`, first part: the time passes. -/
def passTime (c : TCPConnection) (msSinceLastTick : ℕ) : TCPConnection :=
  { c with
    timeSinceLastSegmentReceived := u64 (c.timeSinceLastSegmentReceived + msSinceLastTick)
    sender := c.sender.tick msSinceLastTick }

/-- The unclean shutdown up to the RST segment. -/
def abort (c : TCPConnection) : TCPConnection :=
  { c.shutdown with sender := c.shutdown.sender.sendEmptySegment }

def tick (c : TCPConnection) (msSinceLastTick : ℕ) : TCPConnection :=
  let c := c.passTime msSinceLastTick
  if c.sender.consecutiveRetransmissions > maxRetxAttempts then c.abort.sendReset
  else if c.cleanShutdown then
    let c := if !c.lingerAfterStreamsFinish ||
        decide (c.timeSinceLastSegmentReceived ≥ 10 * c.cfg.rtTimeout.toNat)
      then { c with active := false } else c
    c.sendSegments
  else c.sendSegments

def endInputStream (c : TCPConnection) : TCPConnection :=
  { c with sender := c.sender.endStream.fillWindow }.sendSegments

def connect (c : TCPConnection) : TCPConnection :=
  if !c.active then c else { c with sender := c.sender.fillWindow }.sendSegments

/-- A read of the application from `inbound_stream()`. -/
def readInbound (c : TCPConnection) (len : ℕ) : TCPConnection :=
  { c with receiver := c.receiver.readOut len }

/-! ### The ways through each call -/

theorem noteReset_cases (c : TCPConnection) (seg : TCPSegment) :
    seg.header.rst = true ∧ c.noteReset seg = c.shutdown ∨
      seg.header.rst = false ∧ c.noteReset seg = c := by
  cases hrst : seg.header.rst with
  | true => exact Or.inl ⟨rfl, if_pos hrst⟩
  | false => exact Or.inr ⟨rfl, if_neg (ne_true_of_eq_false hrst)⟩

/-- An acknowledgment goes to the sender, which then fills the window once its SYN is sent. -/
theorem takeAck_cases (c : TCPConnection) (seg : TCPSegment) :
    seg.header.ack = false ∧ c.takeAck seg = c ∨
      seg.header.ack = true ∧ ∃ st, st = c.sender.ackReceived seg.header.ackno seg.header.win ∧
        (st.isSynSent = true ∧ c.takeAck seg = { c with sender := st.fillWindow } ∨
          st.isSynSent = false ∧ c.takeAck seg = { c with sender := st }) := by
  rw [takeAck]
  cases seg.header.ack with
  | false => exact Or.inl ⟨rfl, rfl⟩
  | true =>
    refine Or.inr ⟨rfl, _, rfl, ?_⟩
    simp only [if_true]
    cases (c.sender.ackReceived seg.header.ackno seg.header.win).isSynSent with
    | true => exact Or.inl ⟨rfl, rfl⟩
    | false => exact Or.inr ⟨rfl, rfl⟩

/-- A segment with length is answered, by the own SYN if that has not been sent. -/
theorem replyToData_cases (c : TCPConnection) (seg : TCPSegment) :
    seg.lengthInSequenceSpace = 0 ∧ c.replyToData seg = c ∨
      seg.lengthInSequenceSpace ≠ 0 ∧
        (c.sender.isSynSent = false ∧
            c.replyToData seg = { c with sender := c.sender.fillWindow } ∨
          c.replyToData seg = { c with sender := c.sender.sendEmptySegment }) := by
  rw [replyToData]
  by_cases hlen : seg.lengthInSequenceSpace = 0
  · exact Or.inl ⟨hlen, if_neg (not_not.mpr hlen)⟩
  · refine Or.inr ⟨hlen, ?_⟩
    rw [if_pos hlen]
    split
    · rename_i hsyn
      rw [Bool.and_eq_true, Bool.not_eq_true'] at hsyn
      exact Or.inl ⟨hsyn.2, rfl⟩
    · exact Or.inr rfl

theorem replyToKeepAlive_cases (c : TCPConnection) (seg : TCPSegment) :
    isKeepAlive c.receiver seg = true ∧
        c.replyToKeepAlive seg = { c with sender := c.sender.sendEmptySegment } ∨
      isKeepAlive c.receiver seg = false ∧ c.replyToKeepAlive seg = c := by
  rw [replyToKeepAlive]
  cases isKeepAlive c.receiver seg with
  | true => exact Or.inl ⟨rfl, rfl⟩
  | false => exact Or.inr ⟨rfl, rfl⟩

/-- Only the linger flag depends on the end of the inbound stream. -/
theorem noteInboundEnd_cases (c : TCPConnection) :
    c.sender.isFinSent = false ∧ c.receiver.streamOut.inputEnded = true ∧
        c.noteInboundEnd = { c with lingerAfterStreamsFinish := false } ∨
      c.noteInboundEnd = c := by
  rw [noteInboundEnd]
  split
  · rename_i hend
    rw [Bool.and_eq_true, Bool.not_eq_true'] at hend
    exact Or.inl ⟨hend.1, hend.2, rfl⟩
  · exact Or.inr rfl

theorem write_cases (c : TCPConnection) (data : List UInt8) :
    (c.write data).1 = c ∨ (c.write data).1 =
      { c with sender := (c.sender.writeStream data).fillWindow }.sendSegments := by
  unfold write
  split
  · exact Or.inl rfl
  · exact Or.inr rfl

theorem connect_cases (c : TCPConnection) :
    c.connect = c ∨ c.connect = { c with sender := c.sender.fillWindow }.sendSegments := by
  unfold connect
  split
  · exact Or.inl rfl
  · exact Or.inr rfl

/-- After an abort there is a segment to send, at least the empty one. -/
theorem sendReset_abort (c : TCPConnection) :
    ∃ front rest, c.abort.sender.segmentsOut = front :: rest ∧
      c.abort.sendReset =
        { c.abort with
          segmentsOut := c.segmentsOut ++ [stamp c.abort.receiver
            { front with header := { front.header with rst := true } }]
          sender := { c.abort.sender with segmentsOut := rest } } := by
  have hqueue : c.abort.sender.segmentsOut ≠ [] :=
    List.append_ne_nil_of_right_ne_nil _ (List.cons_ne_nil _ _)
  obtain ⟨front, rest, hcons⟩ := List.exists_cons_of_ne_nil hqueue
  refine ⟨front, rest, hcons, ?_⟩
  rw [sendReset, hcons]
  rfl

def setActive (c : TCPConnection) (active : Bool) : TCPConnection := { c with active := active }

/-- A tick aborts, or it sends what its sender has queued, and may end the connection. -/
theorem tick_cases (c : TCPConnection) (ms : ℕ) :
    ((c.sender.tick ms).consecutiveRetransmissions > maxRetxAttempts ∧
      c.tick ms = (c.passTime ms).abort.sendReset) ∨
    ((c.sender.tick ms).consecutiveRetransmissions ≤ maxRetxAttempts ∧
      ∃ active, (active = true → c.active = true) ∧
        c.tick ms = ((c.passTime ms).setActive active).sendSegments) := by
  unfold tick
  simp only
  split
  · rename_i hexceeds
    exact Or.inl ⟨hexceeds, rfl⟩
  · rename_i hexceeds
    refine Or.inr ⟨Nat.le_of_not_gt hexceeds, ?_⟩
    split
    · split
      · exact ⟨false, fun h => absurd h Bool.false_ne_true, rfl⟩
      · exact ⟨c.active, id, rfl⟩
    · exact ⟨c.active, id, rfl⟩

end TCPConnection

/-! ### The state summaries of `tcp_state.cc` -/

inductive TCPSenderStateSummary where
  | error | closed | synSent | synAcked | finSent | finAcked
deriving DecidableEq, Repr

inductive TCPReceiverStateSummary where
  | error | listen | synRecv | finRecv
deriving DecidableEq, Repr

/-- `TCPState::state_summary(const TCPSender &)`. -/
def TCPSender.stateSummary (st : TCPSender) : TCPSenderStateSummary :=
  if st.stream.error then .error
  else if st.nextSeqno = 0 then .closed
  else if st.nextSeqno = st.bytesInFlight then .synSent
  else if !st.stream.eof then .synAcked
  else if st.nextSeqno < u64 (st.stream.bytesWritten + 2) then .synAcked
  else if st.bytesInFlight ≠ 0 then .finSent
  else .finAcked

/-- `TCPState::state_summary(const TCPReceiver &)`. -/
def TCPReceiver.stateSummary (r : TCPReceiver) : TCPReceiverStateSummary :=
  if r.streamOut.error then .error
  else if r.ackno.isNone then .listen
  else if r.streamOut.inputEnded then .finRecv
  else .synRecv

/-- `TCPState`: the summaries of both sides, and the two flags of the connection. -/
structure TCPState where
  sender : TCPSenderStateSummary
  receiver : TCPReceiverStateSummary
  active : Bool := true
  lingerAfterStreamsFinish : Bool := true
deriving DecidableEq, Repr

namespace TCPState

/-- The official state names. -/
inductive State where
  | listen | synRcvd | synSent | established | closeWait | lastAck | finWait1 | finWait2 | closing
  | timeWait | closed | reset
deriving DecidableEq, Repr

/-- `TCPState::TCPState(const TCPState::State)`. -/
def ofState : State → TCPState
  | .listen => { receiver := .listen, sender := .closed }
  | .synRcvd => { receiver := .synRecv, sender := .synSent }
  | .synSent => { receiver := .listen, sender := .synSent }
  | .established => { receiver := .synRecv, sender := .synAcked }
  | .closeWait =>
    { receiver := .finRecv, sender := .synAcked, lingerAfterStreamsFinish := false }
  | .lastAck => { receiver := .finRecv, sender := .finSent, lingerAfterStreamsFinish := false }
  | .closing => { receiver := .finRecv, sender := .finSent }
  | .finWait1 => { receiver := .synRecv, sender := .finSent }
  | .finWait2 => { receiver := .synRecv, sender := .finAcked }
  | .timeWait => { receiver := .finRecv, sender := .finAcked }
  | .reset =>
    { receiver := .error, sender := .error, lingerAfterStreamsFinish := false, active := false }
  | .closed =>
    { receiver := .finRecv, sender := .finAcked, lingerAfterStreamsFinish := false
      active := false }

end TCPState

/-- `TCPConnection::state()`. -/
def TCPConnection.state (c : TCPConnection) : TCPState :=
  { sender := c.sender.stateSummary, receiver := c.receiver.stateSummary, active := c.active
    lingerAfterStreamsFinish := if c.active then c.lingerAfterStreamsFinish else false }

end Sponge
