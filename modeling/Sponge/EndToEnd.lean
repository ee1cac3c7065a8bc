import Sponge.DeadConnection
import Sponge.Flow

/-!
# Two connections over a bad channel

Two endpoints run the code and exchange their segments over a channel that may lose, duplicate
and reorder: a delivery hands an endpoint any segment its peer has enqueued so far.  Each
direction keeps `Flow`, and the two directions meet in every segment, which carries data one way
and an acknowledgment the other way.

Nothing acknowledged is lost and no stream ends early exactly in the runs in which no delivered
segment is premature, that is, makes the reassembler end the stream although bytes are missing.
-/

namespace Sponge

open MachineInt Run

/-- An endpoint with its history: what its outbound stream accepted, the segments its sender
dropped as acknowledged, what was written to its inbound stream, and what it enqueued. -/
structure Endpoint where
  conn : TCPConnection
  accepted : List UInt8
  acked : List TCPSegment
  delivered : List UInt8
  sent : List TCPSegment

namespace Endpoint

open TCPConnection

def start (c : TCPConnection) : Endpoint :=
  { conn := c, accepted := [], acked := [], delivered := [], sent := [] }

/-- The bytes the outbound stream accepts in a call. -/
def acceptedBy (c : TCPConnection) : ConnOp → List UInt8
  | .write data => c.sender.stream.accepted data
  | _ => []

/-- The segments a call drops from the outstanding ones because they are acknowledged. -/
def droppedBy (c : TCPConnection) : ConnOp → List TCPSegment
  | .segment seg =>
    if seg.header.ack then
      c.sender.outstandingSegments.take (c.sender.outstandingSegments.length -
        ((c.noteReset seg).sender.ackReceived seg.header.ackno
          seg.header.win).outstandingSegments.length)
    else []
  | _ => []

def act (e : Endpoint) (op : ConnOp) : Endpoint :=
  { conn := connStep e.conn op
    accepted := e.accepted ++ acceptedBy e.conn op
    acked := e.acked ++ droppedBy e.conn op
    delivered := e.delivered ++
      ByteStream.appended e.conn.inboundStream (connStep e.conn op).inboundStream
    sent := e.sent ++ enqueued e.conn op }

/-- The direction from `a` to `b`. -/
def Linked (a b : Endpoint) : Prop :=
  Flow a.conn.sender a.accepted a.acked a.sent b.conn.receiver b.delivered b.sent

/-- Both directions. -/
def Coupled (e o : Endpoint) : Prop := Linked e o ∧ Linked o e

variable {e o : Endpoint} {c : TCPConnection} {accepted delivered : List UInt8}
  {acked : List TCPSegment} {seg : TCPSegment}

theorem appended_self (s : ByteStream) : ByteStream.appended s s = [] := List.drop_length

/-! ### Segments leave -/

theorem stamp_sameData (r : TCPReceiver) (seg : TCPSegment) : SameData (stamp r seg) seg := by
  unfold stamp
  split <;> exact ⟨rfl, rfl, rfl, rfl⟩

theorem stamp_ackno {r : TCPReceiver} (hplain : seg.header.ack = false)
    (hack : (stamp r seg).header.ack = true) : r.ackno = some (stamp r seg).header.ackno := by
  unfold stamp at hack ⊢
  split at hack
  · rw [hplain] at hack
    cases hack
  · rename_i ackno hr
    rw [hr]

/-- The state of both directions in the middle of a call, before the connection `c` sends. -/
structure Midway (e o : Endpoint) (c : TCPConnection) (accepted : List UInt8)
    (acked : List TCPSegment) (delivered : List UInt8) : Prop where
  out : c.segmentsOut = e.conn.segmentsOut
  sending : Flow c.sender accepted acked e.sent o.conn.receiver o.delivered o.sent
  receiving : Flow o.conn.sender o.accepted o.acked o.sent c.receiver delivered e.sent

/-- `send_segments` at the end of a call. -/
theorem Midway.sendSegments (h : Midway e o c accepted acked delivered)
    (hlen : o.accepted.length < 2 ^ 31 - 2) :
    Coupled
      { conn := c.sendSegments, accepted := accepted, acked := acked, delivered := delivered
        sent := e.sent ++ c.sendSegments.segmentsOut.drop e.conn.segmentsOut.length } o := by
  have hsent : c.sendSegments.segmentsOut.drop e.conn.segmentsOut.length =
      c.sender.segmentsOut.map (stamp c.receiver) := by
    rw [TCPConnection.sendSegments, ← h.out, List.drop_left]
  rw [hsent]
  refine ⟨h.sending.flush (List.nil_subset _) ?_, h.receiving.sendAcks hlen ?_⟩
  · intro s hs
    obtain ⟨s₀, hs₀, rfl⟩ := List.mem_map.mp hs
    exact ⟨s₀, hs₀, stamp_sameData _ _⟩
  · intro s hs hack
    obtain ⟨s₀, hs₀, rfl⟩ := List.mem_map.mp hs
    exact stamp_ackno (h.sending.plain s₀ hs₀) hack

/-- The RST segment at the end of an unclean shutdown. -/
theorem Midway.sendReset (h : Midway e o c accepted acked delivered)
    (hlen : o.accepted.length < 2 ^ 31 - 2) :
    Coupled
      { conn := c.sendReset, accepted := accepted, acked := acked, delivered := delivered
        sent := e.sent ++ c.sendReset.segmentsOut.drop e.conn.segmentsOut.length } o := by
  unfold TCPConnection.sendReset
  split
  · rw [h.out, List.drop_length, List.append_nil]
    exact ⟨h.sending, h.receiving⟩
  · rename_i front rest hq
    simp only
    rw [← h.out, List.drop_left]
    have hfront : front ∈ c.sender.segmentsOut := by
      rw [hq]
      exact List.mem_cons_self
    refine ⟨h.sending.flush (by rw [hq]; exact List.subset_cons_self _ _) ?_,
      h.receiving.sendAcks hlen ?_⟩
    · intro s hs
      rw [List.mem_singleton] at hs
      rw [hs]
      exact ⟨front, hfront, (stamp_sameData _ _).trans ⟨rfl, rfl, rfl, rfl⟩⟩
    · intro s hs hack
      rw [List.mem_singleton] at hs
      rw [hs] at hack ⊢
      exact stamp_ackno (h.sending.plain front hfront) hack

/-- A call that ends with `send_segments` keeps both directions if they are kept up to there. -/
theorem Midway.act (h : Midway e o c accepted acked delivered)
    (hlen : o.accepted.length < 2 ^ 31 - 2) {op : ConnOp}
    (hstep : connStep e.conn op = c.sendSegments)
    (haccepted : accepted = e.accepted ++ acceptedBy e.conn op)
    (hacked : acked = e.acked ++ droppedBy e.conn op)
    (hdelivered : delivered = e.delivered ++
      ByteStream.appended e.conn.inboundStream (connStep e.conn op).inboundStream) :
    Coupled (e.act op) o := by
  have hend := h.sendSegments hlen
  rw [← hstep, haccepted, hacked, hdelivered] at hend
  exact hend

/-- The calls that only work on the sender and then send. -/
theorem Coupled.sendWith (h : Coupled e o) (hlen : o.accepted.length < 2 ^ 31 - 2)
    {snd : TCPSender} {op : ConnOp}
    (hsnd : Flow snd accepted e.acked e.sent o.conn.receiver o.delivered o.sent)
    (hstep : connStep e.conn op = { e.conn with sender := snd }.sendSegments)
    (haccepted : accepted = e.accepted ++ acceptedBy e.conn op)
    (hdropped : droppedBy e.conn op = []) : Coupled (e.act op) o := by
  have hmid : Midway e o { e.conn with sender := snd } accepted e.acked e.delivered :=
    ⟨rfl, hsnd, h.2⟩
  refine hmid.act hlen hstep haccepted ?_ ?_
  · rw [hdropped, List.append_nil]
  · rw [hstep]
    show e.delivered = e.delivered ++ ByteStream.appended e.conn.inboundStream e.conn.inboundStream
    rw [appended_self, List.append_nil]

/-- The calls that do nothing. -/
theorem act_of_idle {op : ConnOp} (hstep : connStep e.conn op = e.conn)
    (haccepted : acceptedBy e.conn op = []) (hdropped : droppedBy e.conn op = []) :
    e.act op = e := by
  rw [act, enqueued, hstep, haccepted, hdropped, appended_self, List.drop_length]
  simp only [List.append_nil]

/-! ### The calls -/

theorem Coupled.write (h : Coupled e o) (hlen : o.accepted.length < 2 ^ 31 - 2)
    (data : List UInt8) : Coupled (e.act (.write data)) o := by
  by_cases hdata : data.length = 0
  · have haccepted : acceptedBy e.conn (.write data) = [] := by
      have hle := (e.conn.sender.stream.accepted_prefix data).length_le
      exact List.length_eq_zero_iff.mp (Nat.le_zero.mp (hle.trans_eq hdata))
    have hidle : connStep e.conn (.write data) = e.conn := congrArg Prod.fst (if_pos hdata)
    rw [act_of_idle hidle haccepted rfl]
    exact h
  · exact h.sendWith hlen (h.1.write data).fillWindow (congrArg Prod.fst (if_neg hdata)) rfl rfl

theorem Coupled.endInput (h : Coupled e o) (hlen : o.accepted.length < 2 ^ 31 - 2) :
    Coupled (e.act .endInput) o :=
  h.sendWith hlen h.1.endStream.fillWindow rfl (List.append_nil _).symm rfl

theorem Coupled.connect (h : Coupled e o) (hlen : o.accepted.length < 2 ^ 31 - 2) :
    Coupled (e.act .connect) o := by
  rcases e.conn.connect_cases with hidle | hsend
  · have hidle : connStep e.conn .connect = e.conn := hidle
    rw [act_of_idle hidle rfl rfl]
    exact h
  · exact h.sendWith hlen h.1.fillWindow hsend (List.append_nil _).symm rfl

theorem Coupled.read (h : Coupled e o) (len : ℕ) : Coupled (e.act (.read len)) o := by
  have hnone : ByteStream.appended e.conn.inboundStream (e.conn.readInbound len).inboundStream =
      [] := List.drop_eq_nil_iff.mpr (e.conn.inboundStream.popOutput_length_le len)
  have hout : (e.conn.readInbound len).segmentsOut.drop e.conn.segmentsOut.length = [] :=
    List.drop_length
  rw [act, enqueued]
  simp only [connStep, hnone, hout, droppedBy, acceptedBy, List.append_nil]
  exact ⟨h.1, h.2.readOut len⟩

theorem sendReset_receiver (c : TCPConnection) : c.sendReset.receiver = c.receiver := by
  rw [sendReset]
  split <;> rfl

theorem Coupled.tick (h : Coupled e o) (hlen : o.accepted.length < 2 ^ 31 - 2) (ms : ℕ) :
    Coupled (e.act (.tick ms)) o := by
  have hsnd := h.1.tick ms
  have hnone : ∀ c : TCPConnection, c.receiver.streamOut.buffer = e.conn.receiver.streamOut.buffer →
      ByteStream.appended e.conn.inboundStream c.inboundStream = [] := by
    intro c hc
    show c.receiver.streamOut.buffer.drop e.conn.receiver.streamOut.buffer.length = []
    rw [hc, List.drop_length]
  rcases e.conn.tick_cases ms with ⟨-, hstep⟩ | ⟨-, active, -, hstep⟩
  · -- the unclean shutdown
    have hmid : Midway e o (e.conn.passTime ms).abort e.accepted e.acked e.delivered :=
      ⟨rfl, hsnd.errorStream.sendEmptySegment, h.2.errorOut⟩
    have hend := hmid.sendReset hlen
    have hstep : connStep e.conn (.tick ms) = _ := hstep
    rw [act, enqueued, hstep, hnone _ (by rw [sendReset_receiver]; rfl)]
    simpa [droppedBy, acceptedBy] using hend
  · have hmid : Midway e o ((e.conn.passTime ms).setActive active) e.accepted e.acked
        e.delivered := ⟨rfl, hsnd, h.2⟩
    have hstep : connStep e.conn (.tick ms) = _ := hstep
    refine hmid.act hlen hstep (List.append_nil _).symm (List.append_nil _).symm ?_
    rw [hstep, hnone (((e.conn.passTime ms).setActive active).sendSegments) rfl, List.append_nil]

/-! ### A delivery -/

theorem Midway.takeAck (h : Midway e o c accepted acked delivered)
    (hlen : accepted.length < 2 ^ 31 - 2) (hseg : seg ∈ o.sent) (popped : List TCPSegment)
    (hpopped : popped = if seg.header.ack then
      c.sender.outstandingSegments.take (c.sender.outstandingSegments.length -
        (c.sender.ackReceived seg.header.ackno seg.header.win).outstandingSegments.length)
      else []) :
    Midway e o (c.takeAck seg) accepted (acked ++ popped) delivered := by
  obtain ⟨left, ha⟩ := TCPSender.ackReceived_acked c.sender seg.header.ackno seg.header.win
  rcases c.takeAck_cases seg with ⟨hack, heq⟩ | ⟨hack, _, rfl, hfill⟩
  · rw [hack, if_neg (by simp)] at hpopped
    rw [heq, hpopped, List.append_nil]
    exact h
  · have hleft : popped = left := by
      have hlength := congrArg List.length ha.outstanding
      rw [List.length_append] at hlength
      rw [hpopped, hack, if_pos rfl, hlength, Nat.add_sub_cancel, ha.outstanding]
      exact List.take_left
    have hsnd := h.sending.ackReceived hlen hseg hack ha
    rw [hleft]
    rcases hfill with ⟨-, heq⟩ | ⟨-, heq⟩
    · rw [heq]
      exact ⟨h.out, hsnd.fillWindow, h.receiving⟩
    · rw [heq]
      exact ⟨h.out, hsnd, h.receiving⟩

theorem Midway.replyToData (h : Midway e o c accepted acked delivered) (seg : TCPSegment) :
    Midway e o (c.replyToData seg) accepted acked delivered := by
  rcases c.replyToData_cases seg with ⟨-, heq⟩ | ⟨-, ⟨-, heq⟩ | heq⟩
  · rw [heq]
    exact h
  · rw [heq]
    exact ⟨h.out, h.sending.fillWindow, h.receiving⟩
  · rw [heq]
    exact ⟨h.out, h.sending.sendEmptySegment, h.receiving⟩

theorem Midway.replyToKeepAlive (h : Midway e o c accepted acked delivered) (seg : TCPSegment) :
    Midway e o (c.replyToKeepAlive seg) accepted acked delivered := by
  rcases c.replyToKeepAlive_cases seg with ⟨-, heq⟩ | ⟨-, heq⟩
  · rw [heq]
    exact ⟨h.out, h.sending.sendEmptySegment, h.receiving⟩
  · rw [heq]
    exact h

theorem Midway.noteInboundEnd (h : Midway e o c accepted acked delivered) :
    Midway e o c.noteInboundEnd accepted acked delivered := by
  rcases c.noteInboundEnd_cases with ⟨-, -, heq⟩ | heq
  · rw [heq]
    exact ⟨h.out, h.sending, h.receiving⟩
  · rw [heq]
    exact h

theorem Midway.noteReset (h : Midway e o c accepted acked delivered) (seg : TCPSegment) :
    Midway e o (c.noteReset seg) accepted acked delivered := by
  rcases c.noteReset_cases seg with ⟨-, heq⟩ | ⟨-, heq⟩
  · rw [heq]
    exact ⟨h.out, h.sending.errorStream, h.receiving.errorOut⟩
  · rw [heq]
    exact h

theorem Midway.receive (h : Midway e o c accepted acked delivered)
    (hlen : o.accepted.length < 2 ^ 31 - 2) (hseg : seg ∈ o.sent)
    (hok : Flow.Timely o.accepted c.receiver seg) :
    Midway e o { c with receiver := c.receiver.segmentReceived seg } accepted acked
      (delivered ++ ByteStream.appended c.receiver.streamOut
        (c.receiver.segmentReceived seg).streamOut) :=
  ⟨h.out, h.sending, h.receiving.receive hlen hseg hok⟩

/-- What a reset marks has no influence on what a segment does. -/
theorem noteReset_frame (c : TCPConnection) (seg : TCPSegment) :
    (c.noteReset seg).sender.outstandingSegments = c.sender.outstandingSegments ∧
      (c.noteReset seg).receiver.streamOut.buffer = c.receiver.streamOut.buffer ∧
      ∀ accepted, Flow.Timely accepted (c.noteReset seg).receiver seg ↔
        Flow.Timely accepted c.receiver seg := by
  rcases c.noteReset_cases seg with ⟨-, heq⟩ | ⟨-, heq⟩
  · rw [heq]
    refine ⟨rfl, rfl, fun accepted => ?_⟩
    have hflags : (c.shutdown.receiver.noteFlags seg).streamIndex seg =
        (c.receiver.noteFlags seg).streamIndex seg := by
      rw [TCPReceiver.streamIndex, TCPReceiver.streamIndex, TCPReceiver.noteFlags_isn,
        TCPReceiver.noteFlags_isn, TCPReceiver.noteFlags_absCheckpoint,
        TCPReceiver.noteFlags_absCheckpoint]
      rfl
    rw [Flow.Timely, Flow.Timely, hflags]
    exact Iff.rfl
  · rw [heq]
    exact ⟨rfl, rfl, fun _ => Iff.rfl⟩

/-- A delivery writes to the inbound stream what the receiver takes. -/
theorem written_segment (c : TCPConnection) (seg : TCPSegment) :
    (connStep c (.segment seg)).inboundStream =
        ((c.noteReset seg).receiver.segmentReceived seg).streamOut ∧
      ByteStream.appended c.inboundStream (connStep c (.segment seg)).inboundStream =
        ByteStream.appended (c.noteReset seg).receiver.streamOut
          ((c.noteReset seg).receiver.segmentReceived seg).streamOut := by
  have hrecv : (connStep c (.segment seg)).inboundStream =
      ((c.noteReset seg).receiver.segmentReceived seg).streamOut := by
    show (c.processSegment seg).receiver.streamOut = _
    rw [(processSegment_frame c seg).1]
  refine ⟨hrecv, ?_⟩
  rw [hrecv, ByteStream.appended, ByteStream.appended, (noteReset_frame c seg).2.1]
  rfl

/-- **A delivery keeps both directions**, unless the segment is premature. -/
theorem Coupled.segment (h : Coupled e o) (hlen : e.accepted.length < 2 ^ 31 - 2)
    (hlen' : o.accepted.length < 2 ^ 31 - 2) (hseg : seg ∈ o.sent)
    (hok : Flow.Timely o.accepted e.conn.receiver seg) : Coupled (e.act (.segment seg)) o := by
  obtain ⟨hframe, -, htimely⟩ := noteReset_frame e.conn seg
  have hstart : Midway e o e.conn e.accepted e.acked e.delivered := ⟨rfl, h.1, h.2⟩
  have hreceived := (hstart.noteReset seg).receive hlen' hseg ((htimely _).mpr hok)
  have hacked := hreceived.takeAck hlen hseg (droppedBy e.conn (.segment seg)) (by
    simp only [droppedBy, hframe])
  have hdone := ((hacked.replyToData seg).replyToKeepAlive seg).noteInboundEnd
  have hmid : Midway e o (e.conn.processSegment seg) e.accepted
      (e.acked ++ droppedBy e.conn (.segment seg))
      (e.delivered ++ ByteStream.appended (e.conn.noteReset seg).receiver.streamOut
        ((e.conn.noteReset seg).receiver.segmentReceived seg).streamOut) :=
    ⟨hdone.out, hdone.sending, hdone.receiving⟩
  refine hmid.act hlen' rfl (List.append_nil _).symm rfl ?_
  rw [(written_segment e.conn seg).2]

/-- A premature segment ends the inbound stream before it is whole. -/
theorem Coupled.segment_premature (h : Coupled e o) (hlen : o.accepted.length < 2 ^ 31 - 2)
    (hseg : seg ∈ o.sent) (hbad : ¬ Flow.Timely o.accepted e.conn.receiver seg) :
    (e.act (.segment seg)).conn.inboundStream.inputEnded = true ∧
      (e.act (.segment seg)).delivered ≠ o.accepted := by
  have hstart : Midway e o e.conn e.accepted e.acked e.delivered := ⟨rfl, h.1, h.2⟩
  have hearly := (hstart.noteReset seg).receiving.not_whole_of_premature hlen hseg
    (fun hok => hbad (((noteReset_frame e.conn seg).2.2 _).mp hok))
  obtain ⟨hin, happ⟩ := written_segment e.conn seg
  refine ⟨?_, ?_⟩
  · show (connStep e.conn (.segment seg)).inboundStream.inputEnded = true
    rw [hin]
    exact hearly.1
  · show e.delivered ++ _ ≠ _
    rw [happ]
    exact hearly.2

end Endpoint

/-! ### The two endpoints and the channel -/

inductive Side where
  | x
  | y
deriving DecidableEq, Repr

def Side.other : Side → Side
  | .x => .y
  | .y => .x

theorem Side.other_ne (s : Side) : s.other ≠ s := by
  cases s <;> decide

theorem Side.other_other (s : Side) : s.other.other = s := by
  cases s <;> rfl

def Pair := Side → Endpoint

namespace Pair

open TCPConnection Endpoint

/-- What an endpoint does on its own. -/
inductive LocalOp where
  | write (data : List UInt8)
  | endInput
  | connect
  | tick (msSinceLastTick : ℕ)
  | read (len : ℕ)
deriving DecidableEq

def LocalOp.toConn : LocalOp → ConnOp
  | .write data => .write data
  | .endInput => .endInput
  | .connect => .connect
  | .tick msSinceLastTick => .tick msSinceLastTick
  | .read len => .read len

/-- A call at one side, or the delivery to one side of the `i`-th segment its peer enqueued. -/
inductive PairOp where
  | call (s : Side) (op : LocalOp)
  | deliver (s : Side) (i : ℕ)
deriving DecidableEq

def start (cfg : Side → TCPConfig) (random : Side → WrappingInt32) : Pair :=
  fun s => Endpoint.start (TCPConnection.new (cfg s) (random s))

/-- One side acts. -/
def actAt (p : Pair) (s : Side) (op : ConnOp) : Pair := Function.update p s ((p s).act op)

/-- The channel hands one side the `i`-th segment its peer enqueued, if there is one. -/
def deliver (p : Pair) (s : Side) (i : ℕ) : Pair :=
  match (p s.other).sent[i]? with
  | some seg => p.actAt s (.segment seg)
  | none => p

def pairStep (p : Pair) : PairOp → Pair
  | .call s op => p.actAt s op.toConn
  | .deliver s i => p.deliver s i

/-- Everything dropped as acknowledged was written to the peer's inbound stream, and a stream
that has ended is the peer's whole outbound stream, which has ended too. -/
def NoLoss (p : Pair) : Prop :=
  ∀ s : Side, payloads (p s).acked <+: (p s.other).delivered ∧
    ((p s.other).conn.inboundStream.inputEnded = true →
      (p s).conn.sender.stream.inputEnded = true ∧ (p s.other).delivered = (p s).accepted)

/-- A delivered segment does not end the inbound stream before its bytes are there. -/
def DeliverOk (p : Pair) : PairOp → Prop
  | .deliver s i => ∀ seg, (p s.other).sent[i]? = some seg →
      Flow.Timely (p s.other).accepted (p s).conn.receiver seg
  | .call _ _ => True

/-- Fewer than `2 ^ 31 - 2` bytes are written per side. -/
def Bounded (p : Pair) : Prop := ∀ s, (p s).accepted.length < 2 ^ 31 - 2

/-- Both directions are in order. -/
def PairInv (p : Pair) : Prop := ∀ s : Side, Coupled (p s) (p s.other)

variable {p : Pair} {s : Side}

@[simp] theorem actAt_self (p : Pair) (s : Side) (op : ConnOp) : p.actAt s op s = (p s).act op :=
  Function.update_self ..

@[simp] theorem actAt_other (p : Pair) (s : Side) (op : ConnOp) :
    p.actAt s op s.other = p s.other :=
  Function.update_of_ne s.other_ne ..

theorem eq_or_eq_other (s s' : Side) : s' = s ∨ s' = s.other := by
  cases s <;> cases s' <;> decide

theorem PairInv.of_actAt {op : ConnOp} (hact : Coupled ((p s).act op) (p s.other)) :
    PairInv (p.actAt s op) := by
  intro s'
  rcases eq_or_eq_other s s' with rfl | rfl
  · rw [actAt_self, actAt_other]
    exact hact
  · rw [actAt_other, Side.other_other, actAt_self]
    exact ⟨hact.2, hact.1⟩

theorem accepted_prefix_actAt (p : Pair) (s s' : Side) (op : ConnOp) :
    (p s').accepted <+: (p.actAt s op s').accepted := by
  rcases eq_or_eq_other s s' with rfl | rfl
  · rw [actAt_self]
    exact List.prefix_append ..
  · rw [actAt_other]

theorem Bounded.of_step {op : PairOp} (h : Bounded (pairStep p op)) : Bounded p := by
  intro s'
  have hs' := h s'
  cases op with
  | call s op => exact (accepted_prefix_actAt p s s' _).length_le.trans_lt hs'
  | deliver s i =>
    cases hget : (p s.other).sent[i]? with
    | none =>
      simp only [pairStep, deliver, hget] at hs'
      exact hs'
    | some seg =>
      simp only [pairStep, deliver, hget] at hs'
      exact (accepted_prefix_actAt p s s' _).length_le.trans_lt hs'

/-- **Step.**  Calls always keep both directions, deliveries unless they are premature. -/
theorem PairInv.step {op : PairOp} (h : PairInv p) (hlen : Bounded p) (hok : DeliverOk p op) :
    PairInv (pairStep p op) := by
  cases op with
  | call s op =>
    refine PairInv.of_actAt ?_
    have ho := hlen s.other
    cases op with
    | write data => exact (h s).write ho data
    | endInput => exact (h s).endInput ho
    | connect => exact (h s).connect ho
    | tick ms => exact (h s).tick ho ms
    | read len => exact (h s).read len
  | deliver s i =>
    show PairInv (p.deliver s i)
    unfold deliver
    split
    · rename_i seg hget
      exact PairInv.of_actAt ((h s).segment (hlen s) (hlen s.other) (List.mem_of_getElem? hget)
        (hok seg hget))
    · exact h

theorem PairInv.noLoss (h : PairInv p) : NoLoss p := fun s =>
  ⟨(h s).1.acked_delivered, (h s).1.ended_whole⟩

theorem PairInv.start (cfg : Side → TCPConfig) (random : Side → WrappingInt32)
    (hcap : ∀ s, (cfg s).recvCapacity < 2 ^ 64) : PairInv (start cfg random) := by
  have hlinked : ∀ s s', Linked (Pair.start cfg random s) (Pair.start cfg random s') := by
    intro s s'
    refine
      { send := TCPSender.new_inv .., carried := ?_, plain := ?_,
        recv := TCPReceiver.RecvInv.new (hcap s') _, acks_le := ?_, recent_le := Nat.zero_le _,
        acked_le := Nat.zero_le _, early := fun _ => ⟨rfl, rfl, rfl⟩, finSeen := ?_,
        finUnseen := fun _ => rfl, eofSeen := ?_, whole := ?_, endedNext := ?_ }
    · intro seg hseg
      cases hseg
    · intro seg hseg
      cases hseg
    · intro seg hseg
      cases hseg
    · intro hset
      cases hset
    · intro heof
      cases heof
    · simp [StreamReassembler.EndedWhole, Pair.start, Endpoint.start, TCPConnection.new,
        TCPReceiver.new, StreamReassembler.new, ByteStream.new]
    · intro hend
      cases hend
  exact fun s => ⟨hlinked _ _, hlinked _ _⟩

/-- Under the invariant a step keeps `NoLoss` exactly when its delivery is not premature. -/
theorem noLoss_step_iff {op : PairOp} (h : PairInv p) (hlen : Bounded p) :
    NoLoss (pairStep p op) ↔ DeliverOk p op := by
  refine ⟨fun hgood => ?_, fun hok => (h.step hlen hok).noLoss⟩
  cases op with
  | call s op => trivial
  | deliver s i =>
    intro seg hget
    by_contra hbad
    obtain ⟨hend, hne⟩ :=
      (h s).segment_premature (hlen s.other) (List.mem_of_getElem? hget) hbad
    have hstep : pairStep p (.deliver s i) = p.actAt s (.segment seg) := by
      simp only [pairStep, deliver, hget]
    have hother := (hgood s.other).2
    rw [hstep, Side.other_other, actAt_self, actAt_other] at hother
    exact hne (hother hend).2

theorem Bounded.along {ops : List PairOp} (h : Bounded (run pairStep p ops)) :
    Along pairStep (fun p _ => Bounded p) p ops := by
  induction ops using List.reverseRecOn with
  | nil => trivial
  | append_singleton ops op ih =>
    rw [run_concat] at h
    exact (along_concat p ops op).mpr ⟨ih h.of_step, h.of_step⟩

/-- **End-to-end no loss**, for every pair of connections and every interleaving of calls and
deliveries: it holds after every step exactly when no delivery is premature. -/
theorem noLoss_iff_deliverOk (cfg : Side → TCPConfig) (random : Side → WrappingInt32)
    (hcap : ∀ s, (cfg s).recvCapacity < 2 ^ 64) (ops : List PairOp)
    (hlen : Bounded (run pairStep (start cfg random) ops)) :
    Along pairStep (fun p op => NoLoss (pairStep p op)) (start cfg random) ops ↔
      Along pairStep DeliverOk (start cfg random) ops :=
  along_iff_of_invariant (I := PairInv) (fun _ _ h hb hok => h.step hb hok)
    (fun _ _ h hb => noLoss_step_iff h hb) (PairInv.start cfg random hcap) hlen.along

/-- Two small connections. -/
def smallConfig : Side → TCPConfig
  | .x => { recvCapacity := 8, sendCapacity := 8, fixedIsn := some ⟨0⟩ }
  | .y => { recvCapacity := 8, sendCapacity := 8, fixedIsn := some ⟨100⟩ }

/-- The handshake; then `x` writes some bytes and ends its stream.  Its segments are the SYN, an
acknowledgment, the bytes and the FIN. -/
def closingRun (data : List UInt8) : List PairOp :=
  [.call .x .connect, .deliver .y 0, .deliver .x 0, .call .x (.write data), .call .x .endInput]

/-- One byte and the FIN arrive in order, and their acknowledgments come back. -/
theorem noLoss_iff_deliverOk_in_order :
    Along pairStep (fun p op => NoLoss (pairStep p op)) (start smallConfig fun _ => ⟨0⟩)
      (closingRun [97] ++ [.deliver .y 2, .deliver .y 3, .deliver .x 2]) := by
  refine (noLoss_iff_deliverOk smallConfig (fun _ => ⟨0⟩) ?_ _ ?_).mpr
    ⟨trivial, ?_, ?_, trivial, trivial, ?_, ?_, ?_, trivial⟩
  · rintro (_ | _) <;> decide
  · rintro (_ | _) <;> decide
  · rintro seg - - ⟨-, n, hn, -⟩
    exact absurd hn (Nat.not_lt_zero n)
  · rintro seg - - ⟨-, n, hn, -⟩
    exact absurd hn (Nat.not_lt_zero n)
  · -- the byte: no end has been seen
    intro seg hget _ hpre
    have hfin := congrArg (Option.map fun s : TCPSegment => s.header.fin) hget
    rcases hpre.1 with hf | heof
    · rw [Option.map_some, hf] at hfin
      exact absurd hfin (by decide)
    · exact absurd heof (by decide)
  · -- the FIN: the byte is already assembled
    rintro seg - - ⟨-, n, hn, hge, -⟩
    have hone : 1 ≤ n := hge
    have hlt : n < 1 := hn
    omega
  · rintro seg - - ⟨-, n, hn, -⟩
    exact absurd hn (Nat.not_lt_zero n)

/-- The FIN overtakes the two bytes: `y` ends its inbound stream with nothing written; then it
acknowledges the bytes without writing them, and `x` drops them. -/
theorem noLoss_fails_on_overtaking_fin :
    let p := run pairStep (start smallConfig fun _ => ⟨0⟩)
      (closingRun [97, 98] ++ [.deliver .y 3, .deliver .y 2, .deliver .x 2])
    ¬ NoLoss p ∧ payloads (p .x).acked = [97, 98] ∧ (p .y).delivered = [] ∧
      (p .y).conn.inboundStream.inputEnded = true := by
  refine ⟨fun h => ?_, by decide, by decide, by decide⟩
  exact absurd (h .x).1 (by decide)

end Pair

end Sponge
