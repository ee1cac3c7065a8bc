import Sponge.WindowRoom

/-!
# Two connections within their windows

Both directions between two connections keep `Room`, whatever is called and delivered.  Besides,
everything a sender has cut from its stream is on the wire, without the RST flag (`Archived`):
an unclean shutdown puts a retransmitted segment on the wire as its RST segment, but cuts
nothing new.  A connection that has heard a SYN has sent its own (`Answered`).
-/

namespace Sponge

open MachineInt Run

namespace TCPConnection

open TCPSender

variable {c : TCPConnection} {op : ConnOp} {seg : TCPSegment}

/-- What is outstanding after a segment was so before, or is queued. -/
theorem outstanding_processSegment (c : TCPConnection) (seg : TCPSegment) :
    ∀ s ∈ (c.processSegment seg).sender.outstandingSegments,
      s ∈ c.sender.outstandingSegments ∨ s ∈ (c.processSegment seg).sender.segmentsOut := by
  apply processSegment_keeps (I := fun st => ∀ s ∈ st.outstandingSegments,
    s ∈ c.sender.outstandingSegments ∨ s ∈ st.segmentsOut)
  · intro st op hop h s hs
    cases op with
    | setError => exact h s hs
    | fillWindow =>
      obtain ⟨new, hf⟩ := fillWindow_filled st
      rw [senderStep, hf.outstanding] at hs
      rw [senderStep, hf.segmentsOut]
      rcases List.mem_append.mp hs with hold | hnew
      · exact (h s hold).imp_right (List.mem_append_left _)
      · exact Or.inr (List.mem_append_right _ hnew)
    | ackReceived ackno window =>
      obtain ⟨popped, ha⟩ := ackReceived_acked st ackno window
      rw [senderStep, ha.segmentsOut]
      apply h s
      rw [ha.outstanding]
      exact List.mem_append_right _ hs
    | sendEmptySegment => exact (h s hs).imp_right (List.mem_append_left _)
    | write data => exact hop.elim
    | endInput => exact hop.elim
    | tick ms => exact hop.elim
    | popSegment => exact hop.elim
  · intro s hs
    exact Or.inl hs

/-- The calls that end with `send_segments` put on the wire what they cut. -/
theorem sent_of_sendSegments (c' : TCPConnection) (hstep : connStep c op = c'.sendSegments)
    (hout : c'.segmentsOut = c.segmentsOut)
    (h : ∀ s ∈ c'.sender.outstandingSegments,
      s ∈ c.sender.outstandingSegments ∨ s ∈ c'.sender.segmentsOut) :
    ∀ s ∈ (connStep c op).sender.outstandingSegments, s ∈ c.sender.outstandingSegments ∨
      stamp (connStep c op).receiver s ∈ enqueued c op := by
  intro s hs
  rw [hstep] at hs
  refine (h s hs).imp_right fun hq => ?_
  rw [enqueued, hstep, sendSegments, hout, List.drop_left]
  exact List.mem_map_of_mem hq

/-- **What a call cuts from the stream it puts on the wire.** -/
theorem sent_of_outstanding (c : TCPConnection) (op : ConnOp) :
    ∀ s ∈ (connStep c op).sender.outstandingSegments, s ∈ c.sender.outstandingSegments ∨
      stamp (connStep c op).receiver s ∈ enqueued c op := by
  have hfill : ∀ st : TCPSender, st.outstandingSegments = c.sender.outstandingSegments →
      ∀ s ∈ st.fillWindow.outstandingSegments,
        s ∈ c.sender.outstandingSegments ∨ s ∈ st.fillWindow.segmentsOut := by
    intro st hst s hs
    obtain ⟨new, hf⟩ := fillWindow_filled st
    rw [hf.outstanding, hst] at hs
    rw [hf.segmentsOut]
    exact (List.mem_append.mp hs).imp_right (List.mem_append_right _)
  cases op with
  | segment seg =>
    exact sent_of_sendSegments (c.processSegment seg) rfl (processSegment_frame c seg).2.1
      (outstanding_processSegment c seg)
  | write data =>
    rcases c.write_cases data with hstep | hstep
    · intro s hs
      have hstep : connStep c (.write data) = c := hstep
      rw [hstep] at hs
      exact Or.inl hs
    · exact sent_of_sendSegments _ hstep rfl (hfill _ rfl)
  | endInput =>
    exact sent_of_sendSegments { c with sender := c.sender.endStream.fillWindow } rfl rfl
      (hfill _ rfl)
  | connect =>
    rcases c.connect_cases with hstep | hstep
    · intro s hs
      have hstep : connStep c .connect = c := hstep
      rw [hstep] at hs
      exact Or.inl hs
    · exact sent_of_sendSegments _ hstep rfl (hfill _ rfl)
  | tick ms =>
    -- time cuts nothing
    intro s hs
    have hsame : (connStep c (.tick ms)).sender.outstandingSegments =
        c.sender.outstandingSegments := by
      have ht := (tick_ticked c.sender ms).outstanding
      show (c.tick ms).sender.outstandingSegments = _
      rcases c.tick_cases ms with ⟨-, hstep⟩ | ⟨-, active, -, hstep⟩
      · obtain ⟨front, rest, -, hreset⟩ := (c.passTime ms).sendReset_abort
        rw [hstep, hreset]
        exact ht
      · rw [hstep]
        exact ht
    rw [hsame] at hs
    exact Or.inl hs
  | read len =>
    intro s hs
    exact Or.inl hs
  | popOut =>
    intro s hs
    exact Or.inl hs

end TCPConnection

namespace Endpoint

open TCPConnection TCPSender

variable {e o : Endpoint} {c : TCPConnection} {accepted delivered : List UInt8}
  {acked : List TCPSegment} {seg : TCPSegment} {op : ConnOp}

/-- The direction from `a` to `b` has room for what `a` has sent. -/
def Roomy (a b : Endpoint) : Prop := Room a.conn.sender a.acked b.conn.receiver b.sent

/-- Everything cut from the stream is on the wire, without the RST flag. -/
def Archived (e : Endpoint) : Prop :=
  ∀ seg ∈ e.acked ++ e.conn.sender.outstandingSegments,
    ∃ s ∈ e.sent, SameData s seg ∧ s.header.rst = false

/-! ### Towards the acting side -/

theorem Roomy.receiving (h : Roomy o e) (hflow : Linked o e) (hflow' : Linked o (e.act op))
    (hlen : o.accepted.length < 2 ^ 31 - 2)
    (hop : ∀ seg, op = .segment seg → seg ∈ o.sent) : Roomy o (e.act op) := by
  have hrecv : Room o.conn.sender o.acked (connStep e.conn op).receiver e.sent := by
    rcases connStep_receiver e.conn op with heq | heq | ⟨len, -, heq⟩ | ⟨seg, hseg, heq⟩ <;>
      rw [heq]
    · exact h
    · exact h.errorOut
    · exact h.readOut len
    · rcases e.conn.noteReset_cases seg with ⟨-, hr⟩ | ⟨-, hr⟩ <;> rw [hr]
      · exact h.errorOut.receive hflow.errorOut hlen (hop seg hseg)
      · exact h.receive hflow hlen (hop seg hseg)
  refine hrecv.sendAcks hflow' hlen ?_
  -- an acknowledgment is only set once the SYN has arrived, and then it is stamped
  intro s hs hack
  obtain ⟨hsyn, -⟩ := hflow'.acks_le s (List.mem_append_right _ hs) hack
  obtain ⟨mid, hmid⟩ := handover e.conn op
  obtain ⟨_, -, s', -, rfl⟩ := hmid.stamped s hs
  cases hackno : (connStep e.conn op).receiver.ackno with
  | none =>
    have hsyn : (connStep e.conn op).receiver.ifSynSet = true := hsyn
    simp [TCPReceiver.ackno, hsyn] at hackno
  | some ackno => exact stamp_advertises hackno s'

/-! ### From the acting side -/

theorem Midway.room_takeAck (h : Midway e o c accepted acked delivered)
    (hroom : Room c.sender acked o.conn.receiver o.sent)
    (hlen : accepted.length < 2 ^ 31 - 2) (hseg : seg ∈ o.sent) (popped : List TCPSegment)
    (hpopped : popped = if seg.header.ack then
      c.sender.outstandingSegments.take (c.sender.outstandingSegments.length -
        (c.sender.ackReceived seg.header.ackno seg.header.win).outstandingSegments.length)
      else []) :
    Room (c.takeAck seg).sender (acked ++ popped) o.conn.receiver o.sent := by
  obtain ⟨left, ha⟩ := ackReceived_acked c.sender seg.header.ackno seg.header.win
  rcases c.takeAck_cases seg with ⟨hack, heq⟩ | ⟨hack, _, rfl, hfill⟩
  · rw [hack, if_neg (by simp)] at hpopped
    rw [heq, hpopped, List.append_nil]
    exact hroom
  · have hleft : popped = left := by
      have hlength := congrArg List.length ha.outstanding
      rw [List.length_append] at hlength
      rw [hpopped, hack, if_pos rfl, hlength, Nat.add_sub_cancel, ha.outstanding]
      exact List.take_left
    have hacked := hroom.ackReceived h.sending hlen hseg hack ha
    rw [hleft]
    rcases hfill with ⟨-, heq⟩ | ⟨-, heq⟩ <;> rw [heq]
    · exact hacked.fillWindow (h.sending.ackReceived hlen hseg hack ha)
    · exact hacked

theorem Midway.room_replies (h : Midway e o c accepted acked delivered)
    (hroom : Room c.sender acked o.conn.receiver o.sent) (seg : TCPSegment) :
    Room ((c.replyToData seg).replyToKeepAlive seg).sender acked o.conn.receiver o.sent := by
  have hdata : Room (c.replyToData seg).sender acked o.conn.receiver o.sent := by
    rcases c.replyToData_cases seg with ⟨-, heq⟩ | ⟨-, ⟨-, heq⟩ | heq⟩ <;> rw [heq]
    · exact hroom
    · exact hroom.fillWindow h.sending
    · exact hroom.sendEmptySegment
  rcases (c.replyToData seg).replyToKeepAlive_cases seg with ⟨-, heq⟩ | ⟨-, heq⟩ <;> rw [heq]
  · exact hdata.sendEmptySegment
  · exact hdata

theorem Roomy.segment (h : Roomy e o) (hcoupled : Coupled e o)
    (hlen : e.accepted.length < 2 ^ 31 - 2) (hlen' : o.accepted.length < 2 ^ 31 - 2)
    (hseg : seg ∈ o.sent) (hok : Flow.Timely o.accepted e.conn.receiver seg) :
    Roomy (e.act (.segment seg)) o := by
  obtain ⟨hframe, -, htimely⟩ := noteReset_frame e.conn seg
  have hstart : Midway e o e.conn e.accepted e.acked e.delivered :=
    ⟨rfl, hcoupled.1, hcoupled.2⟩
  have hreset : Room (e.conn.noteReset seg).sender e.acked o.conn.receiver o.sent := by
    rcases e.conn.noteReset_cases seg with ⟨-, heq⟩ | ⟨-, heq⟩ <;> rw [heq]
    · exact h.errorStream
    · exact h
  have hreceived := (hstart.noteReset seg).receive hlen' hseg ((htimely _).mpr hok)
  have hacked := hreceived.takeAck hlen hseg (droppedBy e.conn (.segment seg)) (by
    simp only [droppedBy, hframe])
  have htaken := hreceived.room_takeAck hreset hlen hseg (droppedBy e.conn (.segment seg)) (by
    simp only [droppedBy, hframe])
  have hroom := hacked.room_replies htaken seg
  have hsender : (e.conn.processSegment seg).sender =
      (((({ e.conn.noteReset seg with
        receiver := (e.conn.noteReset seg).receiver.segmentReceived seg } :
          TCPConnection).takeAck seg).replyToData seg).replyToKeepAlive seg).sender := by
    rw [processSegment]
    simp only [noteInboundEnd_sender]
  rw [← hsender] at hroom
  exact hroom.sender_frame rfl rfl rfl rfl rfl rfl rfl

/-- The calls that fill the window and send. -/
theorem Roomy.sendWith (h : Room c.sender e.acked o.conn.receiver o.sent)
    (hflow : Flow c.sender accepted e.acked e.sent o.conn.receiver o.delivered o.sent)
    (hstep : connStep e.conn op = { c with sender := c.sender.fillWindow }.sendSegments)
    (hdropped : droppedBy e.conn op = []) : Roomy (e.act op) o := by
  have hroom := h.fillWindow hflow
  rw [Roomy, act, hstep, hdropped, List.append_nil]
  exact hroom.sender_frame rfl rfl rfl rfl rfl rfl rfl

/-- The calls that do nothing to the sender. -/
theorem Roomy.idle (h : Roomy e o) (hstep : (connStep e.conn op).sender = e.conn.sender)
    (hdropped : droppedBy e.conn op = []) : Roomy (e.act op) o := by
  rw [Roomy, act, hstep, hdropped, List.append_nil]
  exact h

theorem Roomy.write (h : Roomy e o) (hflow : Linked e o) (data : List UInt8) :
    Roomy (e.act (.write data)) o := by
  by_cases hdata : data.length = 0
  · have hstep : connStep e.conn (.write data) = e.conn := congrArg Prod.fst (if_pos hdata)
    exact h.idle (by rw [hstep]) rfl
  · exact Roomy.sendWith (c := { e.conn with sender := e.conn.sender.writeStream data })
      (Room.write h data) (hflow.write data) (congrArg Prod.fst (if_neg hdata)) rfl

theorem Roomy.endInput (h : Roomy e o) (hflow : Linked e o) : Roomy (e.act .endInput) o :=
  Roomy.sendWith (c := { e.conn with sender := e.conn.sender.endStream })
    (Room.endStream h) hflow.endStream rfl rfl

theorem Roomy.connect (h : Roomy e o) (hflow : Linked e o) : Roomy (e.act .connect) o := by
  rcases e.conn.connect_cases with hidle | hsend
  · have hidle : connStep e.conn .connect = e.conn := hidle
    exact h.idle (by rw [hidle]) rfl
  · exact Roomy.sendWith (c := e.conn) h hflow hsend rfl

theorem Roomy.tick (h : Roomy e o) (ms : ℕ) : Roomy (e.act (.tick ms)) o := by
  have hpassed : Room (e.conn.passTime ms).sender e.acked o.conn.receiver o.sent := Room.tick h ms
  rw [Roomy, act]
  show Room (e.conn.tick ms).sender (e.acked ++ []) o.conn.receiver o.sent
  rw [List.append_nil]
  rcases e.conn.tick_cases ms with ⟨-, hstep⟩ | ⟨-, active, -, hstep⟩
  · obtain ⟨front, rest, -, hreset⟩ := (e.conn.passTime ms).sendReset_abort
    rw [hstep, hreset]
    exact hpassed.errorStream.sender_frame rfl rfl rfl rfl rfl rfl rfl
  · rw [hstep]
    exact hpassed.sender_frame rfl rfl rfl rfl rfl rfl rfl

/-! ### What is on the wire -/

theorem droppedBy_subset (c : TCPConnection) (op : ConnOp) :
    droppedBy c op ⊆ c.sender.outstandingSegments := by
  cases op with
  | segment seg =>
    rw [droppedBy]
    split
    · exact List.take_subset _ _
    · exact List.nil_subset _
  | _ => exact List.nil_subset _

theorem stamp_rst (r : TCPReceiver) (seg : TCPSegment) :
    (stamp r seg).header.rst = seg.header.rst := by
  rw [stamp]
  split <;> rfl

theorem Archived.act (h : Archived e) (hflow' : Linked (e.act op) o) : Archived (e.act op) := by
  -- what was on the wire stays there
  have hold : ∀ seg ∈ e.acked ++ e.conn.sender.outstandingSegments,
      ∃ s ∈ (e.act op).sent, SameData s seg ∧ s.header.rst = false := by
    intro seg hseg
    obtain ⟨s, hs, hdata⟩ := h seg hseg
    exact ⟨s, List.mem_append_left _ hs, hdata⟩
  intro seg hseg
  obtain ⟨pre, post, -, hplaced⟩ := hflow'.send.sent.of_mem hseg
  rcases List.mem_append.mp hseg with hacked | hout
  · rcases List.mem_append.mp hacked with hbefore | hdropped
    · exact hold seg (List.mem_append_left _ hbefore)
    · exact hold seg (List.mem_append_right _ (droppedBy_subset _ _ hdropped))
  · rcases sent_of_outstanding e.conn op seg hout with hbefore | hsent
    · exact hold seg (List.mem_append_right _ hbefore)
    · refine ⟨_, List.mem_append_right _ hsent, stamp_sameData _ _, ?_⟩
      rw [stamp_rst, hplaced.header]

end Endpoint

/-! ### The answer to a SYN -/

namespace TCPSender

variable {accepted : List UInt8} {acked : List TCPSegment} {st st' : TCPSender}

/-- `fill_window` sends at least the SYN. -/
theorem SenderInv.fillWindow_sends_syn (h : SenderInv accepted acked st) :
    st.fillWindow.isSynSet = true := by
  by_cases hsyn : st.isSynSet = true
  · exact h.fillWindow_synSet hsyn
  · have hzero : st.nextSeqno = 0 := by
      by_contra hne
      exact hsyn (h.synSet_iff.mpr hne)
    have hmay : st.mayFill = true := by simp [mayFill, hsyn]
    have hlen : st.nextSegment.1.lengthInSequenceSpace ≠ 0 := by
      rw [nextSegment_length, if_pos hzero]
      omega
    rw [fillWindow_eq, if_pos hmay, if_neg hlen]
    apply (h.pushSegment hmay hlen).fillWindow_synSet
    show (st.isSynSet || (st.nextSeqno == 0)) = true
    simp [hzero]

/-- A SYN that has been sent stays sent. -/
theorem Operated.synSet (hops : Operated st st') (h : TCPConnection.SenderOk st)
    (hsyn : st.isSynSet = true) : st'.isSynSet = true := by
  refine (hops.keeps (I := fun st => TCPConnection.SenderOk st ∧ st.isSynSet = true) ?_
    ⟨h, hsyn⟩).2
  intro st op hst
  obtain ⟨hok, hsyn⟩ := hst
  refine ⟨hok.operation op, ?_⟩
  cases op with
  | fillWindow =>
    obtain ⟨accepted, acked, hinv⟩ := hok
    exact hinv.fillWindow_sends_syn
  | ackReceived ackno window =>
    obtain ⟨popped, ha⟩ := ackReceived_acked st ackno window
    exact ha.synSet.trans hsyn
  | tick ms => exact (tick_ticked st ms).synSet.trans hsyn
  | _ => exact hsyn

end TCPSender

namespace TCPConnection

open TCPSender

variable {c : TCPConnection} {op : ConnOp} {seg : TCPSegment}

theorem synSet_connStep (h : SenderOk c.sender) (hsyn : c.sender.isSynSet = true) :
    (connStep c op).sender.isSynSet = true := by
  obtain ⟨mid, hmid⟩ := handover c op
  obtain ⟨rest, -, heq⟩ := hmid.left
  rw [heq]
  exact hmid.operated.synSet h hsyn

/-- A SYN is answered with the own one. -/
theorem synSet_of_syn (h : SenderOk c.sender) (hseg : seg.header.syn = true) :
    (connStep c (.segment seg)).sender.isSynSet = true := by
  have hlen : seg.lengthInSequenceSpace ≠ 0 := by
    simp [TCPSegment.lengthInSequenceSpace, hseg]
  have hreply : ∀ c : TCPConnection, SenderOk c.sender →
      (c.replyToData seg).sender.isSynSet = true := by
    intro c hc
    obtain ⟨accepted, acked, hinv⟩ := hc
    rw [replyToData, if_pos hlen, hseg, Bool.true_and]
    cases hset : c.sender.isSynSent with
    | false => exact hinv.fillWindow_sends_syn
    | true => exact hset
  have hkeep : ∀ c : TCPConnection, c.sender.isSynSet = true →
      (c.replyToKeepAlive seg).sender.isSynSet = true := by
    intro c hc
    rcases c.replyToKeepAlive_cases seg with ⟨-, heq⟩ | ⟨-, heq⟩ <;> rw [heq] <;> exact hc
  show (c.processSegment seg).sender.isSynSet = true
  rw [processSegment]
  simp only [noteInboundEnd_sender]
  refine hkeep _ (hreply _ (h.operated ?_))
  apply operated_takeAck
  exact operated_noteReset c seg

/-- **A connection that has heard a SYN has sent its own.** -/
def Answered (c : TCPConnection) : Prop :=
  c.receiver.ifSynSet = true → c.sender.isSynSet = true

theorem Answered.step (h : Answered c) (hok : SenderOk c.sender) (op : ConnOp) :
    Answered (connStep c op) := by
  intro hset
  rcases connStep_receiver c op with heq | heq | ⟨len, -, heq⟩ | ⟨seg, rfl, heq⟩ <;>
    rw [heq] at hset
  · exact synSet_connStep hok (h hset)
  · exact synSet_connStep hok (h hset)
  · exact synSet_connStep hok (h hset)
  · rw [TCPReceiver.segmentReceived_ifSynSet, Bool.or_eq_true] at hset
    rcases hset with hbefore | hsyn
    · refine synSet_connStep hok (h ?_)
      rcases c.noteReset_cases seg with ⟨-, hr⟩ | ⟨-, hr⟩ <;> rw [hr] at hbefore <;>
        exact hbefore
    · exact synSet_of_syn hok hsyn

end TCPConnection

/-! ### The pair -/

namespace Pair

open TCPConnection Endpoint

/-- Everything that is known of two connections at every time. -/
structure Ready (p : Pair) : Prop where
  coupled : PairInv p
  bounded : Bounded p
  roomy : ∀ s : Side, Roomy (p s) (p s.other)
  archived : ∀ s, Archived (p s)
  answered : ∀ s, Answered (p s).conn

variable {p : Pair} {s : Side}

theorem Ready.senderOk (h : Ready p) (s : Side) : SenderOk (p s).conn.sender :=
  ⟨_, _, (h.coupled s).1.send⟩

/-- One side acts, and both directions are in order afterwards. -/
theorem Ready.actAt (h : Ready p) {op : ConnOp} (hpair : PairInv (p.actAt s op))
    (hbounded : Bounded (p.actAt s op)) (hsending : Roomy ((p s).act op) (p s.other))
    (hop : ∀ seg, op = .segment seg → seg ∈ (p s.other).sent) : Ready (p.actAt s op) := by
  have hself := hpair s
  rw [actAt_self, actAt_other] at hself
  have hother := h.roomy s.other
  rw [Side.other_other] at hother
  refine ⟨hpair, hbounded, fun s' => ?_, fun s' => ?_, fun s' => ?_⟩
  · rcases eq_or_eq_other s s' with rfl | rfl
    · rw [actAt_self, actAt_other]
      exact hsending
    · rw [actAt_other, Side.other_other, actAt_self]
      exact hother.receiving (h.coupled s).2 hself.2 (h.bounded s.other) hop
  · rcases eq_or_eq_other s s' with rfl | rfl
    · rw [actAt_self]
      exact (h.archived s').act hself.1
    · rw [actAt_other]
      exact h.archived s.other
  · rcases eq_or_eq_other s s' with rfl | rfl
    · rw [actAt_self]
      exact (h.answered s').step (h.senderOk s') op
    · rw [actAt_other]
      exact h.answered s.other

/-- **Step.** -/
theorem Ready.step (h : Ready p) {op : PairOp} (hbounded : Bounded (pairStep p op))
    (hok : DeliverOk p op) : Ready (pairStep p op) := by
  have hpair := h.coupled.step h.bounded hok
  cases op with
  | call s op =>
    have hroomy : Roomy ((p s).act op.toConn) (p s.other) := by
      have hflow := (h.coupled s).1
      cases op with
      | write data => exact (h.roomy s).write hflow data
      | endInput => exact (h.roomy s).endInput hflow
      | connect => exact (h.roomy s).connect hflow
      | tick ms => exact (h.roomy s).tick ms
      | read len => exact (h.roomy s).idle rfl rfl
    refine h.actAt hpair hbounded hroomy ?_
    intro seg hseg
    cases op <;> cases hseg
  | deliver s i =>
    cases hget : (p s.other).sent[i]? with
    | none =>
      simp only [pairStep, deliver, hget]
      exact h
    | some seg =>
      simp only [pairStep, deliver, hget] at hpair hbounded ⊢
      have hseg := List.mem_of_getElem? hget
      refine h.actAt hpair hbounded ((h.roomy s).segment (h.coupled s) (h.bounded s)
        (h.bounded s.other) hseg (hok seg hget)) ?_
      rintro _ ⟨⟩
      exact hseg

theorem Ready.start (cfg : Side → TCPConfig) (random : Side → WrappingInt32)
    (hcap : ∀ s, 0 < (cfg s).recvCapacity ∧ (cfg s).recvCapacity < 2 ^ 63) :
    Ready (Pair.start cfg random) := by
  have hsmall : ∀ s, (cfg s).recvCapacity < 2 ^ 64 := fun s => (hcap s).2.trans (by norm_num)
  refine ⟨PairInv.start cfg random hsmall, fun s => ?_, fun s => ?_, fun s => ?_, fun s => ?_⟩
  · show 0 < 2 ^ 31 - 2
    norm_num
  · exact
      { roomy := hcap s.other, capacity := rfl
        waiting := StreamReassembler.Waiting.new (hsmall s.other)
        reached := ⟨[], TCPReceiver.RecvInv.new (hsmall s.other) _⟩
        synSent := by intro hset; cases hset
        finEof := by intro hset; cases hset
        fits := Nat.zero_le _
        window := Or.inl (by
          show 0 + 1 ≤ _
          omega)
        granted := by intro seg hseg; cases hseg }
  · intro seg hseg
    cases hseg
  · intro hset
    cases hset

end Pair

end Sponge
