import Sponge.ConnectionCalls

/-!
# No connection delivers a wrong byte

Whatever segments a connection is given, what it puts on the wire is cut from the bytes its
outbound stream accepted (`Transmits`): no acknowledgment, reset or timeout, genuine or not, makes
it send anything else.  The other end follows that stream (`RecvInv`) as long as the segments it
takes come from there.  The two halves meet in `Pair`: in every run, over every channel, each side
has delivered a prefix of what the other side's application wrote.  Here a premature end of
stream does no harm, since it only stops the delivery.
-/

namespace Sponge

open MachineInt Run

/-! ### What a sender puts on the wire -/

namespace TCPSender

/-- The segments in `out` and in the queue are empty, or they carry slices of `accepted` that are
numbered from `isn`. -/
structure Transmits (isn : WrappingInt32) (accepted : List UInt8) (out : List TCPSegment)
    (st : TCPSender) : Prop where
  isn : st.isn = isn
  segments : ∃ acked, SenderInv accepted acked st ∧
    ∀ seg ∈ out ++ st.segmentsOut, Carried (acked ++ st.outstandingSegments) seg

variable {isn : WrappingInt32} {accepted : List UInt8} {out : List TCPSegment} {st : TCPSender}

theorem Transmits.new (capacity : ℕ) (retxTimeout : UInt16) (fixedIsn : Option WrappingInt32)
    (random : WrappingInt32) :
    Transmits (fixedIsn.getD random) [] [] (new capacity retxTimeout fixedIsn random) := by
  refine ⟨rfl, [], new_inv .., ?_⟩
  intro seg hseg
  cases hseg

theorem Transmits.write (h : Transmits isn accepted out st) (data : List UInt8) :
    Transmits isn (accepted ++ st.stream.accepted data) out (st.writeStream data) := by
  obtain ⟨hisn, acked, hinv, hout⟩ := h
  exact ⟨hisn, acked, hinv.write data, hout⟩

/-- An operation that only appends to the queue, and drops nothing that was created. -/
theorem Transmits.append (h : Transmits isn accepted out st) {st' : TCPSender}
    (new : List TCPSegment) (hisn : st'.isn = st.isn)
    (hqueue : st'.segmentsOut = st.segmentsOut ++ new)
    (hinv : ∀ acked, SenderInv accepted acked st → SenderInv accepted acked st')
    (hsub : st.outstandingSegments ⊆ st'.outstandingSegments)
    (hnew : ∀ seg ∈ new, Carried st'.outstandingSegments seg) :
    Transmits isn accepted out st' := by
  obtain ⟨hisn₀, acked, hinv₀, hout⟩ := h
  refine ⟨hisn.trans hisn₀, acked, hinv acked hinv₀, ?_⟩
  intro seg hseg
  rw [hqueue, ← List.append_assoc] at hseg
  rcases List.mem_append.mp hseg with hold | hseg
  · refine (hout seg hold).mono (List.append_subset.mpr ⟨List.subset_append_left _ _, ?_⟩)
    exact fun _ hx => List.mem_append_right _ (hsub hx)
  · exact (hnew seg hseg).mono (List.subset_append_right _ _)

theorem Transmits.fillWindow (h : Transmits isn accepted out st) :
    Transmits isn accepted out st.fillWindow := by
  obtain ⟨new, hf⟩ := fillWindow_filled st
  refine h.append new hf.isn hf.segmentsOut (fun _ hinv => hinv.fillWindow) ?_ ?_
  · rw [hf.outstanding]
    exact List.subset_append_left _ _
  · intro seg hseg
    refine Or.inr ⟨seg, ?_, SameData.refl seg⟩
    rw [hf.outstanding]
    exact List.mem_append_right _ hseg

theorem Transmits.tick (h : Transmits isn accepted out st) (ms : ℕ) :
    Transmits isn accepted out (st.tick ms) := by
  have ht := tick_ticked st ms
  have hsub : st.outstandingSegments ⊆ (st.tick ms).outstandingSegments := by
    rw [ht.outstanding]
    exact List.Subset.refl _
  rcases ht.segmentsOut with hsame | ⟨oldest, hmem, hout⟩
  · refine h.append [] ht.isn ?_ (fun _ hinv => hinv.tick ms) hsub ?_
    · rw [hsame, List.append_nil]
    · intro seg hseg
      cases hseg
  · refine h.append [oldest] ht.isn hout (fun _ hinv => hinv.tick ms) hsub ?_
    intro seg hseg
    rw [List.mem_singleton] at hseg
    exact Or.inr ⟨oldest, hsub hmem, hseg ▸ SameData.refl _⟩

theorem Transmits.sendEmptySegment (h : Transmits isn accepted out st) :
    Transmits isn accepted out st.sendEmptySegment := by
  refine h.append _ rfl rfl (fun _ hinv => hinv.sendEmptySegment) (List.Subset.refl _) ?_
  intro seg hseg
  rw [List.mem_singleton] at hseg
  rw [hseg]
  exact Or.inl rfl

/-- Any acknowledgment, also one that nobody sent. -/
theorem Transmits.ackReceived (h : Transmits isn accepted out st) (ackno : WrappingInt32)
    (window : UInt16) : Transmits isn accepted out (st.ackReceived ackno window) := by
  obtain ⟨hisn, acked, hinv, hout⟩ := h
  obtain ⟨popped, ha⟩ := ackReceived_acked st ackno window
  refine ⟨ha.isn.trans hisn, acked ++ popped, hinv.ack ha (unwrap_lt ..), ?_⟩
  rw [ha.segmentsOut, List.append_assoc, ← ha.outstanding]
  exact hout

/-- The operations that a connection applies to its sender, except for writing. -/
theorem Transmits.operation (h : Transmits isn accepted out st) (op : SenderOp)
    (hop : ∀ data, op ≠ .write data) : Transmits isn accepted out (senderStep st op) := by
  cases op with
  | write data => exact absurd rfl (hop data)
  | endInput =>
    obtain ⟨hisn, acked, hinv, hout⟩ := h
    exact ⟨hisn, acked, hinv.endStream, hout⟩
  | setError =>
    obtain ⟨hisn, acked, hinv, hout⟩ := h
    exact ⟨hisn, acked, hinv.errorStream, hout⟩
  | fillWindow => exact h.fillWindow
  | ackReceived ackno window => exact h.ackReceived ackno window
  | tick ms => exact h.tick ms
  | sendEmptySegment => exact h.sendEmptySegment
  | popSegment =>
    obtain ⟨hisn, acked, hinv, hout⟩ := h
    refine ⟨hisn, acked, hinv.popSegment, ?_⟩
    intro seg hseg
    refine hout seg (List.mem_append.mpr ((List.mem_append.mp hseg).imp_right ?_))
    exact fun hq => List.mem_of_mem_drop hq

/-- Less has been put on the wire. -/
theorem Transmits.of_subset (h : Transmits isn accepted out st) {out' : List TCPSegment}
    (hsub : out' ⊆ out) : Transmits isn accepted out' st := by
  obtain ⟨hisn, acked, hinv, hout⟩ := h
  refine ⟨hisn, acked, hinv, fun seg hseg => hout seg ?_⟩
  exact List.mem_append.mpr ((List.mem_append.mp hseg).imp_left fun hs => hsub hs)

/-- Segments leave the queue; on the way only their acknowledgment fields, ports and the RST flag
may change. -/
theorem Transmits.flush (h : Transmits isn accepted out st) {moved rest : List TCPSegment}
    (hrest : rest ⊆ st.segmentsOut)
    (hmoved : ∀ seg ∈ moved, ∃ s ∈ st.segmentsOut, SameData seg s) :
    Transmits isn accepted (out ++ moved) { st with segmentsOut := rest } := by
  obtain ⟨hisn, acked, hinv, hout⟩ := h
  refine ⟨hisn, acked, { hinv with }, ?_⟩
  intro seg hseg
  rcases List.mem_append.mp hseg with hseg | hr
  · rcases List.mem_append.mp hseg with hold | hmv
    · exact hout seg (List.mem_append_left _ hold)
    · obtain ⟨s, hs, hdata⟩ := hmoved seg hmv
      exact (hout s (List.mem_append_right _ hs)).of_sameData hdata
  · exact hout seg (List.mem_append_right _ (hrest hr))

end TCPSender

/-! ### What a connection puts on the wire -/

namespace TCPConnection

open TCPSender Endpoint

/-- The operations that a segment causes. -/
def Reacts : SenderOp → Prop
  | .setError | .fillWindow | .ackReceived _ _ | .sendEmptySegment => True
  | _ => False

/-- **What these operations keep, a segment keeps**, whatever it contains. -/
theorem processSegment_keeps {I : TCPSender → Prop}
    (hstep : ∀ st op, Reacts op → I st → I (senderStep st op))
    (c : TCPConnection) (seg : TCPSegment) (h : I c.sender) : I (c.processSegment seg).sender := by
  have herror : ∀ st, I st → I st.errorStream := fun st => hstep st .setError trivial
  have hfill : ∀ st, I st → I st.fillWindow := fun st => hstep st .fillWindow trivial
  have hempty : ∀ st, I st → I st.sendEmptySegment := fun st => hstep st .sendEmptySegment trivial
  have hreset : I (c.noteReset seg).sender := by
    rcases c.noteReset_cases seg with ⟨-, heq⟩ | ⟨-, heq⟩ <;> rw [heq]
    · exact herror _ h
    · exact h
  have hack : ∀ c : TCPConnection, I c.sender → I (c.takeAck seg).sender := by
    intro c h
    have hst := hstep c.sender (.ackReceived seg.header.ackno seg.header.win) trivial h
    rcases c.takeAck_cases seg with ⟨-, heq⟩ | ⟨-, _, rfl, ⟨-, heq⟩ | ⟨-, heq⟩⟩ <;> rw [heq]
    · exact h
    · exact hfill _ hst
    · exact hst
  have hdata : ∀ c : TCPConnection, I c.sender → I (c.replyToData seg).sender := by
    intro c h
    rcases c.replyToData_cases seg with ⟨-, heq⟩ | ⟨-, ⟨-, heq⟩ | heq⟩ <;> rw [heq]
    · exact h
    · exact hfill _ h
    · exact hempty _ h
  have halive : ∀ c : TCPConnection, I c.sender → I (c.replyToKeepAlive seg).sender := by
    intro c h
    rcases c.replyToKeepAlive_cases seg with ⟨-, heq⟩ | ⟨-, heq⟩ <;> rw [heq]
    · exact hempty _ h
    · exact h
  rw [processSegment]
  simp only [noteInboundEnd_sender]
  exact halive _ (hdata _ (hack _ hreset))

variable {isn : WrappingInt32} {accepted delivered : List UInt8} {out : List TCPSegment}
  {c : TCPConnection}

/-- The calls that end with `send_segments`. -/
theorem transmits_of_sendSegments (c' : TCPConnection) {op : ConnOp}
    (hstep : connStep c op = c'.sendSegments) (hout : c'.segmentsOut = c.segmentsOut)
    (h : Transmits isn accepted out c'.sender) :
    Transmits isn accepted (out ++ enqueued c op) (connStep c op).sender := by
  have henq : enqueued c op = c'.sender.segmentsOut.map (stamp c'.receiver) := by
    rw [enqueued, hstep, sendSegments, hout, List.drop_left]
  rw [henq, hstep]
  refine h.flush (List.nil_subset _) ?_
  intro seg hseg
  obtain ⟨s, hs, rfl⟩ := List.mem_map.mp hseg
  exact ⟨s, hs, stamp_sameData _ _⟩

/-- The calls that leave the sender and the queue alone. -/
theorem transmits_of_idle {op : ConnOp} (hsender : (connStep c op).sender = c.sender)
    (hout : enqueued c op = []) (h : Transmits isn accepted out c.sender) :
    Transmits isn accepted (out ++ enqueued c op) (connStep c op).sender := by
  rw [hout, List.append_nil, hsender]
  exact h

theorem transmits_tick (h : Transmits isn accepted out c.sender) (ms : ℕ) :
    Transmits isn accepted (out ++ enqueued c (.tick ms)) (connStep c (.tick ms)).sender := by
  rcases c.tick_cases ms with ⟨-, hstep⟩ | ⟨-, active, -, hstep⟩
  · -- the unclean shutdown: the front of the queue leaves as the RST segment
    have hmid : Transmits isn accepted out (c.passTime ms).abort.sender :=
      ((h.tick ms).operation .setError (by simp)).sendEmptySegment
    obtain ⟨front, rest, hq, hreset⟩ := (c.passTime ms).sendReset_abort
    have hstep : connStep c (.tick ms) = _ := hstep.trans hreset
    have hold : (c.passTime ms).segmentsOut = c.segmentsOut := rfl
    have henq : enqueued c (.tick ms) = [stamp (c.passTime ms).abort.receiver
        { front with header := { front.header with rst := true } }] := by
      rw [enqueued, hstep, hold, List.drop_left]
    rw [henq, hstep]
    refine hmid.flush (by rw [hq]; exact List.subset_cons_self _ _) ?_
    intro seg hseg
    rw [List.mem_singleton] at hseg
    refine ⟨front, by rw [hq]; exact List.mem_cons_self, ?_⟩
    rw [hseg]
    exact (stamp_sameData _ _).trans ⟨rfl, rfl, rfl, rfl⟩
  · exact transmits_of_sendSegments _ hstep rfl (h.tick ms)

/-- **No call makes a connection send anything but its stream.** -/
theorem transmits_step (h : Transmits isn accepted out c.sender) (op : ConnOp) :
    Transmits isn (accepted ++ acceptedBy c op) (out ++ enqueued c op) (connStep c op).sender := by
  cases op with
  | segment seg =>
    simp only [Endpoint.acceptedBy, List.append_nil]
    refine transmits_of_sendSegments (c.processSegment seg) rfl
      (processSegment_frame c seg).2.1 ?_
    exact processSegment_keeps
      (fun st op hop h => h.operation op (by rintro data rfl; exact hop)) c seg h
  | write data =>
    by_cases hdata : data.length = 0
    · have hnone : acceptedBy c (.write data) = [] := by
        have hle := (c.sender.stream.accepted_prefix data).length_le
        exact List.length_eq_zero_iff.mp (Nat.le_zero.mp (hle.trans_eq hdata))
      have hstep : connStep c (.write data) = c := congrArg Prod.fst (if_pos hdata)
      rw [hnone, List.append_nil]
      exact transmits_of_idle (by rw [hstep]) (by rw [enqueued, hstep, List.drop_length]) h
    · exact transmits_of_sendSegments
        { c with sender := (c.sender.writeStream data).fillWindow }
        (congrArg Prod.fst (if_neg hdata)) rfl (h.write data).fillWindow
  | endInput =>
    simp only [Endpoint.acceptedBy, List.append_nil]
    exact transmits_of_sendSegments { c with sender := c.sender.endStream.fillWindow } rfl
      rfl (h.operation .endInput (by simp)).fillWindow
  | connect =>
    simp only [Endpoint.acceptedBy, List.append_nil]
    rcases c.connect_cases with hstep | hstep
    · have hstep : connStep c .connect = c := hstep
      exact transmits_of_idle (by rw [hstep]) (by rw [enqueued, hstep, List.drop_length]) h
    · exact transmits_of_sendSegments _ hstep rfl h.fillWindow
  | tick ms =>
    simp only [Endpoint.acceptedBy, List.append_nil]
    exact transmits_tick h ms
  | read len =>
    simp only [Endpoint.acceptedBy, List.append_nil]
    exact transmits_of_idle rfl List.drop_length h
  | popOut =>
    simp only [Endpoint.acceptedBy, List.append_nil]
    refine transmits_of_idle rfl ?_ h
    show (c.segmentsOut.drop 1).drop _ = []
    rw [List.drop_drop, List.drop_eq_nil_iff]
    omega

/-! ### What a connection delivers -/

theorem recvInv_errorStream {r : TCPReceiver} (h : r.RecvInv isn accepted delivered) :
    r.errorStream.RecvInv isn accepted delivered := by
  have hc := h.content
  refine ⟨⟨?_, hc.next_le, hc.held, hc.written_prefix, hc.written_open⟩, h.isn, h.checkpoint⟩
  exact ⟨hc.wf.out.setError, hc.wf.sameCapacity, hc.wf.count, hc.wf.keys, hc.wf.next⟩

/-- A segment that carries a part of the stream, or nothing. -/
theorem recvInv_receive {r : TCPReceiver} (h : r.RecvInv isn accepted delivered)
    (hlen : accepted.length < 2 ^ 31 - 2) {created : List TCPSegment}
    (hsent : Sent isn accepted created) {seg : TCPSegment} (hseg : Carried created seg) :
    (r.segmentReceived seg).RecvInv isn accepted
      (delivered ++ ByteStream.appended r.streamOut (r.segmentReceived seg).streamOut) := by
  by_cases hpush : r.Pushes seg
  · obtain ⟨c, hc, hdata⟩ := hseg.resolve_left hpush.1
    obtain ⟨pre, post, hsplit⟩ := List.append_of_mem hc
    rw [hsplit] at hsent
    exact h.push (hsent.slice.of_sameData hdata) hlen hpush
  · exact h.skip hpush

/-- **Every call keeps the delivered bytes on the stream**, if a segment it takes comes from
there. -/
theorem recvInv_step (h : c.receiver.RecvInv isn accepted delivered)
    (hlen : accepted.length < 2 ^ 31 - 2) {created : List TCPSegment}
    (hsent : Sent isn accepted created) {op : ConnOp}
    (hop : ∀ seg, op = .segment seg → Carried created seg) :
    (connStep c op).receiver.RecvInv isn accepted
      (delivered ++ ByteStream.appended c.inboundStream (connStep c op).inboundStream) := by
  have hsame : ∀ s : ByteStream, s.buffer.length ≤ c.receiver.streamOut.buffer.length →
      delivered ++ ByteStream.appended c.receiver.streamOut s = delivered := by
    intro s hs
    rw [ByteStream.appended, List.drop_eq_nil_of_le hs, List.append_nil]
  rw [inboundStream, inboundStream]
  rcases connStep_receiver c op with heq | heq | ⟨len, rfl, heq⟩ | ⟨seg, rfl, heq⟩ <;> rw [heq]
  · rw [hsame _ le_rfl]
    exact h
  · rw [hsame c.receiver.errorStream.streamOut le_rfl]
    exact recvInv_errorStream h
  · rw [hsame (c.receiver.readOut len).streamOut (c.receiver.streamOut.popOutput_length_le len)]
    exact h.readOut len
  · have hreset : (c.noteReset seg).receiver.RecvInv isn accepted delivered := by
      rcases c.noteReset_cases seg with ⟨-, hr⟩ | ⟨-, hr⟩ <;> rw [hr]
      · exact recvInv_errorStream h
      · exact h
    have hrecv := recvInv_receive hreset hlen hsent (hop seg rfl)
    rw [ByteStream.appended, (Endpoint.noteReset_frame c seg).2.1] at hrecv
    exact hrecv

end TCPConnection

/-! ### The queue and the two streams of a connection -/

/-- A push only adds to the output. -/
theorem StreamReassembler.output_pushSubstring (r : StreamReassembler) (data : List UInt8)
    (index : ℕ) (eof : Bool) :
    r.output.buffer <+: (r.pushSubstring data index eof).output.buffer := by
  show r.output.buffer <+: (if (eof || r.ifEof) && (r.assembly data index).unassembledBytes == 0
    then (r.output.write (r.assembly data index).assembled).1.endInput
    else (r.output.write (r.assembly data index).assembled).1).buffer
  split
  · show _ <+: (r.output.write _).1.buffer
    rw [ByteStream.write_buffer]
    exact List.prefix_append ..
  · rw [ByteStream.write_buffer]
    exact List.prefix_append ..

theorem TCPReceiver.streamOut_segmentReceived (r : TCPReceiver) (seg : TCPSegment) :
    r.streamOut.buffer <+: (r.segmentReceived seg).streamOut.buffer := by
  rw [segmentReceived, streamOut, streamOut, ← r.noteFlags_reassembler seg]
  split
  · exact List.prefix_rfl
  · exact StreamReassembler.output_pushSubstring ..

/-- Nothing more comes into the stream: its input has ended, or it has an error. -/
def ByteStream.Stopped (s : ByteStream) : Prop := s.inputEnded = true ∨ s.error = true

theorem StreamReassembler.stopped_pushSubstring {r : StreamReassembler} (h : r.output.Stopped)
    (data : List UInt8) (index : ℕ) (eof : Bool) :
    (r.pushSubstring data index eof).output.Stopped := by
  have hwrite : (r.output.write (r.assembly data index).assembled).1.Stopped := by
    rw [ByteStream.Stopped, ByteStream.write_inputEnded, ByteStream.write_error]
    exact h
  show (if (eof || r.ifEof) && (r.assembly data index).unassembledBytes == 0
    then (r.output.write (r.assembly data index).assembled).1.endInput
    else (r.output.write (r.assembly data index).assembled).1).Stopped
  split
  · exact Or.inl rfl
  · exact hwrite

theorem TCPReceiver.stopped_segmentReceived {r : TCPReceiver} (h : r.streamOut.Stopped)
    (seg : TCPSegment) : (r.segmentReceived seg).streamOut.Stopped := by
  rw [streamOut, ← r.noteFlags_reassembler seg] at h
  rw [segmentReceived, streamOut]
  split
  · exact h
  · exact StreamReassembler.stopped_pushSubstring h ..

namespace TCPSender

/-- The outbound stream: it fits its capacity, and whether it has been ended. -/
def Outbound (ended : Bool) (st : TCPSender) : Prop :=
  st.stream.WF ∧ st.stream.inputEnded = ended

variable {ended : Bool} {st : TCPSender}

theorem Outbound.fillWindow (h : st.Outbound ended) : st.fillWindow.Outbound ended := by
  revert h
  refine fillWindow_induct (P := fun st st' => st.Outbound ended → st'.Outbound ended) ?_ ?_ ?_ st
  · intro st _ h
    exact h
  · intro st _ _ h
    exact ⟨h.1.popOutput _, h.2⟩
  · intro st _ _ ih h
    exact ih ⟨h.1.popOutput _, h.2⟩

/-- Only `end_input` ends the stream. -/
theorem Outbound.operation (h : st.Outbound ended) (op : SenderOp) (hop : op ≠ .endInput) :
    (senderStep st op).Outbound ended := by
  cases op with
  | write data => exact ⟨h.1.write data, (ByteStream.write_inputEnded ..).trans h.2⟩
  | endInput => exact absurd rfl hop
  | setError => exact ⟨⟨h.1.fits, h.1.size⟩, h.2⟩
  | fillWindow => exact h.fillWindow
  | ackReceived ackno window =>
    obtain ⟨popped, ha⟩ := ackReceived_acked st ackno window
    rw [senderStep, Outbound, ha.stream]
    exact h
  | tick ms =>
    rw [senderStep, Outbound, (tick_ticked st ms).stream]
    exact h
  | sendEmptySegment => exact h
  | popSegment => exact h

end TCPSender

namespace TCPConnection

open TCPSender

variable {c : TCPConnection}

theorem segmentsOut_sendReset (c : TCPConnection) : c.segmentsOut <+: c.sendReset.segmentsOut := by
  unfold sendReset
  split
  · exact List.prefix_rfl
  · exact List.prefix_append ..

/-- Only the owner takes segments off the queue. -/
theorem segmentsOut_connStep (c : TCPConnection) {op : ConnOp} (hop : op ≠ .popOut) :
    (connStep c op).segmentsOut = c.segmentsOut ++ enqueued c op := by
  have hprefix : c.segmentsOut <+: (connStep c op).segmentsOut := by
    cases op with
    | segment seg =>
      have hframe := (processSegment_frame c seg).2.1
      show c.segmentsOut <+: (c.processSegment seg).segmentsOut ++ _
      rw [hframe]
      exact List.prefix_append ..
    | write data =>
      show c.segmentsOut <+: (c.write data).1.segmentsOut
      rcases c.write_cases data with hstep | hstep <;> rw [hstep]
      exact List.prefix_append ..
    | endInput => exact List.prefix_append ..
    | connect =>
      show c.segmentsOut <+: c.connect.segmentsOut
      rcases c.connect_cases with hstep | hstep <;> rw [hstep]
      exact List.prefix_append ..
    | tick ms =>
      show c.segmentsOut <+: (c.tick ms).segmentsOut
      rcases c.tick_cases ms with ⟨-, hstep⟩ | ⟨-, active, -, hstep⟩ <;> rw [hstep]
      · exact segmentsOut_sendReset (c.passTime ms).abort
      · exact List.prefix_append ..
    | read len => exact List.prefix_rfl
    | popOut => exact absurd rfl hop
  obtain ⟨new, hnew⟩ := hprefix
  rw [enqueued, ← hnew, List.drop_left]

/-- Only the owner takes bytes out of the inbound stream. -/
theorem inboundStream_connStep (c : TCPConnection) {op : ConnOp} (hop : ∀ len, op ≠ .read len) :
    (connStep c op).inboundStream.buffer = c.inboundStream.buffer ++
      ByteStream.appended c.inboundStream (connStep c op).inboundStream := by
  have hprefix : c.inboundStream.buffer <+: (connStep c op).inboundStream.buffer := by
    rw [inboundStream, inboundStream]
    rcases connStep_receiver c op with heq | heq | ⟨len, rfl, -⟩ | ⟨seg, rfl, heq⟩
    · rw [heq]
    · rw [heq]
      exact List.prefix_rfl
    · exact absurd rfl (hop len)
    · rw [heq, ← (Endpoint.noteReset_frame c seg).2.1]
      exact (c.noteReset seg).receiver.streamOut_segmentReceived seg
  obtain ⟨new, hnew⟩ := hprefix
  rw [ByteStream.appended, ← hnew, List.drop_left]

theorem stopped_tick (hactive : c.active = true) {ms : ℕ} (hdown : (c.tick ms).active = false) :
    (c.tick ms).inboundStream.Stopped := by
  unfold tick at hdown ⊢
  simp only at hdown ⊢
  split at hdown
  · rename_i hexceeds
    rw [if_pos hexceeds]
    obtain ⟨front, rest, -, hreset⟩ := (c.passTime ms).sendReset_abort
    rw [hreset]
    exact Or.inr rfl
  rename_i hexceeds
  rw [if_neg hexceeds]
  split at hdown
  · rename_i hclean
    have hended : c.inboundStream.inputEnded = true := by
      simp only [cleanShutdown, Bool.and_eq_true] at hclean
      exact hclean.1.1.1.1.2
    rw [if_pos hclean]
    split
    · exact Or.inl hended
    · exact Or.inl hended
  · exact absurd (hactive.symm.trans hdown) Bool.false_ne_true.symm

theorem stopped_connStep (h : c.inboundStream.Stopped) (op : ConnOp) :
    (connStep c op).inboundStream.Stopped := by
  rw [inboundStream]
  rcases connStep_receiver c op with heq | heq | ⟨len, -, heq⟩ | ⟨seg, -, heq⟩ <;> rw [heq]
  · exact h
  · exact Or.inr rfl
  · exact h
  · apply TCPReceiver.stopped_segmentReceived
    rcases c.noteReset_cases seg with ⟨-, hreset⟩ | ⟨-, hreset⟩ <;> rw [hreset]
    · exact Or.inr rfl
    · exact h

/-- **A connection does not go down with its inbound stream open.**  A reset and giving up mark the
stream, and the clean end waits for the end of the stream. -/
theorem stopped_of_inactive (h : c.active = false → c.inboundStream.Stopped) (op : ConnOp)
    (hdown : (connStep c op).active = false) : (connStep c op).inboundStream.Stopped := by
  cases hactive : c.active with
  | false => exact stopped_connStep (h hactive) op
  | true =>
    -- only a reset and a tick end a connection
    have hsame : ∀ c' : TCPConnection, c'.active = c.active → ¬ c'.active = false := by
      intro c' heq
      rw [heq, hactive]
      exact Bool.false_ne_true.symm
    cases op with
    | segment seg =>
      rw [inboundStream, show (connStep c (.segment seg)).receiver = _ from
        (processSegment_frame c seg).1]
      apply TCPReceiver.stopped_segmentReceived
      rcases c.noteReset_cases seg with ⟨-, hreset⟩ | ⟨-, hreset⟩
      · rw [hreset]
        exact Or.inr rfl
      · refine absurd hdown (hsame (connStep c (.segment seg)) ?_)
        show (c.processSegment seg).active = _
        rw [(processSegment_frame c seg).2.2, hreset]
    | write data =>
      refine absurd hdown (hsame (connStep c (.write data)) ?_)
      show (c.write data).1.active = _
      rcases c.write_cases data with heq | heq <;> rw [heq]
      rfl
    | endInput => exact absurd hdown (hsame (connStep c .endInput) rfl)
    | connect =>
      refine absurd hdown (hsame (connStep c .connect) ?_)
      show c.connect.active = _
      rcases c.connect_cases with heq | heq <;> rw [heq]
      rfl
    | tick ms => exact stopped_tick hactive hdown
    | read len => exact absurd hdown (hsame (connStep c (.read len)) rfl)
    | popOut => exact absurd hdown (hsame (connStep c .popOut) rfl)

/-- Only `end_input_stream` ends the outbound stream. -/
theorem outbound_connStep {ended : Bool} (h : c.sender.Outbound ended) {op : ConnOp}
    (hop : op ≠ .endInput) : (connStep c op).sender.Outbound ended := by
  cases op with
  | segment seg =>
    exact processSegment_keeps (I := TCPSender.Outbound ended)
      (fun st op hop h => h.operation op (by rintro rfl; exact hop)) c seg h
  | write data =>
    show (c.write data).1.sender.Outbound ended
    rcases c.write_cases data with hstep | hstep <;> rw [hstep]
    · exact h
    · exact (h.operation (.write data) nofun).fillWindow
  | endInput => exact absurd rfl hop
  | connect =>
    show c.connect.sender.Outbound ended
    rcases c.connect_cases with hstep | hstep <;> rw [hstep]
    · exact h
    · exact h.fillWindow
  | tick ms =>
    have hpass : (c.passTime ms).sender.Outbound ended := h.operation (.tick ms) nofun
    show (c.tick ms).sender.Outbound ended
    rcases c.tick_cases ms with ⟨-, hstep⟩ | ⟨-, active, -, hstep⟩ <;> rw [hstep]
    · obtain ⟨front, rest, -, hreset⟩ := (c.passTime ms).sendReset_abort
      rw [hreset]
      exact hpass.operation .setError nofun
    · exact hpass
  | read len => exact h
  | popOut => exact h

theorem outbound_endInputStream {ended : Bool} (h : c.sender.Outbound ended) :
    c.endInputStream.sender.Outbound true := by
  have hended : c.sender.endStream.Outbound true := ⟨⟨h.1.fits, h.1.size⟩, rfl⟩
  exact hended.fillWindow

end TCPConnection

/-! ### Any peer -/

open TCPSender in
/-- What a transmission puts on the wire comes from segments that cut the stream. -/
theorem TCPSender.Transmits.carried {isn : WrappingInt32} {accepted : List UInt8}
    {out : List TCPSegment} {st : TCPSender} (h : Transmits isn accepted out st) :
    ∃ created, Sent isn accepted created ∧ ∀ seg ∈ out, Carried created seg := by
  obtain ⟨rfl, acked, hinv, hout⟩ := h
  exact ⟨_, hinv.sent, fun seg hseg => hout seg (List.mem_append_left _ hseg)⟩

namespace Endpoint

open TCPConnection TCPSender

/-- A new connection after the given calls. -/
def ofRun (cfg : TCPConfig) (random : WrappingInt32) (ops : List ConnOp) : Endpoint :=
  run act (start (TCPConnection.new cfg random)) ops

/-- **No peer makes a connection send a wrong byte.**  Whatever calls are made and whatever
segments arrive, forged ones included, every segment with length that the connection has enqueued
carries the bytes its application wrote, at the place its sequence number says.  A FIN comes only
with the end of a stream that the application has ended. -/
theorem sent_slices (cfg : TCPConfig) (random : WrappingInt32) (ops : List ConnOp)
    {seg : TCPSegment} (hseg : seg ∈ (ofRun cfg random ops).sent)
    (hlen : seg.lengthInSequenceSpace ≠ 0) :
    ∃ index, StreamSlice (cfg.fixedIsn.getD random) (ofRun cfg random ops).accepted seg index ∧
      (seg.header.fin = true →
        (ofRun cfg random ops).conn.sender.stream.inputEnded = true ∧
          index + seg.payload.length = (ofRun cfg random ops).accepted.length) := by
  have hrun : Transmits (cfg.fixedIsn.getD random) (ofRun cfg random ops).accepted
      (ofRun cfg random ops).sent (ofRun cfg random ops).conn.sender :=
    run_invariant_of_step
      (I := fun e : Endpoint => Transmits (cfg.fixedIsn.getD random) e.accepted e.sent
        e.conn.sender)
      (fun e op h => transmits_step h op) (Transmits.new ..) ops
  obtain ⟨hisn, acked, hinv, hout⟩ := hrun
  obtain ⟨index, hslice, hclose⟩ :=
    hinv.slice_of_carried (hout seg (List.mem_append_left _ hseg)) hlen
  rw [hisn] at hslice
  refine ⟨index, hslice, ?_⟩
  intro hfin
  obtain ⟨hset, hend⟩ := hclose hfin
  exact ⟨(hinv.ended hset).1, hend⟩

/-- A client that writes two bytes, gets a forged acknowledgment of its SYN and ends its stream
with one more byte. -/
def forgedAckRun : List ConnOp :=
  [.connect, .write [97, 98],
    .segment { header := { ack := true, ackno := ⟨8⟩, win := 2 }, payload := [] },
    .write [99], .endInput,
    .segment { header := { ack := true, ackno := ⟨10⟩, win := 1000 }, payload := [] }]

theorem sent_slices_forged :
    (∃ seg ∈ (ofRun {} ⟨7⟩ forgedAckRun).sent, seg.payload = [99] ∧ seg.header.fin = true ∧
      ∃ index, StreamSlice ⟨7⟩ (ofRun {} ⟨7⟩ forgedAckRun).accepted seg index ∧
        (seg.header.fin = true →
          (ofRun {} ⟨7⟩ forgedAckRun).conn.sender.stream.inputEnded = true ∧
            index + seg.payload.length = (ofRun {} ⟨7⟩ forgedAckRun).accepted.length)) ∧
      (ofRun {} ⟨7⟩ forgedAckRun).accepted = [97, 98, 99] :=
  ⟨⟨{ header := { seqno := ⟨10⟩, fin := true }, payload := [99] }, by decide, rfl, rfl,
    sent_slices {} ⟨7⟩ forgedAckRun (by decide) (by decide)⟩, by decide⟩

end Endpoint

/-! ### Two connections -/

namespace Pair

open TCPConnection TCPSender Endpoint

/-- Both directions: each side transmits its stream, and its peer follows that stream. -/
def Following (isn : Side → WrappingInt32) (p : Pair) : Prop :=
  ∀ s, Transmits (isn s) (p s).accepted (p s).sent (p s).conn.sender ∧
    (p s.other).conn.receiver.RecvInv (isn s) (p s).accepted (p s.other).delivered

variable {isn : Side → WrappingInt32} {p : Pair}

/-- One side acts; a segment that it takes was sent by its peer. -/
theorem Following.actAt (h : Following isn p) (hlen : Bounded p) (s : Side) {op : ConnOp}
    (hop : ∀ seg, op = .segment seg → seg ∈ (p s.other).sent) :
    Following isn (p.actAt s op) := by
  intro s'
  rcases eq_or_eq_other s s' with rfl | rfl
  · -- from the acting side: it sends more, and its peer is left alone
    rw [actAt_self, actAt_other]
    exact ⟨transmits_step (h s').1 op, (h s').2.mono (List.prefix_append ..)⟩
  · -- towards the acting side
    obtain ⟨hsend, hrecv⟩ := h s.other
    obtain ⟨created, hsent, hcarried⟩ := hsend.carried
    rw [Side.other_other] at hrecv
    rw [actAt_other, Side.other_other, actAt_self]
    refine ⟨hsend, recvInv_step hrecv (hlen s.other) hsent ?_⟩
    intro seg hseg
    exact hcarried seg (hop seg hseg)

theorem Following.step (h : Following isn p) (hlen : Bounded p) (op : PairOp) :
    Following isn (pairStep p op) := by
  cases op with
  | call s op =>
    refine h.actAt hlen s ?_
    intro seg hseg
    cases op <;> cases hseg
  | deliver s i =>
    show Following isn (p.deliver s i)
    unfold deliver
    split
    · rename_i seg hget
      refine h.actAt hlen s ?_
      rintro _ ⟨⟩
      exact List.mem_of_getElem? hget
    · exact h

theorem Following.start (cfg : Side → TCPConfig) (random : Side → WrappingInt32)
    (hcap : ∀ s, (cfg s).recvCapacity < 2 ^ 64) :
    Following (fun s => (cfg s).fixedIsn.getD (random s)) (Pair.start cfg random) := fun s =>
  ⟨Transmits.new .., TCPReceiver.RecvInv.new (hcap s.other) _⟩

/-- **Two connections never deliver a wrong byte.**  In every run, whatever the channel loses,
duplicates, delays and reorders, also when streams end early or connections are reset, what one
side has written to its inbound stream is a prefix of what the other side's stream accepted. -/
theorem delivered_prefix_of_accepted (cfg : Side → TCPConfig) (random : Side → WrappingInt32)
    (hcap : ∀ s, (cfg s).recvCapacity < 2 ^ 64) (ops : List PairOp)
    (hlen : Bounded (run pairStep (start cfg random) ops)) (s : Side) :
    (run pairStep (start cfg random) ops s.other).delivered <+:
      (run pairStep (start cfg random) ops s).accepted := by
  have hfollow : Following (fun s => (cfg s).fixedIsn.getD (random s))
      (run pairStep (start cfg random) ops) :=
    run_invariant (fun p op h hb => h.step hb op) (Following.start cfg random hcap) hlen.along
  exact (hfollow s).2.content.written_prefix

/-- The handshake, and three segments of one byte each: the third overtakes the first, and the
second is lost. -/
def overtakingRun : List PairOp :=
  [.call .x .connect, .deliver .y 0, .deliver .x 0, .deliver .y 1, .call .x (.write [97]),
    .call .x (.write [98]), .call .x (.write [99]), .deliver .y 4, .deliver .y 2]

/-- Only the first byte is delivered. -/
theorem delivered_prefix_of_accepted_overtaking :
    let p := run pairStep (start smallConfig fun _ => ⟨0⟩) overtakingRun
    (p .y).delivered <+: (p .x).accepted ∧ (p .y).delivered = [97] ∧
      (p .x).accepted = [97, 98, 99] := by
  have hcap : ∀ s, (smallConfig s).recvCapacity < 2 ^ 64 := by
    rintro (_ | _) <;> decide
  have hlen : Bounded (run pairStep (start smallConfig fun _ => ⟨0⟩) overtakingRun) := by
    rintro (_ | _) <;> decide
  exact ⟨delivered_prefix_of_accepted smallConfig (fun _ => ⟨0⟩) hcap overtakingRun hlen .x,
    by decide, by decide⟩

end Pair

end Sponge
