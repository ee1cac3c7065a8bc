import Sponge.FinAck
import Sponge.PrefixSafety
import Sponge.TcpConnection

/-!
# One direction of a connection

`Flow` is the invariant of one direction between two endpoints: the sender of one side, what its
stream accepted, what it dropped as acknowledged and what it put on the wire; the receiver of the
other side, what it delivered and the segments that carry its acknowledgments.  The lemmas below
say what each operation of the two parts does to it.  The sender never learns of more than the
receiver has acknowledged (`ackLevel`), and the receiver acknowledges what it has assembled, plus
the FIN.

The receiver's end of stream needs a condition: the segment taken must not be `Premature`.
-/

namespace Sponge

open MachineInt Run Slices

/-! ### Segments on the wire -/

/-- The two segments agree in everything but the acknowledgment fields and the RST flag. -/
structure SameData (seg created : TCPSegment) : Prop where
  payload : seg.payload = created.payload
  seqno : seg.header.seqno = created.header.seqno
  syn : seg.header.syn = created.header.syn
  fin : seg.header.fin = created.header.fin

/-- The segment is empty or carries one of the created segments. -/
def Carried (created : List TCPSegment) (seg : TCPSegment) : Prop :=
  seg.lengthInSequenceSpace = 0 ∨ ∃ c ∈ created, SameData seg c

theorem SameData.refl (seg : TCPSegment) : SameData seg seg := ⟨rfl, rfl, rfl, rfl⟩

theorem SameData.trans {a b c : TCPSegment} (hab : SameData a b) (hbc : SameData b c) :
    SameData a c :=
  ⟨hab.payload.trans hbc.payload, hab.seqno.trans hbc.seqno, hab.syn.trans hbc.syn,
    hab.fin.trans hbc.fin⟩

theorem SameData.length {seg c : TCPSegment} (h : SameData seg c) :
    seg.lengthInSequenceSpace = c.lengthInSequenceSpace := by
  unfold TCPSegment.lengthInSequenceSpace
  rw [h.payload, h.syn, h.fin]

theorem Carried.of_sameData {created : List TCPSegment} {seg seg' : TCPSegment}
    (h : Carried created seg) (hsame : SameData seg' seg) : Carried created seg' := by
  rcases h with hzero | ⟨c, hc, hdata⟩
  · exact Or.inl (hsame.length.trans hzero)
  · exact Or.inr ⟨c, hc, hsame.trans hdata⟩

theorem Carried.mono {created created' : List TCPSegment} {seg : TCPSegment}
    (h : Carried created seg) (hsub : created ⊆ created') : Carried created' seg :=
  h.imp_right fun ⟨c, hc, hdata⟩ => ⟨c, hsub hc, hdata⟩

theorem StreamSlice.of_sameData {isn : WrappingInt32} {accepted : List UInt8}
    {seg c : TCPSegment} {index : ℕ} (h : StreamSlice isn accepted c index)
    (hsame : SameData seg c) : StreamSlice isn accepted seg index := by
  refine ⟨?_, ?_, ?_, ?_⟩
  · rw [hsame.seqno, hsame.syn]
    exact h.seqno
  · rw [hsame.syn]
    exact h.syn
  · rw [hsame.payload]
    exact h.payload
  · rw [hsame.payload]
    exact h.fits

open TCPSender in
/-- The slice that a carried segment has; a FIN closes the stream. -/
theorem TCPSender.SenderInv.slice_of_carried {accepted : List UInt8} {acked : List TCPSegment}
    {st : TCPSender} {seg : TCPSegment} (h : SenderInv accepted acked st)
    (hcarried : Carried (acked ++ st.outstandingSegments) seg)
    (hlen : seg.lengthInSequenceSpace ≠ 0) :
    ∃ index, StreamSlice st.isn accepted seg index ∧
      (seg.header.fin = true →
        st.isFinSet = true ∧ index + seg.payload.length = accepted.length) := by
  obtain ⟨c, hc, hsame⟩ := hcarried.resolve_left hlen
  obtain ⟨pre, post, hsplit⟩ := List.append_of_mem hc
  have hsent := h.sent
  rw [hsplit] at hsent
  refine ⟨_, hsent.slice.of_sameData hsame, ?_⟩
  intro hfin
  have hcfin : c.header.fin = true := hsame.fin ▸ hfin
  have hset := h.fin.mpr ⟨c, hc, hcfin⟩
  have hpost := hsent.fin_last hcfin
  have hstream := congrArg List.length h.stream
  rw [hsplit, hpost, (h.ended hset).2] at hstream
  simp only [payloads_append, payloads_cons, payloads_nil, List.append_nil, List.length_append]
    at hstream
  rw [hsame.payload]
  exact ⟨hset, hstream⟩

/-! ### What the receiver acknowledges -/

namespace TCPReceiver

/-- The absolute acknowledgment number. -/
def ackLevel (r : TCPReceiver) : ℕ :=
  if r.ifSynSet then
    r.reassembler.nextIndex + 1 + if r.reassembler.nextIndex + 1 = r.absSeqnoFin then 1 else 0
  else 0

theorem ackno_eq_wrap_ackLevel {r : TCPReceiver} (hnext : r.reassembler.nextIndex < 2 ^ 32)
    {ackno : WrappingInt32} (h : r.ackno = some ackno) :
    r.ifSynSet = true ∧ ackno = wrap r.ackLevel r.isn := by
  unfold TCPReceiver.ackno at h
  cases hset : r.ifSynSet with
  | false => simp [hset] at h
  | true =>
    have hu : u64 (r.reassembler.nextIndex + 1) = r.reassembler.nextIndex + 1 :=
      u64_of_lt (by omega)
    simp only [hset, Bool.not_true, Bool.false_eq_true, if_false, hu, wrap_u64,
      Option.some.injEq] at h
    rw [ackLevel, hset, if_pos rfl, h]
    exact ⟨rfl, rfl⟩

/-- A receiver that moves on by `n` bytes acknowledges at least `n` more: the FIN counts only
behind the last byte. -/
theorem ackLevel_add_le {r r' : TCPReceiver} {n total : ℕ} (hsyn : r'.ifSynSet = true)
    (hnext : r.reassembler.nextIndex + n ≤ r'.reassembler.nextIndex)
    (hle : r'.reassembler.nextIndex ≤ total)
    (hfin : r.absSeqnoFin = 0 ∨ r.absSeqnoFin = total + 1 ∧ r'.absSeqnoFin = r.absSeqnoFin) :
    r.ackLevel + n ≤ r'.ackLevel := by
  unfold ackLevel
  rw [if_pos hsyn]
  split
  · rcases hfin with hzero | ⟨hat, hsame⟩
    · rw [if_neg (by omega)]
      omega
    · rw [hsame]
      split <;> split <;> omega
  · omega

end TCPReceiver

namespace TCPSender

variable {accepted : List UInt8} {acked : List TCPSegment} {st : TCPSender}

/-- A window of one sequence number has no room for a FIN behind a SYN. -/
theorem SenderInv.fillWindow_no_fin (h : SenderInv accepted acked st) (hedge : st.windowEdge = 1)
    (hopen : st.isFinSet = false) : st.fillWindow.isFinSet = false := by
  revert h hedge hopen
  refine fillWindow_induct (P := fun st st' => SenderInv accepted acked st → st.windowEdge = 1 →
    st.isFinSet = false → st'.isFinSet = false) ?_ ?_ ?_ st
  · intro st _ _ _ hopen
    exact hopen
  · intro st _ hlen h _ hopen
    rwa [h.nextSegment_break hlen]
  · intro st hmay hlen ih h hedge hopen
    refine ih (h.pushSegment hmay hlen) hedge ?_
    show (st.isFinSet || st.nextSegment.1.header.fin) = false
    rw [hopen, Bool.false_or]
    by_contra hne
    obtain ⟨-, -, -, hroom⟩ := (nextSegment_fin st).mp (by simpa using hne)
    by_cases h0 : st.nextSeqno = 0
    · rw [hedge, h0, if_pos rfl, sub64_of_le (by decide) (by decide)] at hroom
      omega
    · have hlt : st.nextSeqno < st.windowEdge := by
        simpa [mayFill, h.synSet_iff.mpr h0] using hmay
      omega

theorem SenderInv.payloads_acked (h : SenderInv accepted acked st) :
    payloads acked <+: accepted := by
  rw [← h.stream, payloads_append, List.append_assoc]
  exact List.prefix_append ..

/-- What the stream accepted bounds `next_seqno`. -/
theorem SenderInv.nextSeqno_le (h : SenderInv accepted acked st) :
    st.nextSeqno ≤ accepted.length + 2 := by
  have hlen := congrArg List.length h.stream
  rw [List.length_append, ← h.read] at hlen
  rw [h.next_eq]
  split <;> split <;> omega

end TCPSender

/-! ### The invariant of one direction -/

open TCPSender StreamReassembler in
structure Flow (snd : TCPSender) (accepted : List UInt8) (acked out : List TCPSegment)
    (rcv : TCPReceiver) (delivered : List UInt8) (acks : List TCPSegment) : Prop where
  send : SenderInv accepted acked snd
  carried : ∀ seg ∈ out ++ snd.segmentsOut, Carried (acked ++ snd.outstandingSegments) seg
  /-- The sender itself sets no acknowledgment. -/
  plain : ∀ seg ∈ snd.segmentsOut, seg.header.ack = false
  recv : rcv.RecvInv snd.isn accepted delivered
  /-- An acknowledgment on its way is at most what the receiver acknowledges now. -/
  acks_le : ∀ seg ∈ acks, seg.header.ack = true →
    rcv.ifSynSet = true ∧ ∃ k ≤ rcv.ackLevel, seg.header.ackno = wrap k snd.isn
  recent_le : snd.recentAbsAckno ≤ rcv.ackLevel
  acked_le : seqLen acked ≤ rcv.ackLevel
  /-- Until the SYN arrives the sender has the initial window, which has no room for the FIN. -/
  early : rcv.ifSynSet = false →
    snd.recentAbsAckno = 0 ∧ snd.windowSize = 1 ∧ snd.isFinSet = false
  finSeen : rcv.ifFinSet = true →
    rcv.ifSynSet = true ∧ snd.isFinSet = true ∧ rcv.absSeqnoFin = accepted.length + 1
  finUnseen : rcv.ifFinSet = false → rcv.absSeqnoFin = 0
  eofSeen : rcv.reassembler.ifEof = true → rcv.ifFinSet = true
  whole : EndedWhole accepted delivered rcv.reassembler
  endedNext : rcv.reassembler.output.inputEnded = true →
    rcv.reassembler.nextIndex = accepted.length

namespace Flow

variable {snd snd' : TCPSender} {accepted : List UInt8} {acked out : List TCPSegment}
  {rcv : TCPReceiver} {delivered : List UInt8} {acks : List TCPSegment} {seg : TCPSegment}

theorem ackLevel_le (h : Flow snd accepted acked out rcv delivered acks) :
    rcv.ackLevel ≤ accepted.length + 2 := by
  have hnext := h.recv.content.next_le
  unfold TCPReceiver.ackLevel
  split
  · split <;> omega
  · omega

/-! ### The sender's side -/

/-- An operation of the sender that pops nothing and leaves the window alone. -/
theorem sender_frame (h : Flow snd accepted acked out rcv delivered acks)
    (hsend : TCPSender.SenderInv accepted acked snd') (hisn : snd'.isn = snd.isn)
    (hrecent : snd'.recentAbsAckno = snd.recentAbsAckno)
    (hwindow : snd'.windowSize = snd.windowSize)
    (hfin : snd.isFinSet = true → snd'.isFinSet = true)
    (hearly : rcv.ifSynSet = false → snd'.isFinSet = false)
    (hsub : snd.outstandingSegments ⊆ snd'.outstandingSegments)
    (hput : ∀ s ∈ snd'.segmentsOut, s ∈ snd.segmentsOut ∨
      Carried (acked ++ snd'.outstandingSegments) s ∧ s.header.ack = false) :
    Flow snd' accepted acked out rcv delivered acks := by
  have hsub' : acked ++ snd.outstandingSegments ⊆ acked ++ snd'.outstandingSegments :=
    List.append_subset.mpr ⟨List.subset_append_left _ _,
      fun _ hx => List.mem_append_right _ (hsub hx)⟩
  refine
    { send := hsend, carried := ?_, plain := ?_, recv := hisn ▸ h.recv, acks_le := ?_,
      recent_le := hrecent ▸ h.recent_le, acked_le := h.acked_le, early := ?_, finSeen := ?_,
      finUnseen := h.finUnseen, eofSeen := h.eofSeen, whole := h.whole,
      endedNext := h.endedNext }
  · intro s hs
    rcases List.mem_append.mp hs with hout | hq
    · exact (h.carried s (List.mem_append_left _ hout)).mono hsub'
    · rcases hput s hq with hold | ⟨hnew, -⟩
      · exact (h.carried s (List.mem_append_right _ hold)).mono hsub'
      · exact hnew
  · intro s hs
    exact (hput s hs).elim (h.plain s) And.right
  · rw [hisn]
    exact h.acks_le
  · intro hno
    obtain ⟨hra, hws, -⟩ := h.early hno
    exact ⟨hrecent.trans hra, hwindow.trans hws, hearly hno⟩
  · intro hset
    obtain ⟨hsyn, hf, habs⟩ := h.finSeen hset
    exact ⟨hsyn, hfin hf, habs⟩

theorem fillWindow (h : Flow snd accepted acked out rcv delivered acks) :
    Flow snd.fillWindow accepted acked out rcv delivered acks := by
  obtain ⟨new, hf⟩ := TCPSender.fillWindow_filled snd
  have hsend := h.send.fillWindow
  refine h.sender_frame hsend hf.isn hf.recent hf.window h.send.fillWindow_keeps_fin ?_ ?_ ?_
  · intro hno
    obtain ⟨hra, hws, hopen⟩ := h.early hno
    refine h.send.fillWindow_no_fin ?_ hopen
    rw [TCPSender.windowEdge, hra, hws]
    rfl
  · rw [hf.outstanding]
    exact List.subset_append_left _ _
  · intro s hs
    rw [hf.segmentsOut] at hs
    refine (List.mem_append.mp hs).imp_right fun hnew => ?_
    have hmem : s ∈ acked ++ snd.fillWindow.outstandingSegments := by
      rw [hf.outstanding]
      exact List.mem_append_right _ (List.mem_append_right _ hnew)
    obtain ⟨pre, post, -, hplaced⟩ := hsend.sent.of_mem hmem
    exact ⟨Or.inr ⟨s, hmem, SameData.refl s⟩, by rw [hplaced.header]⟩

theorem tick (h : Flow snd accepted acked out rcv delivered acks) (ms : ℕ) :
    Flow (snd.tick ms) accepted acked out rcv delivered acks := by
  have ht := TCPSender.tick_ticked snd ms
  have hsend := h.send.tick ms
  refine h.sender_frame hsend ht.isn ht.recent ht.window (fun hf => ht.finSet.trans hf)
    (fun hno => ht.finSet.trans (h.early hno).2.2) (by rw [ht.outstanding]; exact fun _ => id) ?_
  intro s hs
  rcases ht.segmentsOut with hsame | ⟨oldest, hold, hout⟩
  · rw [hsame] at hs
    exact Or.inl hs
  · rw [hout] at hs
    refine (List.mem_append.mp hs).imp_right fun hnew => ?_
    rw [List.mem_singleton] at hnew
    have hmem : s ∈ acked ++ (snd.tick ms).outstandingSegments := by
      rw [ht.outstanding, hnew]
      exact List.mem_append_right _ hold
    obtain ⟨pre, post, -, hplaced⟩ := hsend.sent.of_mem hmem
    exact ⟨Or.inr ⟨s, hmem, SameData.refl s⟩, by rw [hplaced.header]⟩

theorem sendEmptySegment (h : Flow snd accepted acked out rcv delivered acks) :
    Flow snd.sendEmptySegment accepted acked out rcv delivered acks := by
  refine h.sender_frame h.send.sendEmptySegment rfl rfl rfl id (fun hno => (h.early hno).2.2)
    (fun _ => id) ?_
  intro s hs
  refine (List.mem_append.mp hs).imp_right fun hnew => ?_
  rw [List.mem_singleton] at hnew
  rw [hnew]
  exact ⟨Or.inl rfl, rfl⟩

theorem endStream (h : Flow snd accepted acked out rcv delivered acks) :
    Flow snd.endStream accepted acked out rcv delivered acks :=
  h.sender_frame h.send.endStream rfl rfl rfl id (fun hno => (h.early hno).2.2) (fun _ => id)
    fun _ => Or.inl

theorem errorStream (h : Flow snd accepted acked out rcv delivered acks) :
    Flow snd.errorStream accepted acked out rcv delivered acks :=
  h.sender_frame h.send.errorStream rfl rfl rfl id (fun hno => (h.early hno).2.2) (fun _ => id)
    fun _ => Or.inl

/-- After the FIN nothing more is accepted; before it the receiver knows of no end. -/
theorem write (h : Flow snd accepted acked out rcv delivered acks) (data : List UInt8) :
    Flow (snd.writeStream data) (accepted ++ snd.stream.accepted data) acked out rcv delivered
      acks := by
  have hclosed : snd.isFinSet = true → snd.stream.accepted data = [] := fun hf =>
    ByteStream.accepted_of_ended (h.send.ended hf).1 data
  have hfrozen : rcv.reassembler.ifEof = true → snd.stream.accepted data = [] := fun heof =>
    hclosed (h.finSeen (h.eofSeen heof)).2.1
  refine
    { send := h.send.write data, carried := h.carried, plain := h.plain,
      recv := h.recv.mono (List.prefix_append ..), acks_le := h.acks_le,
      recent_le := h.recent_le, acked_le := h.acked_le, early := h.early, finSeen := ?_,
      finUnseen := h.finUnseen, eofSeen := h.eofSeen, whole := ?_, endedNext := ?_ }
  · intro hset
    obtain ⟨hsyn, hf, habs⟩ := h.finSeen hset
    rw [hclosed hf, List.append_nil]
    exact ⟨hsyn, hf, habs⟩
  · have hwhole := h.whole
    unfold StreamReassembler.EndedWhole at hwhole ⊢
    rw [hwhole]
    refine and_congr_right fun heof => ?_
    rw [hfrozen heof, List.append_nil]
  · intro hend
    rw [hfrozen (h.whole.mp hend).1, List.append_nil]
    exact h.endedNext hend

/-- The numbers of one direction are small enough to be unwrapped. -/
theorem near (h : Flow snd accepted acked out rcv delivered acks)
    (hlen : accepted.length < 2 ^ 31 - 2) : TCPSender.Near acked snd := by
  have hnext := h.send.nextSeqno_le
  have hrecent := h.recent_le
  have hlevel := h.ackLevel_le
  exact ⟨by omega, fun _ => by omega⟩

/-- **An acknowledgment from the other side pops only what that side has acknowledged.** -/
theorem ackReceived (h : Flow snd accepted acked out rcv delivered acks)
    (hlen : accepted.length < 2 ^ 31 - 2) (hseg : seg ∈ acks) (hack : seg.header.ack = true)
    {popped : List TCPSegment}
    (ha : TCPSender.Acked snd (snd.ackReceived seg.header.ackno seg.header.win)
      (unwrap seg.header.ackno snd.isn snd.recentAbsAckno) seg.header.win popped) :
    Flow (snd.ackReceived seg.header.ackno seg.header.win) accepted (acked ++ popped) out rcv
      delivered acks := by
  obtain ⟨hsyn, k, hk, hackno⟩ := h.acks_le seg hseg hack
  have hlevel := h.ackLevel_le
  have hrecent := h.recent_le
  have habs : unwrap seg.header.ackno snd.isn snd.recentAbsAckno = k := by
    rw [hackno]
    exact unwrap_wrap _ (by omega) (by omega) (by omega) (by omega)
  have hsend := h.send.ack ha (unwrap_lt ..)
  have hcreated : acked ++ popped ++ (snd.ackReceived seg.header.ackno
      seg.header.win).outstandingSegments = acked ++ snd.outstandingSegments := by
    rw [List.append_assoc, ← ha.outstanding]
  rw [habs] at ha
  refine
    { send := hsend, carried := ?_, plain := ?_, recv := ha.isn ▸ h.recv, acks_le := ?_,
      recent_le := by rw [ha.recent]; exact hk, acked_le := ?_,
      early := fun hno => absurd hsyn (by simp [hno]), finSeen := ?_,
      finUnseen := h.finUnseen, eofSeen := h.eofSeen, whole := h.whole,
      endedNext := h.endedNext }
  · rw [hcreated, ha.segmentsOut]
    exact h.carried
  · rw [ha.segmentsOut]
    exact h.plain
  · rw [ha.isn]
    exact h.acks_le
  · by_cases hnil : popped = []
    · rw [hnil, List.append_nil]
      exact h.acked_le
    · exact (h.send.popped_le (h.near hlen) ha hnil).1.trans hk
  · rw [ha.finSet]
    exact h.finSeen

/-- Segments leave the sender's queue; on the way out only their acknowledgment fields and the
RST flag may change. -/
theorem flush (h : Flow snd accepted acked out rcv delivered acks)
    {moved rest : List TCPSegment} (hrest : rest ⊆ snd.segmentsOut)
    (hmoved : ∀ s' ∈ moved, ∃ s ∈ snd.segmentsOut, SameData s' s) :
    Flow { snd with segmentsOut := rest } accepted acked (out ++ moved) rcv delivered acks := by
  refine { h with
    send := { h.send with }, carried := ?_, plain := fun s hs => h.plain s (hrest hs) }
  intro s hs
  rw [List.append_assoc] at hs
  rcases List.mem_append.mp hs with hout | hs
  · exact h.carried s (List.mem_append_left _ hout)
  · rcases List.mem_append.mp hs with hmv | hr
    · obtain ⟨s₀, hs₀, hsame⟩ := hmoved s hmv
      exact (h.carried s₀ (List.mem_append_right _ hs₀)).of_sameData hsame
    · exact h.carried s (List.mem_append_right _ (hrest hr))

/-! ### The receiver's side -/

/-- An operation that leaves the receiver's flags and the state of assembly alone. -/
theorem recv_frame (h : Flow snd accepted acked out rcv delivered acks) {rcv' : TCPReceiver}
    (hrecv : rcv'.RecvInv snd.isn accepted delivered)
    (hsyn : rcv'.ifSynSet = rcv.ifSynSet) (hfin : rcv'.ifFinSet = rcv.ifFinSet)
    (habs : rcv'.absSeqnoFin = rcv.absSeqnoFin)
    (hnext : rcv'.reassembler.nextIndex = rcv.reassembler.nextIndex)
    (heof : rcv'.reassembler.ifEof = rcv.reassembler.ifEof)
    (hended : rcv'.reassembler.output.inputEnded = rcv.reassembler.output.inputEnded) :
    Flow snd accepted acked out rcv' delivered acks := by
  have hlevel : rcv'.ackLevel = rcv.ackLevel := by
    unfold TCPReceiver.ackLevel
    rw [hsyn, hnext, habs]
  refine
    { send := h.send, carried := h.carried, plain := h.plain, recv := hrecv, acks_le := ?_,
      recent_le := ?_, acked_le := ?_, early := ?_, finSeen := ?_, finUnseen := ?_,
      eofSeen := ?_, whole := ?_, endedNext := ?_ }
  all_goals
    simp only [StreamReassembler.EndedWhole, hsyn, hfin, habs, hnext, heof, hended, hlevel]
  exacts [h.acks_le, h.recent_le, h.acked_le, h.early, h.finSeen, h.finUnseen, h.eofSeen, h.whole,
    h.endedNext]

theorem readOut (h : Flow snd accepted acked out rcv delivered acks) (len : ℕ) :
    Flow snd accepted acked out (rcv.readOut len) delivered acks :=
  h.recv_frame (h.recv.readOut len) rfl rfl rfl rfl rfl rfl

theorem errorOut (h : Flow snd accepted acked out rcv delivered acks) :
    Flow snd accepted acked out rcv.errorStream delivered acks := by
  have hc := h.recv.content
  refine h.recv_frame ⟨⟨?_, hc.next_le, hc.held, hc.written_prefix, hc.written_open⟩, h.recv.isn,
    h.recv.checkpoint⟩ rfl rfl rfl rfl rfl rfl
  exact ⟨hc.wf.out.setError, hc.wf.sameCapacity, hc.wf.count, hc.wf.keys, hc.wf.next⟩

/-- The acknowledgments that leave now are the receiver's own. -/
theorem sendAcks (h : Flow snd accepted acked out rcv delivered acks)
    (hlen : accepted.length < 2 ^ 31 - 2) {moved : List TCPSegment}
    (hmoved : ∀ s ∈ moved, s.header.ack = true → rcv.ackno = some s.header.ackno) :
    Flow snd accepted acked out rcv delivered (acks ++ moved) := by
  refine { h with acks_le := ?_ }
  intro s hs hack
  rcases List.mem_append.mp hs with hold | hnew
  · exact h.acks_le s hold hack
  · have hnext := h.recv.content.next_le
    obtain ⟨hsyn, hackno⟩ :=
      TCPReceiver.ackno_eq_wrap_ackLevel (by omega) (hmoved s hnew hack)
    rw [h.recv.isn hsyn] at hackno
    exact ⟨hsyn, _, le_rfl, hackno⟩

/-- A receiver that moves on acknowledges no less. -/
theorem ackLevel_mono (h : Flow snd accepted acked out rcv delivered acks) (rcv' : TCPReceiver)
    (hsyn : rcv'.ifSynSet = true)
    (hnext : rcv.reassembler.nextIndex ≤ rcv'.reassembler.nextIndex)
    (hle : rcv'.reassembler.nextIndex ≤ accepted.length)
    (habs : rcv.ifFinSet = true → rcv'.absSeqnoFin = rcv.absSeqnoFin) :
    rcv.ackLevel ≤ rcv'.ackLevel := by
  refine TCPReceiver.ackLevel_add_le (n := 0) hsyn hnext hle ?_
  cases hset : rcv.ifFinSet with
  | false => exact Or.inl (h.finUnseen hset)
  | true => exact Or.inr ⟨(h.finSeen hset).2.2, habs hset⟩

/-- The slice a segment on the wire carries; a FIN closes the stream. -/
theorem slice_of_mem (h : Flow snd accepted acked out rcv delivered acks) (hseg : seg ∈ out)
    (hlen : seg.lengthInSequenceSpace ≠ 0) :
    ∃ index, StreamSlice snd.isn accepted seg index ∧
      (seg.header.fin = true →
        snd.isFinSet = true ∧ index + seg.payload.length = accepted.length) := by
  exact h.send.slice_of_carried (h.carried seg (List.mem_append_left _ hseg)) hlen

/-- A segment that is not handed to the reassembler has no flags. -/
theorem skip_flags (h : Flow snd accepted acked out rcv delivered acks) (hseg : seg ∈ out)
    (hno : ¬ rcv.Pushes seg) : seg.header.syn = false ∧ seg.header.fin = false := by
  refine ⟨TCPReceiver.syn_of_not_pushes hno, ?_⟩
  by_contra hne
  have hfin : seg.header.fin = true := by simpa using hne
  have hlen : seg.lengthInSequenceSpace ≠ 0 := by
    simp [TCPSegment.lengthInSequenceSpace, hfin]
  -- the FIN is not sent before the SYN has arrived
  obtain ⟨index, -, hclose⟩ := h.slice_of_mem hseg hlen
  have hset : rcv.ifSynSet = false := by
    by_contra hset
    exact hno ⟨hlen, by simp [Bool.eq_true_of_not_eq_false hset]⟩
  have := (h.early hset).2.2
  rw [(hclose hfin).1] at this
  cases this

theorem receive_skip (h : Flow snd accepted acked out rcv delivered acks) (hseg : seg ∈ out)
    (hno : ¬ rcv.Pushes seg) :
    Flow snd accepted acked out (rcv.segmentReceived seg)
      (delivered ++ ByteStream.appended rcv.streamOut (rcv.segmentReceived seg).streamOut)
      acks := by
  obtain ⟨hsyn, hfin⟩ := h.skip_flags hseg hno
  have hrecv := h.recv.skip hno
  rw [TCPReceiver.segmentReceived_of_not_pushes hno] at hrecv ⊢
  have hout : (rcv.noteFlags seg).streamOut = rcv.streamOut := by simp [TCPReceiver.streamOut]
  rw [hout, ByteStream.appended, List.drop_length, List.append_nil] at hrecv ⊢
  refine h.recv_frame hrecv ?_ ?_ ?_ ?_ ?_ ?_
  · rw [TCPReceiver.noteFlags_ifSynSet, hsyn, Bool.or_false]
  · rw [TCPReceiver.noteFlags_ifFinSet, hfin, Bool.or_false]
  · rw [TCPReceiver.noteFlags_absSeqnoFin, hfin, if_neg (by simp)]
  all_goals rw [TCPReceiver.noteFlags_reassembler]

/-- The FIN the receiver knows of after a segment is the sender's, at its place. -/
theorem finSeen_push (h : Flow snd accepted acked out rcv delivered acks)
    (hlen : accepted.length < 2 ^ 31 - 2) {index : ℕ}
    (hs : StreamSlice snd.isn accepted seg index) (hpush : rcv.Pushes seg)
    (hclose : seg.header.fin = true →
      snd.isFinSet = true ∧ index + seg.payload.length = accepted.length)
    (hset : (rcv.noteFlags seg).ifFinSet = true) :
    snd.isFinSet = true ∧ (rcv.noteFlags seg).absSeqnoFin = accepted.length + 1 := by
  cases hold : rcv.ifFinSet with
  | true =>
    obtain ⟨-, hf, heq⟩ := h.finSeen hold
    rw [TCPReceiver.noteFlags_absSeqnoFin, if_neg (by simp [hold])]
    exact ⟨hf, heq⟩
  | false =>
    have hfin : seg.header.fin = true := by
      simpa [hold] using hset
    obtain ⟨hf, hend⟩ := hclose hfin
    exact ⟨hf, h.recv.absSeqnoFin_eq hs hlen hpush.2 hfin hend hold⟩

open StreamReassembler in
/-- A push that is not premature ends the stream only behind its last byte. -/
theorem endedNext_push (h : Flow snd accepted acked out rcv delivered acks) {index : ℕ}
    {w : List UInt8} (hp : Pushed rcv.reassembler seg.payload index seg.header.fin w
      (rcv.reassembler.pushSubstring seg.payload index seg.header.fin))
    (hle : rcv.reassembler.nextIndex + w.length ≤ accepted.length)
    (hok : ¬ rcv.reassembler.Premature accepted.length seg.payload index seg.header.fin)
    (hended : (rcv.reassembler.pushSubstring seg.payload index
      seg.header.fin).output.inputEnded = true) :
    rcv.reassembler.nextIndex + w.length = accepted.length := by
  cases hold : rcv.reassembler.output.inputEnded with
  | true =>
    have := h.endedNext hold
    omega
  | false =>
    have hwhole : ¬ rcv.reassembler.nextIndex + w.length < accepted.length := fun hlt =>
      hok ((hp.premature_iff h.recv.content.wf hold _).mpr ⟨hended, hlt⟩)
    omega

open StreamReassembler in
theorem receive_push (h : Flow snd accepted acked out rcv delivered acks)
    (hlen : accepted.length < 2 ^ 31 - 2) (hseg : seg ∈ out) (hpush : rcv.Pushes seg)
    (hok : ¬ rcv.reassembler.Premature accepted.length seg.payload
      ((rcv.noteFlags seg).streamIndex seg) seg.header.fin) :
    Flow snd accepted acked out (rcv.segmentReceived seg)
      (delivered ++ ByteStream.appended rcv.streamOut (rcv.segmentReceived seg).streamOut)
      acks := by
  obtain ⟨index, hs, hclose⟩ := h.slice_of_mem hseg hpush.1
  have hindex := h.recv.streamIndex_eq hs hlen hpush.2
  have hrecv := h.recv.push hs hlen hpush
  rw [hindex] at hok
  rw [TCPReceiver.segmentReceived_of_pushes hpush, hindex] at hrecv ⊢
  obtain ⟨w, hp⟩ := pushSubstring_spec h.recv.content.wf seg.payload index seg.header.fin
  have hshort := h.recv.content.not_overlong (by omega) hs.payload
  have hnext := h.recv.content.pushed_next (by omega) hs.payload hp
  have htake := h.recv.content.taken (by omega) hs.payload hp
  have hle := length_le_of_prefix_drop h.recv.content.next_le htake
  have hsyn : (rcv.noteFlags seg).ifSynSet = true := by
    rw [TCPReceiver.noteFlags_ifSynSet, hpush.2]
  have habs : rcv.ifFinSet = true → (rcv.noteFlags seg).absSeqnoFin = rcv.absSeqnoFin := by
    intro hset
    rw [TCPReceiver.noteFlags_absSeqnoFin, if_neg (by simp [hset])]
  have hmono := h.ackLevel_mono
    { rcv.noteFlags seg with
      reassembler := rcv.reassembler.pushSubstring seg.payload index seg.header.fin
      absCheckpoint := unwrap seg.header.seqno (rcv.noteFlags seg).isn rcv.absCheckpoint }
    hsyn (by simp only [hnext]; omega) (by simp only [hnext]; omega) habs
  refine
    { send := h.send, carried := h.carried, plain := h.plain, recv := hrecv, acks_le := ?_,
      recent_le := h.recent_le.trans hmono, acked_le := h.acked_le.trans hmono,
      early := fun hno => absurd (hsyn.symm.trans hno) (by decide), finSeen := ?_,
      finUnseen := ?_, eofSeen := ?_, whole := h.whole.push h.recv.content (by omega) hs.payload
        hshort hok, endedNext := ?_ }
  · intro s hmem hack
    obtain ⟨-, k, hk, hackno⟩ := h.acks_le s hmem hack
    exact ⟨hsyn, k, hk.trans hmono, hackno⟩
  · exact fun hset => ⟨hsyn, h.finSeen_push hlen hs hpush hclose hset⟩
  · intro hset
    have hset : rcv.ifFinSet = false ∧ seg.header.fin = false := by
      simpa using hset
    show (rcv.noteFlags seg).absSeqnoFin = 0
    rw [TCPReceiver.noteFlags_absSeqnoFin, if_neg (by simp [hset.2])]
    exact h.finUnseen hset.1
  · intro heof
    show (rcv.noteFlags seg).ifFinSet = true
    simp only [hp.ifEof, Bool.or_eq_true] at heof
    rw [TCPReceiver.noteFlags_ifFinSet, Bool.or_eq_true]
    exact heof.symm.imp_left h.eofSeen
  · intro hended
    simp only [hnext]
    exact h.endedNext_push hp hle hok hended

/-- The other side takes a segment from the wire, whatever it is, unless it is premature. -/
def Timely (accepted : List UInt8) (rcv : TCPReceiver) (seg : TCPSegment) : Prop :=
  rcv.Pushes seg → ¬ rcv.reassembler.Premature accepted.length seg.payload
    ((rcv.noteFlags seg).streamIndex seg) seg.header.fin

theorem receive (h : Flow snd accepted acked out rcv delivered acks)
    (hlen : accepted.length < 2 ^ 31 - 2) (hseg : seg ∈ out) (hok : Timely accepted rcv seg) :
    Flow snd accepted acked out (rcv.segmentReceived seg)
      (delivered ++ ByteStream.appended rcv.streamOut (rcv.segmentReceived seg).streamOut)
      acks := by
  by_cases hpush : rcv.Pushes seg
  · exact h.receive_push hlen hseg hpush (hok hpush)
  · exact h.receive_skip hseg hpush

/-! ### What it guarantees -/

/-- Everything dropped as acknowledged has been assembled by the receiver. -/
theorem payloads_acked_le (h : Flow snd accepted acked out rcv delivered acks) :
    (payloads acked).length ≤ rcv.reassembler.nextIndex := by
  by_cases hnil : acked = []
  · rw [hnil]
    exact Nat.zero_le _
  have hle : 1 + (payloads acked).length ≤ rcv.ackLevel := by
    have hseq := h.acked_le
    rw [h.send.sent.of_append.seqLen_eq, if_neg hnil] at hseq
    omega
  have hlen := h.send.payloads_acked.length_le
  unfold TCPReceiver.ackLevel at hle
  split at hle
  · split at hle
    · -- the receiver acknowledges the FIN, so it has the whole stream
      rename_i hat
      have hset : rcv.ifFinSet = true := by
        by_contra hno
        have := h.finUnseen (by simpa using hno)
        omega
      have := (h.finSeen hset).2.2
      omega
    · omega
  · omega

/-- **No loss**: what was dropped as acknowledged has been delivered. -/
theorem acked_delivered (h : Flow snd accepted acked out rcv delivered acks) :
    payloads acked <+: delivered := by
  cases hend : rcv.reassembler.output.inputEnded with
  | true =>
    rw [(h.whole.mp hend).2]
    exact h.send.payloads_acked
  | false =>
    rw [h.recv.content.written_open hend, List.prefix_take_iff]
    exact ⟨h.send.payloads_acked, h.payloads_acked_le⟩

/-- **No early end**: an ended inbound stream is the whole outbound stream of the other side. -/
theorem ended_whole (h : Flow snd accepted acked out rcv delivered acks)
    (hend : rcv.streamOut.inputEnded = true) :
    snd.stream.inputEnded = true ∧ delivered = accepted := by
  obtain ⟨heof, hall⟩ := h.whole.mp hend
  exact ⟨(h.send.ended (h.finSeen (h.eofSeen heof)).2.1).1, hall⟩

open StreamReassembler in
/-- A premature segment ends the inbound stream before it is whole. -/
theorem not_whole_of_premature (h : Flow snd accepted acked out rcv delivered acks)
    (hlen : accepted.length < 2 ^ 31 - 2) (hseg : seg ∈ out) (hbad : ¬ Timely accepted rcv seg) :
    (rcv.segmentReceived seg).streamOut.inputEnded = true ∧
      delivered ++ ByteStream.appended rcv.streamOut (rcv.segmentReceived seg).streamOut ≠
        accepted := by
  obtain ⟨hpush, hpre⟩ := Classical.not_imp.mp hbad
  rw [not_not] at hpre
  obtain ⟨index, hs, -⟩ := h.slice_of_mem hseg hpush.1
  rw [h.recv.streamIndex_eq hs hlen hpush.2] at hpre
  rw [TCPReceiver.segmentReceived_of_pushes hpush, h.recv.streamIndex_eq hs hlen hpush.2]
  obtain ⟨w, hp⟩ := pushSubstring_spec h.recv.content.wf seg.payload index seg.header.fin
  have hopen : rcv.reassembler.output.inputEnded = false := by
    by_contra hend
    -- an ended stream is complete, so no run of bytes can stop short of its end
    obtain ⟨-, n, hn, hge, -⟩ := hpre
    have := h.endedNext (by simpa using hend)
    omega
  obtain ⟨hended, hlt⟩ := (hp.premature_iff h.recv.content.wf hopen _).mp hpre
  refine ⟨hended, fun hall => ?_⟩
  have hall := congrArg List.length hall
  have hshort := h.recv.content.not_overlong (by omega) hs.payload
  have hout : ByteStream.appended rcv.reassembler.output
      (rcv.reassembler.pushSubstring seg.payload index seg.header.fin).output = w := by
    rw [ByteStream.appended_of_buffer hp.output_buffer,
      hp.accepted_eq h.recv.content.wf hshort hopen]
  have hdelivered := h.recv.content.written_open hopen
  simp only [TCPReceiver.streamOut] at hall
  rw [hout, hdelivered, List.length_append, List.length_take] at hall
  omega

end Flow

end Sponge
