import Sponge.Advertised
import Sponge.SenderWindow
import Sponge.StreamSafety
import Sponge.WindowRetention

/-!
# What is sent fits the peer's window

A sender cuts its stream to the window it was last told of, which may be out of date.  `Room`
ties one direction together: the right edge of the receiver's window never goes back, so
whatever has been sent lies below it, except for the single byte with which a sender probes a
closed window, and that is the byte the receiver waits for.  Therefore the reassembler never
holds a byte beyond its window, and once the application has read, it takes everything that has
been sent.
-/

namespace Sponge

open MachineInt Run Slices

/-! ### The reassembler -/

namespace StreamReassembler

/-- The first stream index for which the receiver has not granted room: that beyond its window,
or, if the window is closed, beyond the byte it waits for. -/
def room (r : StreamReassembler) : ℕ :=
  max (r.nextIndex + (r.capacity - r.output.bufferSize)) (r.nextIndex + 1)

/-- The map holds only bytes of the window, and not the one the output waits for. -/
structure Waiting (r : StreamReassembler) : Prop extends Contained r where
  gap : r.nextIndex ∉ r.unassembled.keys

section

variable {r r' : StreamReassembler} {data w : List UInt8} {index k : ℕ} {eof : Bool}

theorem Waiting.new {capacity : ℕ} (hcap : capacity < 2 ^ 64) : (new capacity).Waiting :=
  ⟨Contained.new hcap, List.not_mem_nil⟩

theorem Waiting.readOut (h : r.Waiting) (len : ℕ) : (r.readOut len).Waiting := by
  have hcontained : (streamStep r (.read len)).Contained := h.toContained.step trivial
  exact ⟨hcontained, h.gap⟩

/-- What has been granted stays granted. -/
theorem room_readOut (r : StreamReassembler) (len : ℕ) : r.room ≤ (r.readOut len).room := by
  have hless := ByteStream.popOutput_length_le r.output len
  unfold room ByteStream.bufferSize
  show _ ≤ max (r.nextIndex + (r.capacity - (r.output.popOutput len).buffer.length))
    (r.nextIndex + 1)
  omega

theorem Pushed.room_le (hp : Pushed r data index eof w r')
    (hnext : r'.nextIndex = r.nextIndex + w.length) : r.room ≤ r'.room := by
  have haccepted := (ByteStream.accepted_prefix r.output w).length_le
  unfold room ByteStream.bufferSize
  rw [hp.capacity, hnext, hp.output_buffer, List.length_append]
  omega

/-- After a push the byte at the next index is missing: otherwise the output is full, and then
there is no window in which it could be held. -/
theorem Waiting.push (h : r.Waiting) (hin : r.StaysInside (.push data index eof))
    (hp : Pushed r data index eof w (r.pushSubstring data index eof))
    (hnext : (r.pushSubstring data index eof).nextIndex = r.nextIndex + w.length)
    (htaken : r.output.accepted w = w) : (r.pushSubstring data index eof).Waiting := by
  have hcontained := h.toContained.push hin
  refine ⟨hcontained, fun hheld => ?_⟩
  have hfits := hp.fits
  by_cases hroom : r.output.buffer.length + w.length < r.capacity
  · obtain ⟨b, hb⟩ := SortedMap.mem_keys.mp hheld
    have hmem := ((hp.left _).mp hb).1
    rw [hnext] at hmem
    exact hp.stops hroom (SortedMap.mem_keys.mpr ⟨b, hmem⟩)
  · obtain ⟨-, hlt⟩ := hcontained.keys _ hheld
    rw [hp.capacity, ByteStream.bufferSize, hp.output_buffer, htaken, List.length_append] at hlt
    omega

/-- **A byte of the window that is pushed is held**: the map has room for the whole window. -/
theorem Contained.holds_of_inWindow (h : r.Contained)
    (hedge : r.nextIndex + r.capacity < 2 ^ 64) (hk : r.InWindow k) (hge : index ≤ k)
    (hlt : k < index + data.length) : r.Holds data index k := by
  obtain ⟨hnext, hwindow⟩ := (inWindow_iff h.wf).mp hk
  have hroom := remainingCapacity_eq h.wf
  have henter : r.Enters index := by
    refine Or.inr ?_
    rw [u64_of_lt (by omega)]
    omega
  refine Or.inr ⟨k - max index r.nextIndex, ?_, ?_, ?_⟩
  · rw [slice_of_enters henter, List.length_take, List.length_drop]
    omega
  · rw [slice_fst, u64_of_lt (by omega)]
    omega
  · rw [slice_fst]
    -- the bytes before `k` and those in the map are all in the window
    refine le_trans (Finset.card_le_card ?_)
      (h.stores_edge (le_max_right index r.nextIndex) (by omega))
    refine Finset.union_subset_union_right (Finset.image_subset_image ?_)
    intro j hj
    rw [Finset.mem_range] at hj ⊢
    omega

/-- A push that covers the byte the output waits for assembles it. -/
theorem Contained.advances (h : r.Contained) (hedge : r.nextIndex + r.capacity < 2 ^ 64)
    (hp : Pushed r data index eof w r') (hge : index ≤ r.nextIndex)
    (hlt : r.nextIndex < index + data.length) (hroom : r.output.bufferSize < r.capacity) :
    0 < w.length := by
  have hwindow : r.InWindow r.nextIndex := ⟨le_rfl, by omega⟩
  have hheld := h.holds_of_inWindow hedge hwindow hge hlt
  by_contra hzero
  have hzero : w.length = 0 := by omega
  refine hp.stops (by rw [hzero]; exact hroom) ?_
  rw [hzero, Nat.add_zero]
  exact (mem_keys_intake r data index _).mpr hheld

end

end StreamReassembler

/-! ### The sender -/

section Sent

variable {isn : WrappingInt32} {accepted : List UInt8} {segs : List TCPSegment}

/-- The created segments cut what has been cut so far. -/
theorem Sent.self (h : Sent isn accepted segs) : Sent isn (payloads segs) segs := by
  intro pre seg post hsplit
  refine { h pre seg post hsplit with payload := ?_ }
  rw [hsplit, payloads_append, payloads_cons, ← List.append_assoc]
  exact List.prefix_append ..

end Sent

namespace TCPSender

variable {accepted : List UInt8} {acked : List TCPSegment} {st : TCPSender}

/-- What `fill_window` reads from the stream ends inside the window, the SYN not counted. -/
theorem SenderInv.fillWindow_numRead (h : SenderInv accepted acked st) :
    st.fillWindow.stream.numRead ≤ max st.stream.numRead st.windowEdge := by
  revert h
  refine fillWindow_induct (P := fun st st' => SenderInv accepted acked st →
    st'.stream.numRead ≤ max st.stream.numRead st.windowEdge) ?_ ?_ ?_ st
  · intro st _ _
    exact le_max_left _ _
  · intro st _ hlen h
    rw [h.nextSegment_break hlen]
    exact le_max_left _ _
  · intro st hmay hlen ih h
    have h' := h.pushSegment hmay hlen
    have hpay := (nextSegment_payload_le st).1
    have hle := h.numRead_le
    have hread : (st.nextSegment.2.pushSegment st.nextSegment.1).stream.numRead =
        st.stream.numRead + st.nextSegment.1.payload.length := by
      rw [h'.read, h.read]
      show (payloads (acked ++ (st.outstandingSegments ++ [st.nextSegment.1]))).length = _
      simp only [payloads_append, payloads_cons, payloads_nil, List.append_nil,
        List.length_append]
      omega
    have hedge : st.nextSeqno ≤ st.windowEdge := by
      by_cases hsyn : st.isSynSet = true
      · have hlt : st.nextSeqno < st.windowEdge := by simpa [mayFill, hsyn] using hmay
        exact hlt.le
      · have hzero : st.nextSeqno = 0 := by
          by_contra hne
          exact hsyn (h.synSet_iff.mpr hne)
        omega
    have hlt : st.windowEdge < 2 ^ 64 := u64_lt _
    rw [sub64_of_le hlt hedge] at hpay
    have hlast : _ ≤ max (st.nextSegment.2.pushSegment st.nextSegment.1).stream.numRead
      st.windowEdge := ih h'
    rw [hread] at hlast
    omega

/-- After the FIN nothing more is read from the stream. -/
theorem SenderInv.numRead_eq_of_fin (h : SenderInv accepted acked st)
    (hfin : st.isFinSet = true) : st.stream.numRead = accepted.length := by
  have hlen := congrArg List.length h.stream
  rw [(h.ended hfin).2, List.append_nil] at hlen
  rw [h.read, hlen]

theorem SenderInv.numRead_le_accepted (h : SenderInv accepted acked st) :
    st.stream.numRead ≤ accepted.length := by
  have hlen := congrArg List.length h.stream
  rw [List.length_append] at hlen
  rw [h.read]
  omega

theorem SenderInv.fillWindow_synSet (h : SenderInv accepted acked st)
    (hsyn : st.isSynSet = true) : st.fillWindow.isSynSet = true := by
  have hnext := h.nextSeqno_le_fillWindow
  have hne := h.synSet_iff.mp hsyn
  exact h.fillWindow.synSet_iff.mpr (by omega)

end TCPSender

/-! ### One direction -/

/-- **What has been sent fits what the receiver has granted.**  The sender has created the
segments in `acked` and the outstanding ones; `acks` carry the receiver's acknowledgments. -/
structure Room (snd : TCPSender) (acked : List TCPSegment) (rcv : TCPReceiver)
    (acks : List TCPSegment) : Prop where
  roomy : 0 < rcv.reassembler.capacity ∧ rcv.reassembler.capacity < 2 ^ 63
  capacity : rcv.capacity = rcv.reassembler.capacity
  waiting : rcv.reassembler.Waiting
  /-- The receiver knows no more than what has been cut from the stream. -/
  reached : ∃ written, rcv.RecvInv snd.isn (payloads (acked ++ snd.outstandingSegments)) written
  synSent : rcv.ifSynSet = true → snd.isSynSet = true
  finEof : rcv.ifFinSet = true → rcv.reassembler.ifEof = true
  fits : snd.stream.numRead ≤ rcv.reassembler.room
  /-- The FIN may lie beyond the granted room, but nothing is sent after it. -/
  window : snd.recentAbsAckno + snd.windowSize.toNat ≤ rcv.reassembler.room + 1 ∨
    snd.isFinSet = true
  granted : ∀ seg ∈ acks, seg.header.ack = true → ∀ k < 2 ^ 32,
    seg.header.ackno = wrap k snd.isn →
      k + max 1 seg.header.win.toNat ≤ rcv.reassembler.room + 1 ∨ snd.isFinSet = true

namespace Room

variable {snd snd' : TCPSender} {accepted delivered : List UInt8}
  {acked acked' out acks : List TCPSegment} {rcv rcv' : TCPReceiver} {seg : TCPSegment}

/-! #### The sender's side -/

/-- The sender moves on within the room. -/
theorem sender (h : Room snd acked rcv acks) (hisn : snd'.isn = snd.isn)
    (hcreated : payloads (acked ++ snd.outstandingSegments) <+:
      payloads (acked' ++ snd'.outstandingSegments))
    (hsyn : snd.isSynSet = true → snd'.isSynSet = true)
    (hfin : snd.isFinSet = true → snd'.isFinSet = true)
    (hfits : snd'.stream.numRead ≤ rcv.reassembler.room)
    (hwindow : snd'.recentAbsAckno + snd'.windowSize.toNat ≤ rcv.reassembler.room + 1 ∨
      snd'.isFinSet = true) : Room snd' acked' rcv acks := by
  obtain ⟨written, hrecv⟩ := h.reached
  refine
    { roomy := h.roomy, capacity := h.capacity, waiting := h.waiting,
      reached := ⟨written, hisn ▸ hrecv.mono hcreated⟩
      synSent := fun hset => hsyn (h.synSent hset)
      finEof := h.finEof, fits := hfits, window := hwindow, granted := ?_ }
  intro seg hseg hack k hk hackno
  rw [hisn] at hackno
  exact (h.granted seg hseg hack k hk hackno).imp_right hfin

/-- An operation that creates nothing and leaves the window alone. -/
theorem sender_frame (h : Room snd acked rcv acks) (hisn : snd'.isn = snd.isn)
    (hout : snd'.outstandingSegments = snd.outstandingSegments)
    (hread : snd'.stream.numRead = snd.stream.numRead)
    (hrecent : snd'.recentAbsAckno = snd.recentAbsAckno)
    (hsize : snd'.windowSize = snd.windowSize) (hsyn : snd'.isSynSet = snd.isSynSet)
    (hfin : snd'.isFinSet = snd.isFinSet) : Room snd' acked rcv acks := by
  apply h.sender hisn
  · rw [hout]
  · exact hsyn.trans
  · exact hfin.trans
  · rw [hread]
    exact h.fits
  · rw [hrecent, hsize, hfin]
    exact h.window

theorem tick (h : Room snd acked rcv acks) (ms : ℕ) : Room (snd.tick ms) acked rcv acks := by
  have ht := TCPSender.tick_ticked snd ms
  exact h.sender_frame ht.isn ht.outstanding (by rw [ht.stream]) ht.recent ht.window ht.synSet
    ht.finSet

theorem write (h : Room snd acked rcv acks) (data : List UInt8) :
    Room (snd.writeStream data) acked rcv acks :=
  h.sender_frame rfl rfl (ByteStream.write_numRead ..) rfl rfl rfl rfl

theorem sendEmptySegment (h : Room snd acked rcv acks) :
    Room snd.sendEmptySegment acked rcv acks :=
  h.sender_frame rfl rfl rfl rfl rfl rfl rfl

theorem errorStream (h : Room snd acked rcv acks) : Room snd.errorStream acked rcv acks :=
  h.sender_frame rfl rfl rfl rfl rfl rfl rfl

theorem endStream (h : Room snd acked rcv acks) : Room snd.endStream acked rcv acks :=
  h.sender_frame rfl rfl rfl rfl rfl rfl rfl

/-- **What `fill_window` sends fits.**  Before the SYN the window is that of the start, which
grants the first byte. -/
theorem fillWindow (h : Room snd acked rcv acks)
    (hflow : Flow snd accepted acked out rcv delivered acks) :
    Room snd.fillWindow acked rcv acks := by
  obtain ⟨new, hf⟩ := TCPSender.fillWindow_filled snd
  have hsend := hflow.send
  apply h.sender hf.isn
  · rw [hf.outstanding, ← List.append_assoc, payloads_append (_ ++ _)]
    exact List.prefix_append ..
  · exact hsend.fillWindow_synSet
  · exact hsend.fillWindow_keeps_fin
  · have hread := hsend.fillWindow_numRead
    have hfits := h.fits
    by_cases hfin : snd.isFinSet = true
    · have hall := hsend.numRead_eq_of_fin hfin
      have hle := hsend.fillWindow.numRead_le_accepted
      omega
    · have hwindow := h.window.resolve_right hfin
      have hedge : snd.windowEdge ≤ snd.recentAbsAckno + snd.windowSize.toNat := u64_le _
      by_cases hsyn : snd.isSynSet = true
      · rcases hsend.fillWindow_edge with hsame | ⟨hzero, -⟩ | hinside
        · rw [hsame]
          exact hfits
        · exact absurd hzero (hsend.synSet_iff.mp hsyn)
        · have hnext := hsend.fillWindow.next_eq
          rw [if_pos (hsend.fillWindow_synSet hsyn)] at hnext
          omega
      · -- the SYN has not been sent, so the receiver has not seen it
        have hunseen : rcv.ifSynSet = false := by
          by_contra hset
          exact hsyn (h.synSent (by simpa using hset))
        obtain ⟨hrecent, hsize, -⟩ := hflow.early hunseen
        rw [hrecent, hsize] at hedge
        have hone : snd.windowEdge ≤ 1 := hedge
        have hroom : rcv.reassembler.nextIndex + 1 ≤ rcv.reassembler.room := le_max_right _ _
        omega
  · rw [hf.recent, hf.window]
    exact h.window.imp_right hsend.fillWindow_keeps_fin

/-- An acknowledgment of the receiver grants no more than it has room for. -/
theorem ackReceived (h : Room snd acked rcv acks)
    (hflow : Flow snd accepted acked out rcv delivered acks)
    (hlen : accepted.length < 2 ^ 31 - 2) (hseg : seg ∈ acks) (hack : seg.header.ack = true)
    {popped : List TCPSegment}
    (ha : TCPSender.Acked snd (snd.ackReceived seg.header.ackno seg.header.win)
      (unwrap seg.header.ackno snd.isn snd.recentAbsAckno) seg.header.win popped) :
    Room (snd.ackReceived seg.header.ackno seg.header.win) (acked ++ popped) rcv acks := by
  obtain ⟨-, k, hk, hackno⟩ := hflow.acks_le seg hseg hack
  have hlevel := hflow.ackLevel_le
  have hrecent := hflow.recent_le
  have habs : unwrap seg.header.ackno snd.isn snd.recentAbsAckno = k := by
    rw [hackno]
    exact unwrap_wrap _ (by omega) (by omega) (by omega) (by omega)
  apply h.sender ha.isn
  · rw [List.append_assoc, ← ha.outstanding]
  · exact ha.synSet.trans
  · exact ha.finSet.trans
  · rw [ha.stream]
    exact h.fits
  · rw [ha.recent, ha.window, habs, TCPSender.toNat_window, ha.finSet]
    exact h.granted seg hseg hack k (by omega) hackno

/-! #### The receiver's side -/

/-- The receiver moves on and grants no less. -/
theorem receiver (h : Room snd acked rcv acks)
    (hsize : rcv'.reassembler.capacity = rcv.reassembler.capacity)
    (hcapacity : rcv'.capacity = rcv.capacity) (hwaiting : rcv'.reassembler.Waiting)
    (hreached : ∃ written,
      rcv'.RecvInv snd.isn (payloads (acked ++ snd.outstandingSegments)) written)
    (hsyn : rcv'.ifSynSet = true → snd.isSynSet = true)
    (heof : rcv'.ifFinSet = true → rcv'.reassembler.ifEof = true)
    (hroom : rcv.reassembler.room ≤ rcv'.reassembler.room) : Room snd acked rcv' acks := by
  have hfits := h.fits
  refine
    { roomy := hsize ▸ h.roomy, capacity := by rw [hcapacity, hsize, h.capacity],
      waiting := hwaiting, reached := hreached, synSent := hsyn, finEof := heof,
      fits := hfits.trans hroom, window := ?_, granted := ?_ }
  · exact h.window.imp_left fun hle => by omega
  · intro seg hseg hack k hk hackno
    exact (h.granted seg hseg hack k hk hackno).imp_left fun hle => by omega

theorem readOut (h : Room snd acked rcv acks) (len : ℕ) :
    Room snd acked (rcv.readOut len) acks := by
  obtain ⟨written, hrecv⟩ := h.reached
  exact h.receiver rfl rfl (h.waiting.readOut len) ⟨written, hrecv.readOut len⟩ h.synSent
    h.finEof (StreamReassembler.room_readOut rcv.reassembler len)

theorem errorOut (h : Room snd acked rcv acks) : Room snd acked rcv.errorStream acks := by
  obtain ⟨written, hrecv⟩ := h.reached
  have hrecv' := TCPConnection.recvInv_errorStream hrecv
  exact h.receiver rfl rfl ⟨⟨hrecv'.content.wf, h.waiting.keys⟩, h.waiting.gap⟩
    ⟨written, hrecv'⟩ h.synSent h.finEof le_rfl

/-- A segment on the wire, as a slice of what has been cut so far. -/
theorem slice_of_mem (h : Room snd acked rcv acks)
    (hflow : Flow snd accepted acked out rcv delivered acks) (hseg : seg ∈ out)
    (hlen : seg.lengthInSequenceSpace ≠ 0) :
    ∃ index, StreamSlice snd.isn (payloads (acked ++ snd.outstandingSegments)) seg index ∧
      index + seg.payload.length ≤ rcv.reassembler.room := by
  obtain ⟨c, hc, hsame⟩ := (hflow.carried seg (List.mem_append_left _ hseg)).resolve_left hlen
  obtain ⟨pre, post, hsplit⟩ := List.append_of_mem hc
  have hsent := hflow.send.sent.self
  have hread := hflow.send.read
  have hfits := h.fits
  rw [hsplit] at hsent hread ⊢
  have hslice := hsent.slice.of_sameData hsame
  have hend := hslice.fits
  exact ⟨_, hslice, by omega⟩

open StreamReassembler in
/-- A push within the room stays inside the window. -/
theorem staysInside (h : Room snd acked rcv acks) {index : ℕ} {data : List UInt8} {eof : Bool}
    (hend : index + data.length ≤ rcv.reassembler.room)
    (hnext : rcv.reassembler.nextIndex < 2 ^ 31) :
    rcv.reassembler.StaysInside (.push data index eof) := by
  intro henter
  have hsize := h.roomy.2
  have hroom := remainingCapacity_eq h.waiting.wf
  unfold room ByteStream.bufferSize at hend
  refine ⟨by omega, ?_⟩
  by_contra hout
  obtain ⟨hstart, hlate⟩ := not_or.mp hout
  -- only an empty push at the edge of a closed window is left, and that does not enter
  rw [ByteStream.bufferSize] at hlate
  rcases henter with hbefore | hwindow
  · omega
  · rw [u64_of_lt (by omega)] at hwindow
    omega

open StreamReassembler in
/-- **The receiver takes a segment within the room.** -/
theorem receive_push (h : Room snd acked rcv acks)
    (hflow : Flow snd accepted acked out rcv delivered acks)
    (hlen : accepted.length < 2 ^ 31 - 2) (hseg : seg ∈ out) (hpush : rcv.Pushes seg) :
    Room snd acked (rcv.segmentReceived seg) acks := by
  obtain ⟨written, hrecv⟩ := h.reached
  obtain ⟨index, hs, hend⟩ := h.slice_of_mem hflow hseg hpush.1
  have hread := hflow.send.read
  have hcut := hflow.send.numRead_le_accepted
  have hshort : (payloads (acked ++ snd.outstandingSegments)).length < 2 ^ 31 - 2 := by omega
  have hindex := hrecv.streamIndex_eq hs hshort hpush.2
  have hrecv' := hrecv.push hs hshort hpush
  rw [TCPReceiver.segmentReceived_of_pushes hpush, hindex] at hrecv' ⊢
  obtain ⟨w, hp⟩ := pushSubstring_spec hrecv.content.wf seg.payload index seg.header.fin
  have hnext := hrecv.content.pushed_next (by omega) hs.payload hp
  have hnextLe := hrecv.content.next_le
  have hshortPush := hrecv.content.not_overlong (by omega) hs.payload
  have htaken : rcv.reassembler.output.accepted w = w := by
    cases hopen : rcv.reassembler.output.inputEnded with
    | false => exact hp.accepted_eq hrecv.content.wf hshortPush hopen
    | true =>
      -- the stream is complete, so nothing is assembled any more
      have hall := hflow.endedNext hopen
      have hw := length_le_of_prefix_drop hnextLe (hrecv.content.taken (by omega) hs.payload hp)
      have hnil : w = [] := List.length_eq_zero_iff.mp (by omega)
      rw [hnil, ByteStream.accepted_of_ended hopen]
  apply h.receiver
  · exact hp.capacity
  · exact TCPReceiver.noteFlags_capacity ..
  · exact h.waiting.push (h.staysInside hend (by omega)) hp hnext htaken
  · exact ⟨_, hrecv'⟩
  · intro _
    rw [hflow.send.syn]
    obtain ⟨c, hc, -⟩ := (hflow.carried seg (List.mem_append_left _ hseg)).resolve_left hpush.1
    exact List.ne_nil_of_mem hc
  · intro hset
    show (rcv.reassembler.pushSubstring seg.payload index seg.header.fin).ifEof = true
    have hset : rcv.ifFinSet = true ∨ seg.header.fin = true := by simpa using hset
    rw [hp.ifEof, Bool.or_eq_true]
    exact hset.symm.imp_right h.finEof
  · exact hp.room_le hnext

theorem receive (h : Room snd acked rcv acks)
    (hflow : Flow snd accepted acked out rcv delivered acks)
    (hlen : accepted.length < 2 ^ 31 - 2) (hseg : seg ∈ out) :
    Room snd acked (rcv.segmentReceived seg) acks := by
  by_cases hpush : rcv.Pushes seg
  · exact h.receive_push hflow hlen hseg hpush
  · obtain ⟨hsyn, hfin⟩ := hflow.skip_flags hseg hpush
    obtain ⟨written, hrecv⟩ := h.reached
    have hrecv' := hrecv.skip hpush
    rw [TCPReceiver.segmentReceived_of_not_pushes hpush] at hrecv' ⊢
    apply h.receiver
    · rw [TCPReceiver.noteFlags_reassembler]
    · exact TCPReceiver.noteFlags_capacity ..
    · rw [TCPReceiver.noteFlags_reassembler]
      exact h.waiting
    · exact ⟨_, hrecv'⟩
    · rw [TCPReceiver.noteFlags_ifSynSet, hsyn, Bool.or_false]
      exact h.synSent
    · rw [TCPReceiver.noteFlags_ifFinSet, TCPReceiver.noteFlags_reassembler, hfin, Bool.or_false]
      exact h.finEof
    · rw [TCPReceiver.noteFlags_reassembler]

/-- The acknowledgments that leave now grant what the receiver has room for now. -/
theorem sendAcks (h : Room snd acked rcv acks) {acks' moved : List TCPSegment}
    (hflow : Flow snd accepted acked out rcv delivered acks')
    (hlen : accepted.length < 2 ^ 31 - 2)
    (hmoved : ∀ s ∈ moved, s.header.ack = true → TCPConnection.Advertises rcv s) :
    Room snd acked rcv (acks ++ moved) := by
  refine { h with granted := ?_ }
  intro seg hseg hack k hk hackno
  rcases List.mem_append.mp hseg with hold | hnew
  · exact h.granted seg hold hack k hk hackno
  have hadv := hmoved seg hnew hack
  have hnext := hflow.recv.content.next_le
  obtain ⟨hsyn, hlevel⟩ := TCPReceiver.ackno_eq_wrap_ackLevel (by omega) hadv.ackno
  have hle := hflow.ackLevel_le
  rw [hflow.recv.isn hsyn, hackno, wrap_eq_iff] at hlevel
  have hk' : k = rcv.ackLevel := by omega
  have hwindow : rcv.windowSize = rcv.reassembler.capacity -
      rcv.reassembler.output.buffer.length := by
    have hfits := h.waiting.wf.out.fits
    rw [h.waiting.wf.sameCapacity] at hfits
    have hsize := h.roomy.2
    rw [← h.capacity] at hfits hsize ⊢
    exact sub64_of_le (by omega) hfits
  rw [hk', hadv.win, hwindow, TCPReceiver.ackLevel, if_pos hsyn]
  split
  · -- the FIN is acknowledged, so it has been sent
    rename_i hat
    have hset : rcv.ifFinSet = true := by
      by_contra hno
      have := hflow.finUnseen (by simpa using hno)
      omega
    exact Or.inr (hflow.finSeen hset).2.1
  · refine Or.inl ?_
    unfold StreamReassembler.room ByteStream.bufferSize
    omega

end Room

end Sponge
