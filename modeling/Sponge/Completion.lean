import Sponge.Lib.Reach
import Sponge.PairRoom

/-!
# A transfer can always be completed

Whatever has happened to two connections, as long as no stream was ended early, the segments they
have put on the wire are enough to complete what their applications have written: there is a
continuation in which the channel only delivers and the applications only read, after which each
side has the other's whole stream and its end, and nothing is outstanding.  So no loss, no
reordering and no closed window leads into a deadlock, also without the retransmission timer.

A round of the continuation takes the receiver one sequence number further: it gets the segment
that covers the number it waits for (`feeds`), or, if it has everything that was cut, its
acknowledgment lets the sender cut more (`learns`).  A FIN that has overtaken bytes is special:
the stream would end early if the bytes came in order, so the missing ones are delivered from
behind, and the one the receiver waits for last (`fillsTail`).
-/

namespace Sponge

open MachineInt Run Slices

/-! ### One segment of a direction -/

/-- The segment that covers a sequence number. -/
theorem exists_covering {segs : List TCPSegment} {n : ℕ} (h : n < seqLen segs) :
    ∃ pre seg post, segs = pre ++ seg :: post ∧ seqLen pre ≤ n ∧
      n < seqLen pre + seg.lengthInSequenceSpace := by
  induction segs using List.reverseRecOn with
  | nil => exact absurd h (Nat.not_lt_zero n)
  | append_singleton segs seg ih =>
    by_cases hn : n < seqLen segs
    · obtain ⟨pre, seg', post, hsplit, hge, hlt⟩ := ih hn
      exact ⟨pre, seg', post ++ [seg], by rw [hsplit, List.append_assoc]; rfl, hge, hlt⟩
    · simp only [seqLen_append, seqLen_cons, seqLen_nil] at h
      exact ⟨segs, seg, [], rfl, by omega, by omega⟩

/-- Created segments have length. -/
theorem Sent.eq_nil_of_seqLen {isn : WrappingInt32} {accepted : List UInt8}
    {segs rest : List TCPSegment} (h : Sent isn accepted (segs ++ rest)) (hzero : seqLen rest = 0) :
    rest = [] := by
  cases rest with
  | nil => rfl
  | cons seg rest =>
    have hne := (h segs seg rest rfl).nonempty
    rw [seqLen_cons] at hzero
    omega

namespace StreamReassembler

variable {r : StreamReassembler} {data : List UInt8} {index total : ℕ} {eof : Bool}

/-- A push after which the last byte is held, if it is still missing, is not premature. -/
theorem not_premature_of_last
    (hlast : eof = true ∨ r.ifEof = true → r.nextIndex < total → r.Holds data index (total - 1)) :
    ¬ r.Premature total data index eof := by
  intro hpre
  obtain ⟨heof, n, hn, hge, -, hrun⟩ := hpre
  have := ((hrun (total - 1)).mp (hlast heof (by omega))).2
  omega

/-- A push that holds a byte behind the one the output waits for, but not that one, is not
premature either. -/
theorem not_premature_of_gap {k : ℕ} (hmiss : ¬ r.Holds data index r.nextIndex)
    (hheld : r.Holds data index k) : ¬ r.Premature total data index eof := by
  intro hpre
  obtain ⟨-, n, -, hge, -, hrun⟩ := hpre
  obtain ⟨hk, hlt⟩ := (hrun k).mp hheld
  exact hmiss ((hrun r.nextIndex).mpr ⟨le_rfl, by omega⟩)

/-- A push that does not hold the byte the output waits for assembles nothing. -/
theorem Pushed.eq_nil_of_miss {w : List UInt8} {r' : StreamReassembler}
    (hp : Pushed r data index eof w r') (hmiss : ¬ r.Holds data index r.nextIndex) : w = [] := by
  by_contra hne
  have hpos := List.length_pos_of_ne_nil hne
  exact hmiss (hp.holds_of_lt le_rfl (by omega))

end StreamReassembler

namespace Room

open StreamReassembler

variable {snd : TCPSender} {accepted delivered : List UInt8} {acked out acks : List TCPSegment}
  {rcv : TCPReceiver} {seg s : TCPSegment} {pre post : List TCPSegment}

/-- The receiver has not assembled more than was cut. -/
theorem next_le_numRead (h : Room snd acked rcv acks)
    (hflow : Flow snd accepted acked out rcv delivered acks) :
    rcv.reassembler.nextIndex ≤ snd.stream.numRead := by
  obtain ⟨written, hrecv⟩ := h.reached
  rw [hflow.send.read]
  exact hrecv.content.next_le

/-- The FIN is acknowledged behind the last byte, after it has been sent. -/
theorem fin_of_acked (hflow : Flow snd accepted acked out rcv delivered acks)
    (hat : rcv.reassembler.nextIndex + 1 = rcv.absSeqnoFin) :
    snd.isFinSet = true ∧ rcv.reassembler.nextIndex = accepted.length := by
  have hset : rcv.ifFinSet = true := by
    by_contra hno
    have := hflow.finUnseen (by simpa using hno)
    omega
  obtain ⟨-, hfin, habs⟩ := hflow.finSeen hset
  exact ⟨hfin, by omega⟩

/-- The receiver acknowledges no more than was sent. -/
theorem ackLevel_le_nextSeqno (h : Room snd acked rcv acks)
    (hflow : Flow snd accepted acked out rcv delivered acks) : rcv.ackLevel ≤ snd.nextSeqno := by
  have hread := h.next_le_numRead hflow
  have hnext := hflow.send.next_eq
  unfold TCPReceiver.ackLevel
  split
  · rename_i hset
    rw [if_pos (h.synSent hset)] at hnext
    split
    · rename_i hat
      rw [if_pos (fin_of_acked hflow hat).1] at hnext
      omega
    · omega
  · exact Nat.zero_le _

/-- The application has read everything. -/
def Emptied (rcv : TCPReceiver) : Prop := rcv.reassembler.output.buffer = []

/-- Then everything that was cut is in the window, or assembled. -/
theorem inWindow_of_cut (h : Room snd acked rcv acks) (hempty : Emptied rcv) {k : ℕ}
    (hge : rcv.reassembler.nextIndex ≤ k) (hlt : k < snd.stream.numRead) :
    rcv.reassembler.InWindow k := by
  have hfits := h.fits
  have hpos := h.roomy.1
  refine ⟨hge, ?_⟩
  unfold room at hfits
  rw [ByteStream.bufferSize, hempty, List.length_nil] at hfits ⊢
  omega

/-- The numbers of the copy of a created segment that is on the wire. -/
structure Copy (snd : TCPSender) (accepted : List UInt8) (pre : List TCPSegment)
    (s : TCPSegment) : Prop where
  slice : StreamSlice snd.isn accepted s (payloads pre).length
  cut : (payloads pre).length + s.payload.length ≤ snd.stream.numRead
  nonempty : s.lengthInSequenceSpace ≠ 0
  close : s.header.fin = true →
    snd.isFinSet = true ∧ (payloads pre).length + s.payload.length = accepted.length
  syn : s.header.syn = pre.isEmpty
  before : seqLen pre = (if pre = [] then 0 else 1) + (payloads pre).length
  after : seqLen pre + s.lengthInSequenceSpace ≤ snd.nextSeqno

theorem copy_of_sameData (hflow : Flow snd accepted acked out rcv delivered acks)
    (hsplit : acked ++ snd.outstandingSegments = pre ++ seg :: post) (hsame : SameData s seg) :
    Copy snd accepted pre s := by
  have hsent := hflow.send.sent
  have hread := hflow.send.read
  have hnext := hflow.send.next
  have hfin := hflow.send.fin
  have hstream := congrArg List.length hflow.send.stream
  rw [hsplit] at hsent hread hnext hfin hstream
  have hplaced := hsent pre seg post rfl
  simp only [payloads_append, payloads_cons, List.length_append, seqLen_append, seqLen_cons]
    at hread hnext hstream
  refine
    { slice := hsent.slice.of_sameData hsame, cut := ?_,
      nonempty := hsame.length ▸ hplaced.nonempty, close := ?_,
      syn := hsame.syn.trans hplaced.syn, before := hplaced.seqLen_pre hsent, after := ?_ }
  · rw [hread, hsame.payload]
    omega
  · intro hset
    rw [hsame.fin] at hset
    have hsetSnd : snd.isFinSet = true := hfin.mpr ⟨seg, by simp, hset⟩
    rw [hsent.fin_last hset, (hflow.send.ended hsetSnd).2] at hstream
    rw [hsame.payload]
    exact ⟨hsetSnd, hstream⟩
  · rw [hsame.length, hnext]
    omega

theorem Copy.length_eq {snd : TCPSender} (h : Copy snd accepted pre s) :
    s.lengthInSequenceSpace = s.payload.length + (if pre = [] then 1 else 0) +
      (if s.header.fin then 1 else 0) := by
  unfold TCPSegment.lengthInSequenceSpace
  rw [h.syn]
  simp only [List.isEmpty_iff]

/-- The receiver waits for a number of this segment. -/
def Covers (rcv : TCPReceiver) (pre : List TCPSegment) (s : TCPSegment) : Prop :=
  seqLen pre ≤ rcv.ackLevel ∧ rcv.ackLevel < seqLen pre + s.lengthInSequenceSpace

/-- After the SYN: the segment contains the next byte, or its FIN is next. -/
theorem index_of_covers (h : Room snd acked rcv acks)
    (hflow : Flow snd accepted acked out rcv delivered acks) (hcopy : Copy snd accepted pre s)
    (hcovers : Covers rcv pre s) (hset : rcv.ifSynSet = true) :
    rcv.ackLevel = rcv.reassembler.nextIndex + 1 ∧
      (payloads pre).length ≤ rcv.reassembler.nextIndex ∧
      rcv.reassembler.nextIndex < (payloads pre).length + s.payload.length +
        (if s.header.fin then 1 else 0) := by
  obtain ⟨hge, hlt⟩ := hcovers
  have hbefore := hcopy.before
  have hlength := hcopy.length_eq
  have hafter := hcopy.after
  have hnext := hflow.send.next_eq
  have hread := h.next_le_numRead hflow
  have hlevel : rcv.ackLevel = rcv.reassembler.nextIndex + 1 := by
    unfold TCPReceiver.ackLevel at hlt ⊢
    rw [if_pos hset] at hlt ⊢
    split at hlt
    · -- the FIN is acknowledged, so there is nothing left to cover
      rename_i hat
      obtain ⟨hfin, hall⟩ := fin_of_acked hflow hat
      have hcut := hflow.send.numRead_le_accepted
      rw [if_pos (h.synSent hset), if_pos hfin] at hnext
      omega
    · rename_i hat
      rw [if_neg hat]
  refine ⟨hlevel, ?_⟩
  by_cases hpre : pre = []
  · rw [if_pos hpre] at hbefore hlength
    have hnone : (payloads pre).length = 0 := by
      rw [hpre]
      rfl
    omega
  · rw [if_neg hpre] at hbefore hlength
    omega

/-- If it does not contain the next byte, its FIN is all that is missing. -/
theorem fin_of_covers (h : Room snd acked rcv acks)
    (hflow : Flow snd accepted acked out rcv delivered acks) (hcopy : Copy snd accepted pre s)
    (hcovers : Covers rcv pre s) (hset : rcv.ifSynSet = true)
    (hbyte : ¬ rcv.reassembler.nextIndex < (payloads pre).length + s.payload.length) :
    s.header.fin = true ∧ (payloads pre).length + s.payload.length = accepted.length := by
  obtain ⟨-, -, hlt⟩ := h.index_of_covers hflow hcopy hcovers hset
  have hfin : s.header.fin = true := by
    by_contra hno
    rw [if_neg hno] at hlt
    omega
  exact ⟨hfin, (hcopy.close hfin).2⟩

/-- A copy of a created segment is pushed once the SYN has arrived, at its place. -/
theorem Copy.streamIndex_eq (hflow : Flow snd accepted acked out rcv delivered acks)
    (hlen : accepted.length < 2 ^ 31 - 2) (hcopy : Copy snd accepted pre s)
    (hpush : rcv.Pushes s) : (rcv.noteFlags s).streamIndex s = (payloads pre).length :=
  hflow.recv.streamIndex_eq hcopy.slice hlen hpush.2

/-- The window ends at a 64-bit number. -/
theorem edge_lt (h : Room snd acked rcv acks)
    (hflow : Flow snd accepted acked out rcv delivered acks)
    (hlen : accepted.length < 2 ^ 31 - 2) :
    rcv.reassembler.nextIndex + rcv.reassembler.capacity < 2 ^ 64 := by
  have hsize := h.roomy.2
  have hnext := hflow.recv.content.next_le
  omega

/-- **The segment that covers the number the receiver waits for is not premature**, if the
bytes behind it are held in case the FIN was seen. -/
theorem timely_of_covers (h : Room snd acked rcv acks)
    (hflow : Flow snd accepted acked out rcv delivered acks)
    (hlen : accepted.length < 2 ^ 31 - 2) (hempty : Emptied rcv)
    (hcopy : Copy snd accepted pre s) (hcovers : Covers rcv pre s)
    (htail : rcv.reassembler.ifEof = true → ∀ k, (payloads pre).length + s.payload.length ≤ k →
      k < accepted.length → k ∈ rcv.reassembler.unassembled.keys) :
    Flow.Timely accepted rcv s := by
  intro hpush
  rw [hcopy.streamIndex_eq hflow hlen hpush]
  apply not_premature_of_last
  intro heof hnext
  have hset : rcv.ifSynSet = true := by
    by_contra hno
    have hno : rcv.ifSynSet = false := by simpa using hno
    rcases heof with hfin | hseen
    · have hopen := (hflow.early hno).2.2
      rw [(hcopy.close hfin).1] at hopen
      cases hopen
    · have := (hflow.finSeen (hflow.eofSeen hseen)).1
      rw [hno] at this
      cases this
  obtain ⟨-, hge, -⟩ := h.index_of_covers hflow hcopy hcovers hset
  have hcut := hcopy.cut
  by_cases hinside : accepted.length - 1 < (payloads pre).length + s.payload.length
  · -- the segment itself carries the last byte
    exact h.waiting.holds_of_inWindow (h.edge_lt hflow hlen)
      (h.inWindow_of_cut hempty (by omega) (by omega)) (by omega) hinside
  · rcases heof with hfin | hseen
    · have := (hcopy.close hfin).2
      omega
    · exact Or.inl (htail hseen _ (by omega) (by omega))

/-- **That segment takes the receiver further.** -/
theorem level_lt_of_covers (h : Room snd acked rcv acks)
    (hflow : Flow snd accepted acked out rcv delivered acks)
    (hlen : accepted.length < 2 ^ 31 - 2) (hempty : Emptied rcv) (hmem : s ∈ out)
    (hcopy : Copy snd accepted pre s) (hcovers : Covers rcv pre s)
    (hok : Flow.Timely accepted rcv s) : rcv.ackLevel < (rcv.segmentReceived s).ackLevel := by
  have hflow' := hflow.receive hlen hmem hok
  cases hset : rcv.ifSynSet with
  | false =>
    -- the segment is the SYN
    have hzero : rcv.ackLevel = 0 := by rw [TCPReceiver.ackLevel, if_neg (by simp [hset])]
    have hpre : pre = [] := by
      have hge := hcovers.1
      have hbefore := hcopy.before
      by_contra hne
      rw [if_neg hne] at hbefore
      omega
    have hsyn : (rcv.segmentReceived s).ifSynSet = true := by
      rw [TCPReceiver.segmentReceived_ifSynSet, hcopy.syn, hpre]
      simp
    rw [hzero, TCPReceiver.ackLevel, if_pos hsyn]
    omega
  | true =>
    have hpush : rcv.Pushes s := ⟨hcopy.nonempty, by simp [hset]⟩
    obtain ⟨hlevel, hge, hlt⟩ := h.index_of_covers hflow hcopy hcovers hset
    have hindex := hcopy.streamIndex_eq hflow hlen hpush
    have hlast := hflow'.recv.content.next_le
    have hfinSeen := hflow'.finSeen
    have hsyn : (rcv.segmentReceived s).ifSynSet = true := by simp [hset]
    obtain ⟨w, hp⟩ := pushSubstring_spec h.waiting.wf s.payload (payloads pre).length
      s.header.fin
    have hnext : (rcv.segmentReceived s).reassembler.nextIndex =
        rcv.reassembler.nextIndex + w.length := by
      rw [TCPReceiver.segmentReceived_of_pushes hpush, hindex]
      exact hflow.recv.content.pushed_next (by omega) hcopy.slice.payload hp
    rw [hlevel, TCPReceiver.ackLevel, if_pos hsyn, hnext]
    by_cases hbyte : rcv.reassembler.nextIndex < (payloads pre).length + s.payload.length
    · have hroom : rcv.reassembler.output.bufferSize < rcv.reassembler.capacity := by
        rw [ByteStream.bufferSize, hempty]
        exact h.roomy.1
      have hpos := h.waiting.advances (h.edge_lt hflow hlen) hp hge hbyte hroom
      omega
    · obtain ⟨hfin, hclose⟩ := h.fin_of_covers hflow hcopy hcovers hset hbyte
      have habs := (hfinSeen (by simp [hfin])).2.2
      rw [habs, if_pos (by omega)]
      omega

/-- What lies behind the next byte does not bring it. -/
theorem not_holds_behind (h : Room snd acked rcv acks)
    (hbehind : rcv.reassembler.nextIndex < (payloads pre).length)
    (hend : (payloads pre).length + s.payload.length < 2 ^ 64) :
    ¬ rcv.reassembler.Holds s.payload (payloads pre).length rcv.reassembler.nextIndex := by
  intro hheld
  rcases hheld with hold | ⟨j, hj, heq, -⟩
  · exact h.waiting.gap hold
  · have hshort : (rcv.reassembler.slice s.payload (payloads pre).length).2.length ≤
        s.payload.length := by
      by_cases henter : rcv.reassembler.Enters (payloads pre).length
      · rw [slice_of_enters henter, List.length_take, List.length_drop]
        omega
      · rw [slice_of_not_enters henter]
        exact Nat.zero_le _
    rw [slice_fst, max_eq_left hbehind.le, u64_of_lt (by omega)] at heq
    omega

/-- **A segment behind the byte the receiver waits for is held**, is not premature, and leaves
the receiver waiting. -/
theorem holds_behind (h : Room snd acked rcv acks)
    (hflow : Flow snd accepted acked out rcv delivered acks)
    (hlen : accepted.length < 2 ^ 31 - 2) (hempty : Emptied rcv)
    (hcopy : Copy snd accepted pre s) (hset : rcv.ifSynSet = true)
    (hbehind : rcv.reassembler.nextIndex < (payloads pre).length) (hne : s.payload ≠ []) :
    Flow.Timely accepted rcv s ∧
      (rcv.segmentReceived s).reassembler.nextIndex = rcv.reassembler.nextIndex ∧
      Emptied (rcv.segmentReceived s) ∧
      ∀ k, k ∈ rcv.reassembler.unassembled.keys ∨
        (payloads pre).length ≤ k ∧ k < (payloads pre).length + s.payload.length →
          k ∈ (rcv.segmentReceived s).reassembler.unassembled.keys := by
  have hpush : rcv.Pushes s := ⟨hcopy.nonempty, by simp [hset]⟩
  have hindex := hcopy.streamIndex_eq hflow hlen hpush
  have hcut := hcopy.cut
  have hpos := List.length_pos_of_ne_nil hne
  have hfits := hcopy.slice.fits
  have hmiss : ¬ rcv.reassembler.Holds s.payload (payloads pre).length
      rcv.reassembler.nextIndex := h.not_holds_behind hbehind (by omega)
  have hheld : ∀ k, (payloads pre).length ≤ k → k < (payloads pre).length + s.payload.length →
      rcv.reassembler.Holds s.payload (payloads pre).length k := by
    intro k hge hlt
    exact h.waiting.holds_of_inWindow (h.edge_lt hflow hlen)
      (h.inWindow_of_cut hempty (by omega) (by omega)) hge hlt
  obtain ⟨w, hp⟩ := pushSubstring_spec h.waiting.wf s.payload (payloads pre).length
    s.header.fin
  have hnil := hp.eq_nil_of_miss hmiss
  have hnext := hflow.recv.content.pushed_next (by omega) hcopy.slice.payload hp
  rw [hnil, List.length_nil, Nat.add_zero] at hnext
  rw [TCPReceiver.segmentReceived_of_pushes hpush, hindex]
  refine ⟨?_, hnext, ?_, ?_⟩
  · intro _
    rw [hindex]
    exact not_premature_of_gap hmiss (hheld _ le_rfl (by omega))
  · show (rcv.reassembler.pushSubstring _ _ _).output.buffer = []
    have hnone : rcv.reassembler.output.accepted w = [] := by
      rw [hnil]
      exact List.prefix_nil.mp (ByteStream.accepted_prefix _ [])
    rw [hp.output_buffer, hnone, List.append_nil]
    exact hempty
  · intro k hk
    show k ∈ (rcv.reassembler.pushSubstring s.payload _ s.header.fin).unassembled.keys
    have hholds : rcv.reassembler.Holds s.payload (payloads pre).length k :=
      hk.elim Or.inl fun hrange => hheld k hrange.1 hrange.2
    obtain ⟨b, hb⟩ := SortedMap.mem_keys.mp ((mem_keys_intake _ _ _ k).mpr hholds)
    refine SortedMap.mem_keys.mpr ⟨b, (hp.left _).mpr ⟨hb, ?_⟩⟩
    rw [hnil, List.length_nil]
    simp only
    omega

end Room

/-! ### An acknowledgment and its effect -/

namespace TCPSender

variable {accepted : List UInt8} {acked : List TCPSegment} {st : TCPSender}

/-- `fill_window` sends something if there is something to send and room in the window. -/
theorem SenderInv.nextSeqno_lt_fillWindow (h : SenderInv accepted acked st)
    (hsyn : st.isSynSet = true) (hedge : st.nextSeqno < st.windowEdge) (hmore : ¬ st.Drained) :
    st.nextSeqno < st.fillWindow.nextSeqno := by
  have hmay : st.mayFill = true := by simp [mayFill, hedge]
  have hlen : st.nextSegment.1.lengthInSequenceSpace ≠ 0 := fun hzero =>
    hmore ((nextSegment_length_zero_iff (h.synSet_iff.mp hsyn) hedge).mp hzero)
  have hpushed := (h.pushSegment hmay hlen).nextSeqno_le_fillWindow
  have hnext : (st.nextSegment.2.pushSegment st.nextSegment.1).nextSeqno =
      st.nextSeqno + st.nextSegment.1.lengthInSequenceSpace := u64_of_lt (h.next_add_lt hmay)
  rw [fillWindow_eq, if_pos hmay, if_neg hlen]
  omega

/-- An acknowledgment of everything sent leaves nothing outstanding. -/
theorem SenderInv.acked_all {st' : TCPSender} {window : UInt16} {popped : List TCPSegment}
    (h : SenderInv accepted acked st) (hnear : Near acked st)
    (ha : Acked st st' st.nextSeqno window popped) : st'.outstandingSegments = [] := by
  by_contra hne
  obtain ⟨seg, rest, hleft⟩ := List.exists_cons_of_ne_nil hne
  have hnext := h.next
  rw [ha.outstanding, hleft] at hnext
  rcases h.left_gt hnear ha hleft with hgt | hgt
  · simp only [seqLen_append, seqLen_cons] at hnext hgt
    omega
  · omega

/-- What is sent after such an acknowledgment: something, if there is something to send; if
`next_seqno` has not moved, nothing. -/
theorem SenderInv.filled_after_all {st' : TCPSender} {window : UInt16}
    {popped : List TCPSegment} (h : SenderInv accepted acked st) (hnear : Near acked st)
    (hsyn : st.isSynSet = true) (hsmall : st.nextSeqno < 2 ^ 32)
    (ha : Acked st st' st.nextSeqno window popped) :
    (¬ st.Drained → st.nextSeqno < st'.fillWindow.nextSeqno) ∧
      (st'.fillWindow.nextSeqno = st.nextSeqno → st'.fillWindow.outstandingSegments = []) := by
  have h' := h.ack ha h.next_lt
  have hnone := h.acked_all hnear ha
  refine ⟨fun hmore => ?_, fun hsame => ?_⟩
  · have hmore' : ¬ st'.Drained := by
      rw [Drained, ha.stream, ha.finSet]
      exact hmore
    have hwin := (if window = 0 then (1 : UInt16) else window).toNat_lt
    have hone := toNat_window window
    have hedge : st'.nextSeqno < st'.windowEdge := by
      rw [windowEdge, ha.recent, ha.window, ha.nextSeqno, u64_of_lt (by omega)]
      omega
    have hlt := h'.nextSeqno_lt_fillWindow (ha.synSet.trans hsyn) hedge hmore'
    rwa [ha.nextSeqno] at hlt
  · obtain ⟨new, hf⟩ := fillWindow_filled st'
    have hnext := h'.next
    have hnext' := h'.fillWindow.next
    rw [hf.outstanding, hnone, List.nil_append]
    rw [ha.nextSeqno, hnone, List.append_nil] at hnext
    rw [hf.outstanding, hnone, List.nil_append, hsame, hnext, seqLen_append (acked ++ popped)]
      at hnext'
    have hsent := h'.fillWindow.sent
    rw [hf.outstanding, hnone, List.nil_append] at hsent
    exact hsent.eq_nil_of_seqLen (by omega)

/-- The first segment of a sender is left in its queue, and is no reset. -/
theorem SenderInv.exists_queued_of_unsent {accepted : List UInt8} {acked : List TCPSegment}
    {st : TCPSender} (h : SenderInv accepted acked st) (hno : st.isSynSet = false) :
    ∃ s ∈ st.fillWindow.segmentsOut, s.header.rst = false := by
  obtain ⟨new, hf⟩ := fillWindow_filled st
  have hnone : acked ++ st.outstandingSegments = [] := by
    by_contra hne
    exact absurd ((h.syn.mpr hne).symm.trans hno) (by decide)
  have hcreated := h.fillWindow.syn.mp h.fillWindow_sends_syn
  rw [hf.outstanding, ← List.append_assoc, hnone, List.nil_append] at hcreated
  obtain ⟨s, hs⟩ := List.exists_mem_of_ne_nil new hcreated
  have hmem : s ∈ acked ++ st.fillWindow.outstandingSegments := by
    rw [hf.outstanding]
    exact List.mem_append_right _ (List.mem_append_right _ hs)
  obtain ⟨pre, post, -, hplaced⟩ := h.fillWindow.sent.of_mem hmem
  refine ⟨s, ?_, by rw [hplaced.header]⟩
  rw [hf.segmentsOut]
  exact List.mem_append_right _ hs

end TCPSender

namespace TCPConnection

open TCPSender

variable {c : TCPConnection} {seg : TCPSegment}

/-- What an acknowledgment makes of the sender, once the SYN is sent: the answer to the segment
only adds an empty segment to the queue. -/
theorem sender_of_ack (hok : SenderOk c.sender) (hsyn : c.sender.isSynSet = true)
    (hack : seg.header.ack = true) (hrst : seg.header.rst = false) :
    (connStep c (.segment seg)).sender =
      { (c.sender.ackReceived seg.header.ackno seg.header.win).fillWindow with
        segmentsOut := [] } := by
  obtain ⟨popped, ha⟩ := ackReceived_acked c.sender seg.header.ackno seg.header.win
  have hsyn' : (c.sender.ackReceived seg.header.ackno seg.header.win).isSynSet = true :=
    ha.synSet.trans hsyn
  have hfilled : (c.sender.ackReceived seg.header.ackno seg.header.win).fillWindow.isSynSet =
      true := by
    obtain ⟨accepted, acked, hinv⟩ := hok.operation (.ackReceived seg.header.ackno seg.header.win)
    exact hinv.fillWindow_sends_syn
  have hreset : c.noteReset seg = c := if_neg (by simp [hrst])
  have htake : ∀ c' : TCPConnection, c'.sender = c.sender → (c'.takeAck seg).sender =
      (c.sender.ackReceived seg.header.ackno seg.header.win).fillWindow := by
    intro c' hc'
    rw [takeAck, if_pos hack, hc']
    exact if_pos hsyn'
  have hreply : ∀ c' : TCPConnection, c'.sender.isSynSet = true →
      { (c'.replyToData seg).sender with segmentsOut := [] } =
          { c'.sender with segmentsOut := [] } ∧
        (c'.replyToData seg).sender.isSynSet = true := by
    intro c' hc'
    rcases c'.replyToData_cases seg with ⟨-, heq⟩ | ⟨-, ⟨hno, -⟩ | heq⟩
    · rw [heq]
      exact ⟨rfl, hc'⟩
    · exact absurd (hc'.symm.trans hno) (by decide)
    · rw [heq]
      exact ⟨rfl, hc'⟩
  have hkeep : ∀ c' : TCPConnection,
      { (c'.replyToKeepAlive seg).sender with segmentsOut := [] } =
        { c'.sender with segmentsOut := [] } := by
    intro c'
    rcases c'.replyToKeepAlive_cases seg with ⟨-, heq⟩ | ⟨-, heq⟩ <;> rw [heq]
    rfl
  show { (c.processSegment seg).sender with segmentsOut := [] } = _
  rw [processSegment]
  simp only [noteInboundEnd_sender]
  rw [hkeep, (hreply _ ?_).1, htake _ (by rw [hreset])]
  rw [htake _ (by rw [hreset])]
  exact hfilled

/-- The segments that the sender queues while a segment is processed go out with the
acknowledgment and the window of the receiver. -/
theorem advertised_of_queued (hset : (connStep c (.segment seg)).receiver.ifSynSet = true)
    {s : TCPSegment} (hs : s ∈ (c.processSegment seg).sender.segmentsOut) :
    stamp (connStep c (.segment seg)).receiver s ∈ enqueued c (.segment seg) ∧
      Advertises (connStep c (.segment seg)).receiver
        (stamp (connStep c (.segment seg)).receiver s) := by
  constructor
  · show _ ∈ ((c.processSegment seg).sendSegments).segmentsOut.drop c.segmentsOut.length
    rw [sendSegments, (processSegment_frame c seg).2.1, List.drop_left]
    exact List.mem_map_of_mem hs
  · cases hackno : (connStep c (.segment seg)).receiver.ackno with
    | none => simp [TCPReceiver.ackno, hset] at hackno
    | some ackno => exact stamp_advertises hackno s

/-- The answer to the data of a segment is given after operations on the sender, and stays in
its queue. -/
theorem queued_of_reply (c : TCPConnection) (seg : TCPSegment) :
    ∃ mid : TCPConnection, Operated c.sender mid.sender ∧
      (mid.replyToData seg).sender.segmentsOut ⊆ (c.processSegment seg).sender.segmentsOut := by
  have hkeep : ∀ c' : TCPConnection, c'.sender.segmentsOut ⊆
      (c'.replyToKeepAlive seg).sender.segmentsOut := by
    intro c'
    rcases c'.replyToKeepAlive_cases seg with ⟨-, heq⟩ | ⟨-, heq⟩ <;> rw [heq]
    · exact List.subset_append_left _ _
    · exact List.Subset.refl _
  refine ⟨({ c.noteReset seg with
    receiver := (c.noteReset seg).receiver.segmentReceived seg } : TCPConnection).takeAck seg,
    ?_, ?_⟩
  · apply operated_takeAck
    exact operated_noteReset c seg
  · rw [processSegment]
    simp only [noteInboundEnd_sender]
    exact hkeep _

/-- **A segment with length is acknowledged**, by an empty segment or, if it has not been sent,
by the own SYN. -/
theorem reply_of_segment (hok : SenderOk c.sender) (hlen : seg.lengthInSequenceSpace ≠ 0)
    (hset : (connStep c (.segment seg)).receiver.ifSynSet = true) :
    ∃ s ∈ enqueued c (.segment seg), s.header.rst = false ∧
      Advertises (connStep c (.segment seg)).receiver s ∧
      (s.lengthInSequenceSpace = 0 ∨ c.sender.isSynSet = false) := by
  obtain ⟨mid, hops, hsub⟩ := queued_of_reply c seg
  -- it is enough to find the segment in the sender's queue
  have hfound : ∃ s ∈ (mid.replyToData seg).sender.segmentsOut, s.header.rst = false ∧
      (s.lengthInSequenceSpace = 0 ∨ c.sender.isSynSet = false) := by
    rcases mid.replyToData_cases seg with ⟨hzero, -⟩ | ⟨-, ⟨hno, heq⟩ | heq⟩
    · exact absurd hzero hlen
    · -- the own SYN
      have hunsent : c.sender.isSynSet = false := by
        by_contra hyes
        have := hops.synSet hok (by simpa using hyes)
        exact absurd (this.symm.trans hno) (by decide)
      obtain ⟨accepted, acked, hinv⟩ := hok.operated hops
      obtain ⟨s, hs, hrst⟩ := hinv.exists_queued_of_unsent hno
      rw [heq]
      exact ⟨s, hs, hrst, Or.inr hunsent⟩
    · -- the empty segment
      rw [heq]
      exact ⟨_, List.mem_append_right _ (List.mem_singleton_self _), rfl, Or.inl rfl⟩
  obtain ⟨s, hs, hrst, hkind⟩ := hfound
  obtain ⟨hmem, hadv⟩ := advertised_of_queued hset (hsub hs)
  refine ⟨_, hmem, ?_, hadv, ?_⟩
  · rw [Endpoint.stamp_rst, hrst]
  · rw [(Endpoint.stamp_sameData _ s).length]
    exact hkind

end TCPConnection

/-! ### Steps that write nothing -/

/-- A segment never lowers what the receiver acknowledges. -/
theorem Flow.ackLevel_receive {snd : TCPSender} {accepted delivered : List UInt8}
    {acked out acks : List TCPSegment} {rcv : TCPReceiver} {seg : TCPSegment}
    (h : Flow snd accepted acked out rcv delivered acks)
    (hcap : rcv.capacity = rcv.reassembler.capacity) (hlen : accepted.length < 2 ^ 31 - 2)
    (hseg : seg ∈ out) : rcv.ackLevel ≤ (rcv.segmentReceived seg).ackLevel := by
  by_cases hpush : rcv.Pushes seg
  · obtain ⟨index, hs, hclose⟩ := h.slice_of_mem hseg hpush.1
    have hpeer : TCPReceiver.PeerInv snd.isn accepted rcv :=
      ⟨⟨delivered, h.recv⟩, hcap, fun hset => (h.finSeen hset).2.2, h.finUnseen⟩
    exact (hpeer.push hlen hs (fun hfin => (hclose hfin).2) hpush).2.level
  · obtain ⟨hsyn, hfin⟩ := h.skip_flags hseg hpush
    have habs : (rcv.noteFlags seg).absSeqnoFin = rcv.absSeqnoFin := by
      rw [TCPReceiver.noteFlags_absSeqnoFin, if_neg (by simp [hfin])]
    rw [TCPReceiver.segmentReceived_of_not_pushes hpush, TCPReceiver.ackLevel,
      TCPReceiver.ackLevel, TCPReceiver.noteFlags_ifSynSet, habs,
      TCPReceiver.noteFlags_reassembler, hsyn, Bool.or_false]

namespace TCPConnection

open TCPSender

variable {c : TCPConnection} {seg : TCPSegment}

/-- A segment does not end the outbound stream. -/
theorem inputEnded_segment (c : TCPConnection) (seg : TCPSegment) :
    (connStep c (.segment seg)).sender.stream.inputEnded = c.sender.stream.inputEnded := by
  show (c.processSegment seg).sender.stream.inputEnded = _
  apply processSegment_keeps
    (I := fun st => st.stream.inputEnded = c.sender.stream.inputEnded)
  · intro st op hop h
    cases op with
    | setError => exact h
    | fillWindow =>
      obtain ⟨new, hf⟩ := fillWindow_filled st
      exact hf.inputEnded.trans h
    | ackReceived ackno window =>
      obtain ⟨popped, ha⟩ := ackReceived_acked st ackno window
      rw [senderStep, ha.stream]
      exact h
    | sendEmptySegment => exact h
    | write data => exact hop.elim
    | endInput => exact hop.elim
    | tick ms => exact hop.elim
    | popSegment => exact hop.elim
  · rfl

theorem receiver_segment (hrst : seg.header.rst = false) :
    (connStep c (.segment seg)).receiver = c.receiver.segmentReceived seg := by
  show (c.processSegment seg).receiver = _
  rw [(processSegment_frame c seg).1, noteReset, if_neg (by simp [hrst])]

end TCPConnection

namespace Pair

open TCPConnection Endpoint TCPSender

/-- The channel delivers, or an application reads. -/
def PairOp.Moves : PairOp → Prop
  | .deliver _ _ => True
  | .call _ (.read _) => True
  | .call _ _ => False

/-- Such a step, if it does not end a stream early. -/
def Proceeds (p : Pair) (op : PairOp) : Prop := op.Moves ∧ DeliverOk p op

/-- `q` is reached from `p` by such steps. -/
structure Continues (p q : Pair) : Prop where
  reached : Reaches pairStep Proceeds p q
  ready : Ready q
  accepted : ∀ s, (q s).accepted = (p s).accepted
  ended : ∀ s, (q s).conn.sender.stream.inputEnded = (p s).conn.sender.stream.inputEnded
  synSet : ∀ s, (p s).conn.sender.isSynSet = true → (q s).conn.sender.isSynSet = true
  acked : ∀ s, (p s).acked <+: (q s).acked
  level : ∀ s, (p s).conn.receiver.ackLevel ≤ (q s).conn.receiver.ackLevel

variable {p q r : Pair} {s : Side} {seg : TCPSegment}

theorem Continues.refl (h : Ready p) : Continues p p :=
  ⟨Reaches.refl p, h, fun _ => rfl, fun _ => rfl, fun _ => id, fun _ => List.prefix_rfl,
    fun _ => le_rfl⟩

theorem Continues.trans (h : Continues p q) (h' : Continues q r) : Continues p r where
  reached := h.reached.trans h'.reached
  ready := h'.ready
  accepted := fun s => (h'.accepted s).trans (h.accepted s)
  ended := fun s => (h'.ended s).trans (h.ended s)
  synSet := fun s hsyn => h'.synSet s (h.synSet s hsyn)
  acked := fun s => (h.acked s).trans (h'.acked s)
  level := fun s => (h.level s).trans (h'.level s)

/-- One side acts, and the rest of what a continuation keeps is known of that side. -/
theorem Ready.continues (h : Ready p) {op : PairOp} (hok : Proceeds p op) {cop : ConnOp}
    (hstep : pairStep p op = p.actAt s cop) (haccepted : acceptedBy (p s).conn cop = [])
    (hended : (connStep (p s).conn cop).sender.stream.inputEnded =
      (p s).conn.sender.stream.inputEnded)
    (hlevel : (p s).conn.receiver.ackLevel ≤ (connStep (p s).conn cop).receiver.ackLevel) :
    Continues p (p.actAt s cop) := by
  have hsame : ∀ s', (p.actAt s cop s').accepted = (p s').accepted := by
    intro s'
    rcases eq_or_eq_other s s' with rfl | rfl
    · rw [actAt_self, act, haccepted, List.append_nil]
    · rw [actAt_other]
  have hready : Ready (p.actAt s cop) := by
    rw [← hstep]
    refine h.step ?_ hok.2
    rw [hstep]
    intro s'
    rw [hsame]
    exact h.bounded s'
  refine ⟨hstep ▸ (Reaches.refl p).concat hok, hready, hsame, fun s' => ?_, fun s' => ?_,
    fun s' => ?_, fun s' => ?_⟩
  all_goals rcases eq_or_eq_other s s' with rfl | rfl
  · rw [actAt_self]
    exact hended
  · rw [actAt_other]
  · rw [actAt_self]
    exact synSet_connStep (h.senderOk s')
  · rw [actAt_other]
    exact id
  · rw [actAt_self]
    exact List.prefix_append ..
  · rw [actAt_other]
  · rw [actAt_self]
    exact hlevel
  · rw [actAt_other]

theorem Ready.read (h : Ready p) (s : Side) (len : ℕ) : Continues p (p.actAt s (.read len)) := by
  have hok : Proceeds p (.call s (.read len)) := ⟨trivial, trivial⟩
  exact h.continues hok rfl rfl rfl le_rfl

theorem Ready.deliver (h : Ready p) (s : Side) (hseg : seg ∈ (p s.other).sent)
    (hok : Flow.Timely (p s.other).accepted (p s).conn.receiver seg) :
    Continues p (p.actAt s (.segment seg)) := by
  obtain ⟨i, hget⟩ := List.getElem?_of_mem hseg
  have hproceeds : Proceeds p (.deliver s i) := by
    refine ⟨trivial, ?_⟩
    intro seg' hget'
    rw [hget] at hget'
    cases hget'
    exact hok
  have hstep : pairStep p (.deliver s i) = p.actAt s (.segment seg) := by
    simp only [pairStep, Pair.deliver, hget]
  refine h.continues hproceeds hstep rfl (inputEnded_segment _ _) ?_
  -- a reset only marks the stream
  have hflow := (h.coupled s).2
  have hcap := (h.roomy s.other).capacity
  rw [Side.other_other] at hcap
  show _ ≤ ((p s).conn.processSegment seg).receiver.ackLevel
  rw [(processSegment_frame (p s).conn seg).1]
  rcases (p s).conn.noteReset_cases seg with ⟨-, hr⟩ | ⟨-, hr⟩ <;> rw [hr]
  · exact hflow.errorOut.ackLevel_receive hcap (h.bounded s.other) hseg
  · exact hflow.ackLevel_receive hcap (h.bounded s.other) hseg

/-! ### A round -/

/-- The application at one side reads until nothing is left. -/
theorem Ready.drains (h : Ready p) (s : Side) :
    ∃ q, Continues p q ∧ q s.other = p s.other ∧ Room.Emptied (q s).conn.receiver ∧
      (q s).conn.receiver.ackLevel = (p s).conn.receiver.ackLevel := by
  induction hn : (p s).conn.receiver.reassembler.output.buffer.length generalizing p with
  | zero =>
    exact ⟨p, Continues.refl h, rfl, List.length_eq_zero_iff.mp hn, rfl⟩
  | succ n ih =>
    have hread := h.read s 1
    have hleft : (p.actAt s (.read 1) s).conn.receiver.reassembler.output.buffer.length = n := by
      rw [actAt_self]
      show ((p s).conn.receiver.reassembler.output.buffer.drop
        (intCount (min 1 (p s).conn.receiver.reassembler.output.buffer.length))).length = n
      rw [hn, intCount_of_lt (by omega), List.length_drop, hn]
      omega
    obtain ⟨q, hq, hother, hempty, hlevel⟩ := ih hread.ready hleft
    refine ⟨q, hread.trans hq, ?_, hempty, ?_⟩
    · rw [hother, actAt_other]
    · rw [hlevel, actAt_self]
      rfl

/-- The direction from `s`, as it is known of a pair. -/
theorem Ready.flow (h : Ready p) (s : Side) : Linked (p s) (p s.other) := (h.coupled s).1

/-- A created segment is on the wire. -/
theorem Ready.copy (h : Ready p) (s : Side) {pre post : List TCPSegment}
    (hsplit : (p s).acked ++ (p s).conn.sender.outstandingSegments = pre ++ seg :: post) :
    ∃ c ∈ (p s).sent, c.header.rst = false ∧ SameData c seg ∧
      Room.Copy (p s).conn.sender (p s).accepted pre c := by
  obtain ⟨c, hc, hsame, hrst⟩ := h.archived s seg (by rw [hsplit]; simp)
  exact ⟨c, hc, hrst, hsame, Room.copy_of_sameData (h.flow s) hsplit hsame⟩

/-- What a delivery to the other side does, without a reset. -/
theorem Ready.deliverTo (h : Ready p) (s : Side) (hseg : seg ∈ (p s).sent)
    (hrst : seg.header.rst = false)
    (hok : Flow.Timely (p s).accepted (p s.other).conn.receiver seg) :
    ∃ q, Continues p q ∧ q s = p s ∧
      q s.other = (p s.other).act (.segment seg) ∧
      (q s.other).conn.receiver = (p s.other).conn.receiver.segmentReceived seg := by
  have hmem : seg ∈ (p s.other.other).sent := by rwa [Side.other_other]
  have hcont := h.deliver s.other hmem (by rwa [Side.other_other])
  refine ⟨_, hcont, ?_, actAt_self .., ?_⟩
  · have hsame := actAt_other p s.other (.segment seg)
    rwa [Side.other_other] at hsame
  · rw [actAt_self]
    exact receiver_segment hrst

/-- **The bytes behind the missing one are delivered first**, as far as they go. -/
theorem Ready.fillsTail (h : Ready p) (s : Side) {pre : List TCPSegment}
    (tail : List TCPSegment)
    (hsplit : (p s).acked ++ (p s).conn.sender.outstandingSegments = pre ++ tail)
    (hset : (p s.other).conn.receiver.ifSynSet = true)
    (hempty : Room.Emptied (p s.other).conn.receiver)
    (hbehind : (p s.other).conn.receiver.reassembler.nextIndex < (payloads pre).length) :
    ∃ q, Continues p q ∧ q s = p s ∧ (q s.other).conn.receiver.ifSynSet = true ∧
      Room.Emptied (q s.other).conn.receiver ∧
      (q s.other).conn.receiver.reassembler.nextIndex =
        (p s.other).conn.receiver.reassembler.nextIndex ∧
      ∀ k, (payloads pre).length ≤ k → k < (payloads (pre ++ tail)).length →
        k ∈ (q s.other).conn.receiver.reassembler.unassembled.keys := by
  induction tail generalizing pre with
  | nil =>
    refine ⟨p, Continues.refl h, rfl, hset, hempty, rfl, ?_⟩
    intro k hge hlt
    rw [List.append_nil] at hlt
    omega
  | cons seg tail ih =>
    have hmore : payloads (pre ++ [seg]) = payloads pre ++ seg.payload := by simp
    have hwhole : pre ++ [seg] ++ tail = pre ++ seg :: tail := by simp
    obtain ⟨q, hq, hself, hset', hempty', hnext, hheld⟩ := ih (hsplit.trans hwhole.symm)
      (by rw [hmore, List.length_append]; omega)
    rw [hwhole, hmore, List.length_append] at hheld
    by_cases hnone : seg.payload = []
    · rw [hnone, List.length_nil, Nat.add_zero] at hheld
      exact ⟨q, hq, hself, hset', hempty', hnext, hheld⟩
    · -- this segment comes after those behind it
      have hsplit' : (q s).acked ++ (q s).conn.sender.outstandingSegments =
          pre ++ seg :: tail := by rw [hself, hsplit]
      obtain ⟨c, hc, hrst, hsame, hcopy⟩ := hq.ready.copy s hsplit'
      have hroom := hq.ready.roomy s
      obtain ⟨hok, hnext', hempty'', hkeys⟩ := hroom.holds_behind (hq.ready.flow s)
        (hq.ready.bounded s) hempty' hcopy hset' (by rw [hnext]; exact hbehind)
        (by rw [hsame.payload]; exact hnone)
      obtain ⟨q', hq', hself', -, hrecv⟩ := hq.ready.deliverTo s hc hrst hok
      refine ⟨q', hq.trans hq', hself'.trans hself, ?_, ?_, ?_, ?_⟩ <;> rw [hrecv]
      · simp [hset']
      · exact hempty''
      · exact hnext'.trans hnext
      · intro k hge hlt
        apply hkeys
        rw [hsame.payload]
        by_cases hk : k < (payloads pre).length + seg.payload.length
        · exact Or.inr ⟨hge, hk⟩
        · exact Or.inl (hheld k (by omega) hlt)

/-- The receiver gets the segment it waits for; its application has read everything, and the
bytes behind that segment are held in case the FIN was seen. -/
theorem Ready.feedsWith (h : Ready p) (s : Side) {pre post : List TCPSegment}
    (hsplit : (p s).acked ++ (p s).conn.sender.outstandingSegments = pre ++ seg :: post)
    (hempty : Room.Emptied (p s.other).conn.receiver)
    (hge : seqLen pre ≤ (p s.other).conn.receiver.ackLevel)
    (hlt : (p s.other).conn.receiver.ackLevel < seqLen pre + seg.lengthInSequenceSpace)
    (htail : (p s.other).conn.receiver.reassembler.ifEof = true →
      ∀ k, (payloads pre).length + seg.payload.length ≤ k → k < (p s).accepted.length →
        k ∈ (p s.other).conn.receiver.reassembler.unassembled.keys) :
    ∃ q, Continues p q ∧
      (p s.other).conn.receiver.ackLevel < (q s.other).conn.receiver.ackLevel := by
  obtain ⟨c, hc, hrst, hsame, hcopy⟩ := h.copy s hsplit
  have hroom := h.roomy s
  have hcovers : Room.Covers (p s.other).conn.receiver pre c :=
    ⟨hge, by rw [hsame.length]; exact hlt⟩
  have hok := hroom.timely_of_covers (h.flow s) (h.bounded s) hempty hcopy hcovers
    (by rw [hsame.payload]; exact htail)
  obtain ⟨q, hq, -, -, hrecv⟩ := h.deliverTo s hc hrst hok
  refine ⟨q, hq, ?_⟩
  rw [hrecv]
  exact hroom.level_lt_of_covers (h.flow s) (h.bounded s) hempty hc hcopy hcovers hok

/-- **What has been cut reaches the receiver**, one sequence number at least. -/
theorem Ready.feeds (h : Ready p) (s : Side)
    (hlt : (p s.other).conn.receiver.ackLevel < (p s).conn.sender.nextSeqno) :
    ∃ q, Continues p q ∧
      (p s.other).conn.receiver.ackLevel < (q s.other).conn.receiver.ackLevel := by
  obtain ⟨q, hq, hself, hempty, hlevel⟩ := h.drains s.other
  rw [Side.other_other] at hself
  rw [← hself, ← hlevel] at hlt
  rw [← hlevel]
  have hready := hq.ready
  have hroom := hready.roomy s
  have hflow := hready.flow s
  rw [hflow.send.next] at hlt
  obtain ⟨pre, seg, post, hsplit, hge, hcover⟩ := exists_covering hlt
  obtain ⟨c, -, -, hsame, hcopy⟩ := hready.copy s hsplit
  have hdone : ∀ {q'}, Continues q q' → (∃ q'', Continues q' q'' ∧
      (q s.other).conn.receiver.ackLevel < (q'' s.other).conn.receiver.ackLevel) →
      ∃ q'', Continues p q'' ∧
        (q s.other).conn.receiver.ackLevel < (q'' s.other).conn.receiver.ackLevel := by
    intro q' hq' hmore
    obtain ⟨q'', hq'', hgt⟩ := hmore
    exact ⟨q'', (hq.trans hq').trans hq'', hgt⟩
  by_cases htail : (q s.other).conn.receiver.reassembler.ifEof = true ∧
      (q s.other).conn.receiver.reassembler.nextIndex <
        (payloads pre).length + seg.payload.length
  · -- the FIN has overtaken bytes: those behind the missing one go first
    obtain ⟨heof, hbyte⟩ := htail
    obtain ⟨hset, hfin, -⟩ := hflow.finSeen (hflow.eofSeen heof)
    have hmore : payloads (pre ++ [seg]) = payloads pre ++ seg.payload := by simp
    have hwhole : pre ++ [seg] ++ post = pre ++ seg :: post := by simp
    obtain ⟨q', hq', hself', -, hempty', hnext', hheld⟩ := hready.fillsTail s post
      (hsplit.trans hwhole.symm) hset hempty (by rw [hmore, List.length_append]; exact hbyte)
    rw [hwhole, ← hsplit, ← hflow.send.read, hflow.send.numRead_eq_of_fin hfin, hmore,
      List.length_append] at hheld
    refine hdone hq' ?_
    by_cases hgt : (q s.other).conn.receiver.ackLevel < (q' s.other).conn.receiver.ackLevel
    · exact ⟨q', Continues.refl hq'.ready, hgt⟩
    · have hsame' : (q' s.other).conn.receiver.ackLevel =
          (q s.other).conn.receiver.ackLevel := le_antisymm (by omega) (hq'.level _)
      rw [← hsame']
      refine hq'.ready.feedsWith s (by rw [hself', hsplit]) hempty' (by omega) (by omega) ?_
      intro _ k hk hkN
      rw [hself'] at hkN
      exact hheld k hk hkN
  · refine hdone (Continues.refl hready) ?_
    refine hready.feedsWith s hsplit hempty hge hcover ?_
    intro heof k hk hkN
    -- only the FIN is missing, so there is nothing behind
    have hset := (hflow.finSeen (hflow.eofSeen heof)).1
    have hcovers : Room.Covers (q s.other).conn.receiver pre c :=
      ⟨hge, by rw [hsame.length]; exact hcover⟩
    have hclose := (hroom.fin_of_covers hflow hcopy hcovers hset
      (by rw [hsame.payload]; exact fun hbyte => htail ⟨heof, hbyte⟩)).2
    rw [hsame.payload] at hclose
    omega

/-- A segment that was sent before can be sent again to a receiver that has everything. -/
theorem Ready.timely_of_all (h : Ready p) (s : Side) {pre : List TCPSegment}
    (hcopy : Room.Copy (p s).conn.sender (p s).accepted pre seg)
    (hsyn : (p s).conn.sender.isSynSet = true)
    (hall : (p s.other).conn.receiver.ackLevel = (p s).conn.sender.nextSeqno) :
    Flow.Timely (p s).accepted (p s.other).conn.receiver seg := by
  have hflow := h.flow s
  intro hpush
  rw [hcopy.streamIndex_eq hflow (h.bounded s) hpush]
  apply StreamReassembler.not_premature_of_last
  intro heof hnext
  have hfin : (p s).conn.sender.isFinSet = true := heof.elim (fun hf => (hcopy.close hf).1)
    fun hseen => (hflow.finSeen (hflow.eofSeen hseen)).2.1
  have hsent := hflow.send.next_eq
  rw [if_pos hsyn, if_pos hfin, hflow.send.numRead_eq_of_fin hfin, ← hall,
    TCPReceiver.ackLevel] at hsent
  split at hsent
  · split at hsent <;> omega
  · omega

/-- The answer of a side that has not sent its SYN before does not end the stream. -/
theorem Ready.timely_of_reply (h : Ready p) (s : Side) (hmem : seg ∈ (p s.other).sent)
    (hkind : seg.lengthInSequenceSpace = 0 ∨ (p s).conn.receiver.ifSynSet = false) :
    Flow.Timely (p s.other).accepted (p s).conn.receiver seg := by
  have hflow := (h.coupled s).2
  intro hpush hpre
  rcases hkind with hzero | hunset
  · exact hpush.1 hzero
  · rcases hpre.1 with hfin | heof
    · obtain ⟨index, -, hclose⟩ := hflow.slice_of_mem hmem hpush.1
      have hopen := (hflow.early hunset).2.2
      rw [(hclose hfin).1] at hopen
      cases hopen
    · have hset := (hflow.finSeen (hflow.eofSeen heof)).1
      rw [hunset] at hset
      cases hset

/-- A segment from the other side that acknowledges everything sent, and can be delivered. -/
structure AcksAll (p : Pair) (s : Side) (seg : TCPSegment) : Prop where
  mem : seg ∈ (p s.other).sent
  rst : seg.header.rst = false
  ack : seg.header.ack = true
  ackno : seg.header.ackno = wrap (p s).conn.sender.nextSeqno (p s).conn.sender.isn
  timely : Flow.Timely (p s.other).accepted (p s).conn.receiver seg

/-- **A receiver that has everything says so when it gets a segment once more.** -/
theorem Ready.acknowledges (h : Ready p) (s : Side) (hsyn : (p s).conn.sender.isSynSet = true)
    (hall : (p s.other).conn.receiver.ackLevel = (p s).conn.sender.nextSeqno) :
    ∃ q reply, Continues p q ∧ q s = p s ∧ AcksAll q s reply ∧
      (reply.lengthInSequenceSpace = 0 ∨ (p s.other).conn.sender.isSynSet = false) := by
  have hsend := (h.flow s).send
  -- the first segment is delivered once more
  obtain ⟨seg, rest, hfirst⟩ := List.exists_cons_of_ne_nil (hsend.syn.mp hsyn)
  have hsplit : (p s).acked ++ (p s).conn.sender.outstandingSegments = [] ++ seg :: rest := hfirst
  obtain ⟨c, hc, hrst, -, hcopy⟩ := h.copy s hsplit
  obtain ⟨q, hq, hself, hact, hrecv⟩ :=
    h.deliverTo s hc hrst (h.timely_of_all s hcopy hsyn hall)
  have hlevel : (q s.other).conn.receiver.ackLevel = (p s).conn.sender.nextSeqno := by
    have hup := hq.level s.other
    have hdown := (hq.ready.roomy s).ackLevel_le_nextSeqno (hq.ready.flow s)
    rw [hself] at hdown
    omega
  have hset : (q s.other).conn.receiver.ifSynSet = true := by
    by_contra hno
    rw [TCPReceiver.ackLevel, if_neg hno] at hlevel
    exact hsend.synSet_iff.mp hsyn hlevel.symm
  -- and answered
  have hconn : connStep (p s.other).conn (.segment c) = (q s.other).conn := by
    rw [hact]
    rfl
  obtain ⟨reply, hreply, hrrst, hadv, hkind⟩ :=
    reply_of_segment (h.senderOk s.other) hcopy.nonempty (hconn ▸ hset)
  rw [hconn] at hadv
  have hmem : reply ∈ (q s.other).sent := by
    rw [hact]
    exact List.mem_append_right _ hreply
  have hunset : reply.lengthInSequenceSpace = 0 ∨ (q s).conn.receiver.ifSynSet = false := by
    refine hkind.imp_right fun hunsent => ?_
    rw [hself]
    by_contra hyes
    have hroom := h.roomy s.other
    rw [Side.other_other] at hroom
    exact absurd ((hroom.synSent (by simpa using hyes)).symm.trans hunsent) (by decide)
  have hflow' := hq.ready.flow s
  have hnext := hflow'.recv.content.next_le
  have hlen := hq.ready.bounded s
  obtain ⟨-, hackno⟩ := TCPReceiver.ackno_eq_wrap_ackLevel (by omega) hadv.ackno
  rw [hflow'.recv.isn hset, hlevel, ← hself] at hackno
  exact ⟨q, reply, hq, hself, ⟨hmem, hrrst, hadv.ack, hackno,
    hq.ready.timely_of_reply s hmem hunset⟩, hkind⟩

/-- **The sender hears that everything has arrived**, and sends more if there is more. -/
theorem Ready.hears (h : Ready p) (s : Side) (hsyn : (p s).conn.sender.isSynSet = true)
    (hack : AcksAll p s seg) :
    ∃ q, Continues p q ∧ q s.other = p s.other ∧
      (q s).conn = connStep (p s).conn (.segment seg) ∧
      (¬ (p s).conn.sender.Drained →
        (p s).conn.sender.nextSeqno < (q s).conn.sender.nextSeqno) ∧
      ((q s).conn.sender.nextSeqno = (p s).conn.sender.nextSeqno →
        (q s).conn.sender.outstandingSegments = []) ∧
      (q s).conn.sender.recentAbsAckno = (p s).conn.sender.nextSeqno := by
  have hflow := h.flow s
  have hlen := h.bounded s
  have hsmall := hflow.send.nextSeqno_le
  have hrecent := hflow.recent_le
  have hlevel := hflow.ackLevel_le
  have habs : unwrap seg.header.ackno (p s).conn.sender.isn (p s).conn.sender.recentAbsAckno =
      (p s).conn.sender.nextSeqno := by
    rw [hack.ackno]
    exact unwrap_wrap _ (by omega) (by omega) (by omega) (by omega)
  obtain ⟨popped, ha⟩ := ackReceived_acked (p s).conn.sender seg.header.ackno seg.header.win
  rw [habs] at ha
  obtain ⟨hmore, hsettled⟩ :=
    hflow.send.filled_after_all (hflow.near hlen) hsyn (by omega) ha
  obtain ⟨new, hf⟩ := fillWindow_filled
    ((p s).conn.sender.ackReceived seg.header.ackno seg.header.win)
  have hsender := sender_of_ack (h.senderOk s) hsyn hack.ack hack.rst
  refine ⟨_, h.deliver s hack.mem hack.timely, actAt_other .., by rw [actAt_self]; rfl, ?_⟩
  have hself : (p.actAt s (.segment seg) s).conn.sender =
      { ((p s).conn.sender.ackReceived seg.header.ackno seg.header.win).fillWindow with
        segmentsOut := [] } := by
    rw [actAt_self]
    exact hsender
  rw [hself]
  exact ⟨hmore, hsettled, hf.recent.trans ha.recent⟩

/-- The two together. -/
theorem Ready.learns (h : Ready p) (s : Side) (hsyn : (p s).conn.sender.isSynSet = true)
    (hall : (p s.other).conn.receiver.ackLevel = (p s).conn.sender.nextSeqno) :
    ∃ q, Continues p q ∧
      (¬ (p s).conn.sender.Drained →
        (p s).conn.sender.nextSeqno < (q s).conn.sender.nextSeqno) ∧
      ((q s).conn.sender.nextSeqno = (p s).conn.sender.nextSeqno →
        (q s).conn.sender.outstandingSegments = []) := by
  obtain ⟨q, reply, hq, hself, hack, -⟩ := h.acknowledges s hsyn hall
  obtain ⟨q', hq', -, -, hmore, hsettled, -⟩ := hq.ready.hears s (hq.synSet s hsyn) hack
  rw [hself] at hmore hsettled
  exact ⟨q', hq.trans hq', hmore, hsettled⟩

/-! ### The whole transfer -/

/-- The sequence numbers of everything the application has written, with the SYN and, if the
stream has been ended, the FIN. -/
def target (e : Endpoint) : ℕ :=
  e.accepted.length + 1 + if e.conn.sender.stream.inputEnded then 1 else 0

theorem Continues.target_eq (h : Continues p q) (s : Side) : target (q s) = target (p s) := by
  rw [target, target, h.accepted, h.ended]

theorem Ready.nextSeqno_le_target (h : Ready p) (s : Side) :
    (p s).conn.sender.nextSeqno ≤ target (p s) := by
  have hsend := (h.flow s).send
  have hread := hsend.numRead_le_accepted
  rw [hsend.next_eq, target]
  cases hfin : (p s).conn.sender.isFinSet with
  | false => split <;> simp <;> omega
  | true =>
    rw [(hsend.ended hfin).1]
    split <;> simp <;> omega

/-- Before the target there is something to send. -/
theorem Ready.not_drained (h : Ready p) (s : Side) (hsyn : (p s).conn.sender.isSynSet = true)
    (hlt : (p s).conn.sender.nextSeqno < target (p s)) : ¬ (p s).conn.sender.Drained := by
  intro hdrained
  obtain ⟨hbuf, hended⟩ := hdrained
  have hsend := (h.flow s).send
  have hstream := congrArg List.length hsend.stream
  rw [hbuf, List.append_nil, ← hsend.read] at hstream
  rw [hsend.next_eq, if_pos hsyn, target, hstream] at hlt
  split at hlt
  · split at hlt <;> omega
  · rename_i hopen
    split at hlt
    · rename_i hin
      exact hopen (hended hin)
    · omega

/-- **A round**: the receiver gets further as long as it does not have everything. -/
theorem Ready.advances (h : Ready p) (s : Side) (hsyn : (p s).conn.sender.isSynSet = true)
    (hlt : (p s.other).conn.receiver.ackLevel < target (p s)) :
    ∃ q, Continues p q ∧
      (p s.other).conn.receiver.ackLevel < (q s.other).conn.receiver.ackLevel := by
  have hle := (h.roomy s).ackLevel_le_nextSeqno (h.flow s)
  rcases hle.lt_or_eq with hmore | hall
  · exact h.feeds s hmore
  · obtain ⟨q, hq, hgrows, -⟩ := h.learns s hsyn hall
    have hgrown := hgrows (h.not_drained s hsyn (hall ▸ hlt))
    have hlevel := hq.level s.other
    rcases hlevel.lt_or_eq with hgt | hsame
    · exact ⟨q, hq, hgt⟩
    · obtain ⟨q', hq', hgt⟩ := hq.ready.feeds s (by omega)
      exact ⟨q', hq.trans hq', by omega⟩

/-- The peer has acknowledged everything, and the sender knows it. -/
structure Complete (p : Pair) (s : Side) : Prop where
  level : (p s.other).conn.receiver.ackLevel = target (p s)
  settled : (p s).conn.sender.outstandingSegments = []

theorem Ready.completes (h : Ready p) (s : Side) (hsyn : (p s).conn.sender.isSynSet = true) :
    ∃ q, Continues p q ∧ Complete q s := by
  -- the receiver gets everything
  have hget : ∃ q, Reaches pairStep Proceeds p q ∧ Continues p q ∧
      target (p s) - (q s.other).conn.receiver.ackLevel = 0 := by
    refine reaches_zero (fun q => target (p s) - (q s.other).conn.receiver.ackLevel) ?_
      (Continues.refl h)
    intro q hq hpos
    obtain ⟨q', hq', hgt⟩ := hq.ready.advances s (hq.synSet s hsyn)
      (by rw [hq.target_eq]; omega)
    exact ⟨q', hq'.reached, hq.trans hq', by omega⟩
  obtain ⟨q, -, hq, hzero⟩ := hget
  -- and the sender learns of it
  have hle := (hq.ready.roomy s).ackLevel_le_nextSeqno (hq.ready.flow s)
  have hnext := hq.ready.nextSeqno_le_target s
  rw [hq.target_eq] at hnext
  obtain ⟨q', hq', -, hsettled⟩ := hq.ready.learns s (hq.synSet s hsyn) (by omega)
  have hlevel := hq'.level s.other
  have hle' := (hq'.ready.roomy s).ackLevel_le_nextSeqno (hq'.ready.flow s)
  have hnext' := hq'.ready.nextSeqno_le_target s
  have htarget : target (q' s) = target (p s) := (hq.trans hq').target_eq s
  exact ⟨q', hq.trans hq', by omega, hsettled (by omega)⟩

/-- A direction that is complete stays so while nothing is written. -/
theorem Complete.continues (hc : Complete p s) (h : Ready p) (hq : Continues p q) :
    Complete q s := by
  have hlevel := hq.level s.other
  have hle := (hq.ready.roomy s).ackLevel_le_nextSeqno (hq.ready.flow s)
  have hnext := hq.ready.nextSeqno_le_target s
  have htarget := hq.target_eq s
  have hdone := hc.level
  refine ⟨by omega, ?_⟩
  have hbefore := (h.roomy s).ackLevel_le_nextSeqno (h.flow s)
  have hsend := (hq.ready.flow s).send
  obtain ⟨more, hmore⟩ := hq.acked s
  rw [(h.flow s).send.next, hc.settled, List.append_nil] at hbefore
  rw [hsend.next, ← hmore] at hnext
  simp only [seqLen_append] at hnext
  exact hsend.sent.eq_nil_of_seqLen (by omega)

/-- Everything that one side wrote has been written to the inbound stream of its peer, which has
ended if that side's stream has, and nothing is in flight. -/
structure Finished (p : Pair) (s : Side) : Prop where
  delivered : (p s.other).delivered = (p s).accepted
  ended : (p s).conn.sender.stream.inputEnded = true →
    (p s.other).conn.inboundStream.inputEnded = true
  inFlight : (p s).conn.bytesInFlight = 0

theorem Complete.finished (hc : Complete p s) (h : Ready p) : Finished p s := by
  have hflow := h.flow s
  have hnext := hflow.recv.content.next_le
  have hlevel := hc.level
  have hset : (p s.other).conn.receiver.ifSynSet = true := by
    by_contra hno
    rw [TCPReceiver.ackLevel, if_neg hno, target] at hlevel
    omega
  rw [TCPReceiver.ackLevel, if_pos hset, target] at hlevel
  have hall : (p s.other).conn.receiver.reassembler.nextIndex = (p s).accepted.length := by
    split at hlevel
    · rename_i hat
      exact (Room.fin_of_acked hflow hat).2
    · split at hlevel <;> omega
  have hdelivered : (p s.other).delivered = (p s).accepted := by
    cases hopen : (p s.other).conn.receiver.reassembler.output.inputEnded with
    | true => exact (hflow.whole.mp hopen).2
    | false =>
      rw [hflow.recv.content.written_open hopen, hall]
      exact List.take_length
  refine ⟨hdelivered, fun hended => ?_, ?_⟩
  · -- the FIN is acknowledged
    have hseen : (p s.other).conn.receiver.ifFinSet = true := by
      by_contra hno
      have hunseen := hflow.finUnseen (by simpa using hno)
      rw [if_pos hended, if_neg (by omega)] at hlevel
      omega
    exact hflow.whole.mpr ⟨(h.roomy s).finEof hseen, hdelivered⟩
  · show (p s).conn.sender.bytesInFlight = 0
    rw [hflow.send.flight, hc.settled]
    rfl

/-- Both directions can be completed, one after the other. -/
theorem Ready.completesBoth (h : Ready p) (s : Side)
    (hsyn : (p s).conn.sender.isSynSet = true) :
    ∃ q, Continues p q ∧ Complete q s ∧ Complete q s.other := by
  obtain ⟨q, hq, hdone⟩ := h.completes s hsyn
  -- the peer has heard the SYN, so it has sent its own
  have hset : (q s.other).conn.receiver.ifSynSet = true := by
    by_contra hno
    have hlevel := hdone.level
    rw [TCPReceiver.ackLevel, if_neg hno, target] at hlevel
    omega
  obtain ⟨q', hq', hdone'⟩ := hq.ready.completes s.other (hq.ready.answered s.other hset)
  exact ⟨q', hq.trans hq', hdone.continues hq.ready hq', hdone'⟩

theorem ready_of_run {cfg : Side → TCPConfig} {random : Side → WrappingInt32}
    (hcap : ∀ s, 0 < (cfg s).recvCapacity ∧ (cfg s).recvCapacity < 2 ^ 63) {ops : List PairOp}
    (hlen : Bounded (run pairStep (start cfg random) ops))
    (htimely : Along pairStep DeliverOk (start cfg random) ops) :
    Ready (run pairStep (start cfg random) ops) := by
  induction ops using List.reverseRecOn with
  | nil => exact Ready.start cfg random hcap
  | append_singleton ops op ih =>
    obtain ⟨hops, hop⟩ := (along_concat _ ops op).mp htimely
    rw [run_concat] at hlen ⊢
    exact (ih hlen.of_step hops).step hlen hop

/-- **Every transfer can be completed.**  After any run of two connections in which no delivery
ended a stream early and at least one side has sent its SYN, whatever was lost, duplicated or
reordered, there is a continuation of deliveries and reads alone after which each side has
everything the other side's application has written, each stream that was ended has ended at the
other side, and nothing is in flight.  No application has written more, or ended its stream. -/
theorem transfer_completable (cfg : Side → TCPConfig) (random : Side → WrappingInt32)
    (hcap : ∀ s, 0 < (cfg s).recvCapacity ∧ (cfg s).recvCapacity < 2 ^ 63) (ops : List PairOp)
    (hlen : Bounded (run pairStep (start cfg random) ops))
    (htimely : Along pairStep DeliverOk (start cfg random) ops) (s : Side)
    (hsyn : (run pairStep (start cfg random) ops s).conn.sender.isSynSent = true) :
    ∃ more, Along pairStep Proceeds (run pairStep (start cfg random) ops) more ∧
      ∀ s', Finished (run pairStep (start cfg random) (ops ++ more)) s' ∧
        (run pairStep (start cfg random) (ops ++ more) s').accepted =
          (run pairStep (start cfg random) ops s').accepted ∧
        (run pairStep (start cfg random) (ops ++ more) s').conn.sender.stream.inputEnded =
          (run pairStep (start cfg random) ops s').conn.sender.stream.inputEnded := by
  have hready := ready_of_run hcap hlen htimely
  obtain ⟨q, hq, hdone, hdone'⟩ := hready.completesBoth s hsyn
  obtain ⟨more, hmore, hrun⟩ := hq.reached
  refine ⟨more, hmore, fun s' => ?_⟩
  rw [run_append, hrun]
  refine ⟨?_, hq.accepted s', hq.ended s'⟩
  rcases eq_or_eq_other s s' with rfl | rfl
  · exact hdone.finished hq.ready
  · exact hdone'.finished hq.ready

/-- Two bytes and the end of a stream of which nothing has arrived. -/
theorem transfer_completable_closing :
    (run pairStep (start smallConfig fun _ => ⟨0⟩) (closingRun [97, 98]) .y).delivered = [] ∧
      ∃ more, Along pairStep Proceeds
          (run pairStep (start smallConfig fun _ => ⟨0⟩) (closingRun [97, 98])) more ∧
        let p := run pairStep (start smallConfig fun _ => ⟨0⟩) (closingRun [97, 98] ++ more)
        (p .y).delivered = [97, 98] ∧ (p .y).conn.inboundStream.inputEnded = true ∧
          (p .x).conn.bytesInFlight = 0 := by
  have hcap : ∀ s, 0 < (smallConfig s).recvCapacity ∧ (smallConfig s).recvCapacity < 2 ^ 63 := by
    rintro (_ | _) <;> decide
  have hlen : Bounded (run pairStep (start smallConfig fun _ => ⟨0⟩) (closingRun [97, 98])) := by
    rintro (_ | _) <;> decide
  have htimely : Along pairStep DeliverOk (start smallConfig fun _ => ⟨0⟩)
      (closingRun [97, 98]) := by
    refine ⟨trivial, ?_, ?_, trivial, trivial, trivial⟩
    all_goals
      rintro seg - - ⟨-, n, hn, -⟩
      exact absurd hn (Nat.not_lt_zero n)
  obtain ⟨more, hmore, hdone⟩ := transfer_completable smallConfig (fun _ => ⟨0⟩) hcap
    (closingRun [97, 98]) hlen htimely .x (by decide)
  obtain ⟨hfinished, haccepted, hended⟩ := hdone .x
  refine ⟨by decide, more, hmore, ?_, ?_, hfinished.inFlight⟩
  · exact hfinished.delivered.trans (haccepted.trans (by decide))
  · exact hfinished.ended (hended.trans (by decide))

end Pair

end Sponge
