import Sponge.Lib.Slices
import Sponge.TcpSender

/-!
# What the sender has cut from its stream

`fill_window` creates segments one after another.  `Placed` says what the segment created after
the segments `pre` looks like, `Sent` says it of a whole list of created segments, and
`SenderInv` ties the counters, flags and queues of a sender to the segments created so far:
those popped by acknowledgments followed by those still outstanding.  Every operation of the
sender keeps `SenderInv`; only `fill_window` creates segments, and only `ack_received` moves
segments from the outstanding to the acknowledged ones.
-/

namespace Sponge

open MachineInt Slices

/-! ### Lists of segments -/

/-- The sequence numbers that a list of segments occupies. -/
def seqLen (segs : List TCPSegment) : ℕ := (segs.map TCPSegment.lengthInSequenceSpace).sum

/-- The payloads of a list of segments, in order. -/
def payloads (segs : List TCPSegment) : List UInt8 := segs.flatMap TCPSegment.payload

@[simp] theorem seqLen_nil : seqLen [] = 0 := rfl

@[simp] theorem seqLen_cons (seg : TCPSegment) (segs : List TCPSegment) :
    seqLen (seg :: segs) = seg.lengthInSequenceSpace + seqLen segs := by
  simp [seqLen]

@[simp] theorem seqLen_append (segs segs' : List TCPSegment) :
    seqLen (segs ++ segs') = seqLen segs + seqLen segs' := by
  simp [seqLen]

@[simp] theorem payloads_nil : payloads [] = [] := rfl

@[simp] theorem payloads_cons (seg : TCPSegment) (segs : List TCPSegment) :
    payloads (seg :: segs) = seg.payload ++ payloads segs := by
  simp [payloads]

@[simp] theorem payloads_append (segs segs' : List TCPSegment) :
    payloads (segs ++ segs') = payloads segs ++ payloads segs' := by
  simp [payloads]

/-! ### Created segments -/

/-- What the segment created right after the segments `pre` is, when the stream has accepted
`accepted` so far. -/
structure Placed (isn : WrappingInt32) (accepted : List UInt8) (pre : List TCPSegment)
    (seg : TCPSegment) : Prop where
  header : seg.header =
    { seqno := wrap (seqLen pre) isn, syn := pre.isEmpty, fin := seg.header.fin }
  payload : payloads pre ++ seg.payload <+: accepted
  short : seg.payload.length ≤ maxPayloadSize
  nonempty : seg.lengthInSequenceSpace ≠ 0
  noFin : ∀ s ∈ pre, s.header.fin = false

/-- `segs` are the segments created so far, in order. -/
def Sent (isn : WrappingInt32) (accepted : List UInt8) (segs : List TCPSegment) : Prop :=
  ∀ pre seg post, segs = pre ++ seg :: post → Placed isn accepted pre seg

section Sent

variable {isn : WrappingInt32} {accepted accepted' : List UInt8} {segs pre post : List TCPSegment}
  {seg : TCPSegment}

theorem Placed.mono (h : Placed isn accepted pre seg) (ha : accepted <+: accepted') :
    Placed isn accepted' pre seg :=
  { h with payload := h.payload.trans ha }

theorem Sent.mono (h : Sent isn accepted segs) (ha : accepted <+: accepted') :
    Sent isn accepted' segs :=
  fun pre seg post hs => (h pre seg post hs).mono ha

theorem Sent.nil : Sent isn accepted [] := by
  intro pre seg post h
  simp at h

theorem Sent.concat (h : Sent isn accepted segs) (hseg : Placed isn accepted segs seg) :
    Sent isn accepted (segs ++ [seg]) := by
  intro pre s post hs
  rcases concat_eq_split hs with ⟨rfl, rfl⟩ | ⟨post', hs'⟩
  · exact hseg
  · exact h pre s post' hs'

theorem Sent.of_append (h : Sent isn accepted (segs ++ post)) : Sent isn accepted segs := by
  intro pre s post' hs
  exact h pre s (post' ++ post) (by rw [hs]; simp)

theorem Sent.of_mem (h : Sent isn accepted segs) (hseg : seg ∈ segs) :
    ∃ pre post, segs = pre ++ seg :: post ∧ Placed isn accepted pre seg := by
  obtain ⟨pre, post, hs⟩ := List.append_of_mem hseg
  exact ⟨pre, post, hs, h pre seg post hs⟩

/-- Nothing is created after a FIN. -/
theorem Sent.fin_last (h : Sent isn accepted (pre ++ seg :: post)) (hfin : seg.header.fin = true) :
    post = [] := by
  cases post with
  | nil => rfl
  | cons s post =>
    have hs := h (pre ++ [seg]) s post (by simp)
    have := hs.noFin seg (by simp)
    rw [hfin] at this
    cases this

/-- The SYN is the first segment and no other. -/
theorem Placed.syn (h : Placed isn accepted pre seg) : seg.header.syn = pre.isEmpty := by
  rw [h.header]

theorem Placed.seqno (h : Placed isn accepted pre seg) :
    seg.header.seqno = wrap (seqLen pre) isn := by
  rw [h.header]

theorem Placed.length_le (h : Placed isn accepted pre seg) :
    seg.lengthInSequenceSpace ≤ maxPayloadSize + 2 := by
  have := h.short
  unfold TCPSegment.lengthInSequenceSpace
  split <;> split <;> omega

/-- The sequence numbers used so far are the SYN, the payload bytes and the FIN. -/
theorem Sent.seqLen_eq (h : Sent isn accepted segs) :
    seqLen segs = (if segs = [] then 0 else 1) + (payloads segs).length +
      (if ∃ s ∈ segs, s.header.fin = true then 1 else 0) := by
  induction segs using List.reverseRecOn with
  | nil => simp
  | append_singleton segs seg ih =>
    have hseg := h segs seg [] rfl
    have hno : ¬ ∃ s ∈ segs, s.header.fin = true := by
      intro hall
      obtain ⟨s, hs, hfin⟩ := hall
      rw [hseg.noFin s hs] at hfin
      cases hfin
    have hprev := ih h.of_append
    rw [if_neg hno] at hprev
    have hlast : (∃ s ∈ segs ++ [seg], s.header.fin = true) ↔ seg.header.fin = true := by
      simp only [List.mem_append, List.mem_singleton]
      exact ⟨fun ⟨s, hs, hfin⟩ => hs.elim (fun hs => (hno ⟨s, hs, hfin⟩).elim) (· ▸ hfin),
        fun hfin => ⟨seg, Or.inr rfl, hfin⟩⟩
    simp only [hlast, seqLen_append, seqLen_cons, seqLen_nil, payloads_append, payloads_cons,
      payloads_nil, List.length_append, TCPSegment.lengthInSequenceSpace, hseg.syn, hprev]
    cases segs <;> simp <;> omega

theorem Placed.seqLen_pre (h : Sent isn accepted (pre ++ post))
    (hseg : Placed isn accepted pre seg) :
    seqLen pre = (if pre = [] then 0 else 1) + (payloads pre).length := by
  have hno : ¬ ∃ s ∈ pre, s.header.fin = true := by
    intro hall
    obtain ⟨s, hs, hfin⟩ := hall
    rw [hseg.noFin s hs] at hfin
    cases hfin
  have := h.of_append.seqLen_eq
  rwa [if_neg hno, add_zero] at this

theorem Sent.length_le (h : Sent isn accepted segs) : segs.length ≤ seqLen segs := by
  induction segs using List.reverseRecOn with
  | nil => simp
  | append_singleton segs seg ih =>
    have hlen := (h segs seg [] rfl).nonempty
    have := ih h.of_append
    simp only [List.length_append, List.length_singleton, seqLen_append, seqLen_cons, seqLen_nil]
    omega

end Sent

/-! ### The invariant of the sender -/

namespace TCPSender

/-- The sender against the bytes its stream has accepted and the segments popped so far. -/
structure SenderInv (accepted : List UInt8) (acked : List TCPSegment) (st : TCPSender) :
    Prop where
  sent : Sent st.isn accepted (acked ++ st.outstandingSegments)
  stream : payloads (acked ++ st.outstandingSegments) ++ st.stream.buffer = accepted
  next : st.nextSeqno = seqLen (acked ++ st.outstandingSegments)
  next_lt : st.nextSeqno < 2 ^ 64
  syn : st.isSynSet = true ↔ acked ++ st.outstandingSegments ≠ []
  fin : st.isFinSet = true ↔ ∃ s ∈ acked ++ st.outstandingSegments, s.header.fin = true
  ended : st.isFinSet = true → st.stream.inputEnded = true ∧ st.stream.buffer = []
  flight : st.bytesInFlight = seqLen st.outstandingSegments
  timer : st.timer.ifRun = true ↔ st.outstandingSegments ≠ []
  read : st.stream.numRead = (payloads (acked ++ st.outstandingSegments)).length
  written : st.stream.numWritten = u64 accepted.length
  recent : st.recentAbsAckno < 2 ^ 64

section Inv

variable {accepted : List UInt8} {acked : List TCPSegment} {st : TCPSender}

theorem SenderInv.next_eq (h : SenderInv accepted acked st) :
    st.nextSeqno = (if st.isSynSet then 1 else 0) + st.stream.numRead +
      (if st.isFinSet then 1 else 0) := by
  rw [h.next, h.sent.seqLen_eq, h.read]
  simp only [h.syn, h.fin, ne_eq, ite_not]

theorem SenderInv.synSet_iff (h : SenderInv accepted acked st) :
    st.isSynSet = true ↔ st.nextSeqno ≠ 0 := by
  constructor
  · intro hs
    rw [h.next_eq, if_pos hs]
    omega
  · intro hne
    rw [h.syn]
    intro hnil
    rw [h.next, hnil] at hne
    exact hne rfl

theorem SenderInv.numRead_le (h : SenderInv accepted acked st) :
    st.stream.numRead ≤ st.nextSeqno := by
  rw [h.next_eq]
  omega

theorem SenderInv.flight_le (h : SenderInv accepted acked st) :
    st.bytesInFlight ≤ st.nextSeqno := by
  rw [h.flight, h.next, seqLen_append]
  omega

theorem new_inv (capacity : ℕ) (retxTimeout : UInt16) (fixedIsn : Option WrappingInt32)
    (random : WrappingInt32) : SenderInv [] [] (new capacity retxTimeout fixedIsn random) where
  sent := Sent.nil
  stream := rfl
  next := rfl
  next_lt := by simp [new]
  syn := by simp [new]
  fin := by simp [new]
  ended := by simp [new]
  flight := rfl
  timer := by simp [new, Timer.new]
  read := rfl
  written := rfl
  recent := by simp [new]

/-! ### One iteration of `fill_window` -/

theorem nextSegment_header (st : TCPSender) :
    st.nextSegment.1.header =
      { seqno := wrap st.nextSeqno st.isn, syn := st.nextSeqno == 0
        fin := st.nextSegment.1.header.fin } := rfl

theorem nextSegment_length (st : TCPSender) :
    st.nextSegment.1.lengthInSequenceSpace = st.nextSegment.1.payload.length +
      (if st.nextSeqno = 0 then 1 else 0) + (if st.nextSegment.1.header.fin then 1 else 0) := by
  unfold TCPSegment.lengthInSequenceSpace
  rw [nextSegment_header]
  simp only [beq_iff_eq]

theorem nextSegment_payload_le (st : TCPSender) :
    st.nextSegment.1.payload.length ≤ sub64 st.windowEdge st.nextSeqno ∧
      st.nextSegment.1.payload.length ≤ maxPayloadSize := by
  rw [nextSegment_payload, List.length_take]
  omega

/-- A FIN is set when the stream is read to its end and the window has room for it. -/
theorem nextSegment_fin (st : TCPSender) :
    st.nextSegment.1.header.fin = true ↔
      st.nextSegment.2.stream.inputEnded = true ∧ st.nextSegment.2.stream.buffer = [] ∧
      st.isFinSet = false ∧
      st.nextSegment.1.payload.length + (if st.nextSeqno = 0 then 1 else 0) <
        sub64 st.windowEdge st.nextSeqno := by
  have heof := ByteStream.eof_iff st.nextSegment.2.stream
  simp only [nextSegment, Bool.and_eq_true, Bool.not_eq_true', decide_eq_true_eq,
    TCPSegment.lengthInSequenceSpace, beq_iff_eq, Bool.false_eq_true, if_false, add_zero,
    gt_iff_lt] at heof ⊢
  rw [heof]
  tauto

/-- Beyond the SYN a segment ends inside the window. -/
theorem nextSegment_le_edge (hnext : st.nextSeqno ≠ 0) (hlt : st.nextSeqno < st.windowEdge) :
    st.nextSeqno + st.nextSegment.1.lengthInSequenceSpace ≤ st.windowEdge := by
  have hpay := (nextSegment_payload_le st).1
  have hfin := nextSegment_fin st
  have hedge : st.windowEdge < 2 ^ 64 := u64_lt _
  rw [sub64_of_le hedge hlt.le] at hpay hfin
  rw [nextSegment_length, if_neg hnext]
  rw [if_neg hnext] at hfin
  split
  · rename_i hf
    have := (hfin.mp hf).2.2.2
    omega
  · omega

theorem SenderInv.next_add_lt (h : SenderInv accepted acked st) (hmay : st.mayFill = true) :
    st.nextSeqno + st.nextSegment.1.lengthInSequenceSpace < 2 ^ 64 := by
  by_cases h0 : st.nextSeqno = 0
  · have hpay := (nextSegment_payload_le st).2
    rw [nextSegment_length, h0]
    unfold maxPayloadSize at hpay
    split <;> split <;> omega
  · have hsyn := h.synSet_iff.mpr h0
    have hlt : st.nextSeqno < st.windowEdge := by
      simpa [mayFill, hsyn] using hmay
    exact (nextSegment_le_edge h0 hlt).trans_lt (u64_lt _)

/-- The segment built by one iteration continues the segments created before. -/
theorem SenderInv.placed (h : SenderInv accepted acked st)
    (hlen : st.nextSegment.1.lengthInSequenceSpace ≠ 0) :
    Placed st.isn accepted (acked ++ st.outstandingSegments) st.nextSegment.1 where
  header := by
    have hempty : (st.nextSeqno == 0) = (acked ++ st.outstandingSegments).isEmpty := by
      have hiff := (not_congr h.synSet_iff).symm.trans (not_congr h.syn)
      rw [not_not, not_not] at hiff
      rw [Bool.eq_iff_iff, beq_iff_eq, List.isEmpty_iff]
      exact hiff
    rw [← hempty, ← h.next]
    exact nextSegment_header st
  payload := by
    rw [← h.stream, ← nextSegment_stream st, ← List.append_assoc]
    exact List.prefix_append ..
  short := (nextSegment_payload_le st).2
  nonempty := hlen
  noFin := by
    intro s hs
    by_contra hne
    have hset := h.fin.mpr ⟨s, hs, by simpa using hne⟩
    -- after the FIN the stream is empty and no second FIN is set, so the segment is empty
    obtain ⟨-, hbuf⟩ := h.ended hset
    have hpay : st.nextSegment.1.payload = [] := by
      rw [nextSegment_payload, hbuf, List.take_nil]
    have hfin : st.nextSegment.1.header.fin = false := by simp [nextSegment, hset]
    have h0 : st.nextSeqno ≠ 0 :=
      h.synSet_iff.mp (h.syn.mpr (List.ne_nil_of_mem hs))
    rw [nextSegment_length, hpay, hfin, if_neg h0] at hlen
    exact hlen rfl

/-- An iteration that creates a segment. -/
theorem SenderInv.pushSegment (h : SenderInv accepted acked st) (hmay : st.mayFill = true)
    (hlen : st.nextSegment.1.lengthInSequenceSpace ≠ 0) :
    SenderInv accepted acked (st.nextSegment.2.pushSegment st.nextSegment.1) := by
  have hplaced := h.placed hlen
  have hlt := h.next_add_lt hmay
  have hread : (st.stream.popOutput (min (sub64 st.windowEdge st.nextSeqno) maxPayloadSize)).numRead
      = u64 (st.stream.numRead + st.nextSegment.1.payload.length) :=
    st.stream.popOutput_numRead (readSize_lt _)
  have hfinEq : st.nextSegment.1.header.fin = true → st.nextSegment.2.stream.inputEnded = true ∧
      st.nextSegment.2.stream.buffer = [] :=
    fun hf => ⟨((nextSegment_fin st).mp hf).1, ((nextSegment_fin st).mp hf).2.1⟩
  refine
    { sent := ?_, stream := ?_, next := ?_, next_lt := ?_, syn := ?_, fin := ?_, ended := ?_,
      flight := ?_, timer := ?_, read := ?_, written := h.written, recent := h.recent }
  · show Sent st.isn accepted (acked ++ (st.outstandingSegments ++ [st.nextSegment.1]))
    rw [← List.append_assoc]
    exact h.sent.concat hplaced
  · show payloads (acked ++ (st.outstandingSegments ++ [st.nextSegment.1])) ++
      st.nextSegment.2.stream.buffer = accepted
    rw [← List.append_assoc, payloads_append, payloads_cons, payloads_nil, List.append_nil,
      List.append_assoc, nextSegment_stream, h.stream]
  · show u64 (st.nextSeqno + st.nextSegment.1.lengthInSequenceSpace) =
      seqLen (acked ++ (st.outstandingSegments ++ [st.nextSegment.1]))
    rw [u64_of_lt hlt, h.next]
    simp only [seqLen_append, seqLen_cons, seqLen_nil]
    omega
  · exact u64_lt _
  · show (st.isSynSet || (st.nextSeqno == 0)) = true ↔
      acked ++ (st.outstandingSegments ++ [st.nextSegment.1]) ≠ []
    have : st.isSynSet = true ∨ st.nextSeqno = 0 := by
      by_cases h0 : st.nextSeqno = 0
      · exact Or.inr h0
      · exact Or.inl (h.synSet_iff.mpr h0)
    simpa using this
  · show (st.isFinSet || st.nextSegment.1.header.fin) = true ↔
      ∃ s ∈ acked ++ (st.outstandingSegments ++ [st.nextSegment.1]), s.header.fin = true
    rw [Bool.or_eq_true, h.fin, ← List.append_assoc]
    simp only [List.mem_append, List.mem_singleton, or_and_right, exists_or, exists_eq_left]
  · intro hset
    rcases (Bool.or_eq_true _ _).mp hset with hold | hf
    · obtain ⟨hin, hbuf⟩ := h.ended hold
      refine ⟨hin, ?_⟩
      have := nextSegment_stream st
      rw [hbuf] at this
      exact (List.append_eq_nil_iff.mp this).2
    · exact hfinEq hf
  · show u64 (st.bytesInFlight + st.nextSegment.1.lengthInSequenceSpace) =
      seqLen (st.outstandingSegments ++ [st.nextSegment.1])
    have hle := h.flight_le
    rw [u64_of_lt (by omega), h.flight]
    simp
  · show (if !st.timer.ifRun then st.timer.start else st.timer).ifRun = true ↔
      st.outstandingSegments ++ [st.nextSegment.1] ≠ []
    cases hr : st.timer.ifRun <;> simp [hr, Timer.start]
  · show (st.stream.popOutput (min (sub64 st.windowEdge st.nextSeqno) maxPayloadSize)).numRead =
      (payloads (acked ++ (st.outstandingSegments ++ [st.nextSegment.1]))).length
    have hle := h.numRead_le
    have hpay := st.nextSegment.1.payload_length_le
    rw [hread, u64_of_lt (by omega), h.read]
    simp only [payloads_append, payloads_cons, payloads_nil, List.append_nil, List.length_append]
    omega

/-- The last iteration, which builds an empty segment, changes nothing. -/
theorem SenderInv.nextSegment_break (h : SenderInv accepted acked st)
    (hlen : st.nextSegment.1.lengthInSequenceSpace = 0) : st.nextSegment.2 = st := by
  obtain ⟨h0, hfin, hbuf⟩ := nextSegment_of_length_zero hlen
  have hpay := (TCPSegment.lengthInSequenceSpace_eq_zero_iff.mp hlen).1
  have hread : st.nextSegment.2.stream.numRead = u64 (st.stream.numRead +
      st.nextSegment.1.payload.length) := st.stream.popOutput_numRead (readSize_lt _)
  have hle := h.numRead_le
  have hstream : st.nextSegment.2.stream = st.stream := by
    have hlt := h.next_lt
    rw [hpay, List.length_nil, add_zero, u64_of_lt (by omega)] at hread
    show { st.stream with buffer := st.nextSegment.2.stream.buffer,
                          numRead := st.nextSegment.2.stream.numRead } = st.stream
    rw [hbuf, hread]
  show { st with
    stream := st.nextSegment.2.stream
    isSynSet := st.isSynSet || (st.nextSeqno == 0)
    isFinSet := st.isFinSet || st.nextSegment.1.header.fin } = st
  rw [hstream, hfin, beq_eq_false_iff_ne.mpr h0, Bool.or_false, Bool.or_false]

/-! ### The operations -/

/-- What `fill_window` does to a sender: it appends new segments to both queues and leaves alone
what is not about sending. -/
structure Filled (st st' : TCPSender) (new : List TCPSegment) : Prop where
  segmentsOut : st'.segmentsOut = st.segmentsOut ++ new
  outstanding : st'.outstandingSegments = st.outstandingSegments ++ new
  isn : st'.isn = st.isn
  recent : st'.recentAbsAckno = st.recentAbsAckno
  window : st'.windowSize = st.windowSize
  retransmissions : st'.consecutiveRetransmissions = st.consecutiveRetransmissions
  inputEnded : st'.stream.inputEnded = st.stream.inputEnded
  error : st'.stream.error = st.stream.error

theorem fillWindow_filled (st : TCPSender) : ∃ new, Filled st st.fillWindow new := by
  refine fillWindow_induct (P := fun st st' => ∃ new, Filled st st' new) ?_ ?_ ?_ st
  · intro st _
    exact ⟨[], by simp, by simp, rfl, rfl, rfl, rfl, rfl, rfl⟩
  · intro st _ _
    exact ⟨[], (List.append_nil _).symm, (List.append_nil _).symm, rfl, rfl, rfl, rfl, rfl, rfl⟩
  · rintro st - - ⟨new, h⟩
    refine ⟨st.nextSegment.1 :: new, ?_, ?_, h.isn, h.recent, h.window, h.retransmissions,
      h.inputEnded, h.error⟩
    · rw [h.segmentsOut]
      exact List.append_assoc ..
    · rw [h.outstanding]
      exact List.append_assoc ..

theorem SenderInv.fillWindow (h : SenderInv accepted acked st) :
    SenderInv accepted acked st.fillWindow := by
  revert h
  refine fillWindow_induct
    (P := fun st st' => SenderInv accepted acked st → SenderInv accepted acked st') ?_ ?_ ?_ st
  · intro st _ h
    exact h
  · intro st _ hlen h
    rwa [h.nextSegment_break hlen]
  · intro st hmay hlen ih h
    exact ih (h.pushSegment hmay hlen)

theorem SenderInv.write (h : SenderInv accepted acked st) (data : List UInt8) :
    SenderInv (accepted ++ st.stream.accepted data) acked (st.writeStream data) := by
  refine
    { sent := h.sent.mono (List.prefix_append ..), stream := ?_, next := h.next,
      next_lt := h.next_lt, syn := h.syn, fin := h.fin, ended := ?_, flight := h.flight,
      timer := h.timer, read := ?_, written := ?_, recent := h.recent }
  · show payloads (acked ++ st.outstandingSegments) ++ (st.stream.write data).1.buffer = _
    rw [ByteStream.write_buffer, ← List.append_assoc, h.stream]
  · intro hset
    obtain ⟨hin, hbuf⟩ := h.ended hset
    show (st.stream.write data).1.inputEnded = true ∧ (st.stream.write data).1.buffer = []
    rw [ByteStream.write_inputEnded, ByteStream.write_buffer, hbuf,
      ByteStream.accepted_of_ended hin]
    exact ⟨hin, rfl⟩
  · show (st.stream.write data).1.numRead = _
    rw [ByteStream.write_numRead, h.read]
    rfl
  · show (st.stream.write data).1.numWritten = _
    have hlt : st.stream.numWritten < 2 ^ 64 := h.written ▸ u64_lt _
    rw [ByteStream.write_numWritten hlt, h.written, u64_add, List.length_append]

theorem SenderInv.endStream (h : SenderInv accepted acked st) :
    SenderInv accepted acked st.endStream :=
  { h with ended := fun hset => ⟨rfl, (h.ended hset).2⟩ }

theorem SenderInv.errorStream (h : SenderInv accepted acked st) :
    SenderInv accepted acked st.errorStream :=
  { h with }

theorem SenderInv.sendEmptySegment (h : SenderInv accepted acked st) :
    SenderInv accepted acked st.sendEmptySegment :=
  { h with }

theorem SenderInv.popSegment (h : SenderInv accepted acked st) :
    SenderInv accepted acked st.popSegment :=
  { h with }

/-- What `tick` does to a sender: it may append the oldest outstanding segment to the outgoing
queue; the timer keeps running or keeps still. -/
structure Ticked (st st' : TCPSender) : Prop where
  segmentsOut : st'.segmentsOut = st.segmentsOut ∨
    ∃ seg ∈ st.outstandingSegments, st'.segmentsOut = st.segmentsOut ++ [seg]
  outstanding : st'.outstandingSegments = st.outstandingSegments
  isn : st'.isn = st.isn
  stream : st'.stream = st.stream
  nextSeqno : st'.nextSeqno = st.nextSeqno
  flight : st'.bytesInFlight = st.bytesInFlight
  synSet : st'.isSynSet = st.isSynSet
  finSet : st'.isFinSet = st.isFinSet
  recent : st'.recentAbsAckno = st.recentAbsAckno
  window : st'.windowSize = st.windowSize
  timer : st'.timer.ifRun = st.timer.ifRun

theorem tick_ticked (st : TCPSender) (ms : ℕ) : Ticked st (st.tick ms) := by
  unfold tick
  split
  · exact ⟨Or.inl rfl, rfl, rfl, rfl, rfl, rfl, rfl, rfl, rfl, rfl, rfl⟩
  · rename_i hrun
    have hrun : st.timer.ifRun = true := by simpa using hrun
    have hinc : (st.timer.increment ms).ifRun = st.timer.ifRun := by
      simp [Timer.increment, hrun]
    simp only
    split
    · have hout : st.segmentsOut ++ st.outstandingSegments.take 1 = st.segmentsOut ∨
          ∃ seg ∈ st.outstandingSegments,
            st.segmentsOut ++ st.outstandingSegments.take 1 = st.segmentsOut ++ [seg] := by
        rcases take_one_eq st.outstandingSegments with hnil | ⟨seg, hmem, hone⟩
        · exact Or.inl (by rw [hnil, List.append_nil])
        · exact Or.inr ⟨seg, hmem, by rw [hone]⟩
      split
      · exact ⟨hout, rfl, rfl, rfl, rfl, rfl, rfl, rfl, rfl, rfl, hrun.symm⟩
      · exact ⟨hout, rfl, rfl, rfl, rfl, rfl, rfl, rfl, rfl, rfl, hrun.symm⟩
    · exact ⟨Or.inl rfl, rfl, rfl, rfl, rfl, rfl, rfl, rfl, rfl, rfl, hinc⟩

theorem SenderInv.tick (h : SenderInv accepted acked st) (ms : ℕ) :
    SenderInv accepted acked (st.tick ms) := by
  have ht := tick_ticked st ms
  constructor <;> simp only [ht.outstanding, ht.isn, ht.stream, ht.nextSeqno, ht.flight, ht.synSet,
    ht.finSet, ht.recent, ht.timer]
  exacts [h.sent, h.stream, h.next, h.next_lt, h.syn, h.fin, h.ended, h.flight, h.timer, h.read,
    h.written, h.recent]

/-- What `ack_received` does to a sender: it pops outstanding segments from the front, takes the
window and the acknowledgment number, and sends nothing. -/
structure Acked (st st' : TCPSender) (absAckno : ℕ) (window : UInt16) (popped : List TCPSegment) :
    Prop where
  segmentsOut : st'.segmentsOut = st.segmentsOut
  outstanding : st.outstandingSegments = popped ++ st'.outstandingSegments
  isn : st'.isn = st.isn
  stream : st'.stream = st.stream
  nextSeqno : st'.nextSeqno = st.nextSeqno
  synSet : st'.isSynSet = st.isSynSet
  finSet : st'.isFinSet = st.isFinSet
  recent : st'.recentAbsAckno = absAckno
  window : st'.windowSize = if window = 0 then 1 else window
  /-- Every popped segment was seen to end at or before the acknowledgment number. -/
  covered : ∀ seg ∈ popped, absAckno ≤ st.nextSeqno ∧
    u64 (unwrap seg.header.seqno st.isn st.recentAbsAckno + seg.lengthInSequenceSpace) ≤ absAckno
  /-- The first segment left was not. -/
  stops : ∀ seg rest, st'.outstandingSegments = seg :: rest →
    absAckno < u64 (unwrap seg.header.seqno st.isn st.recentAbsAckno + seg.lengthInSequenceSpace) ∨
      absAckno > st.nextSeqno
  flight : st.bytesInFlight = seqLen st.outstandingSegments → st.bytesInFlight < 2 ^ 64 →
    st'.bytesInFlight = seqLen st'.outstandingSegments
  timer : (st.timer.ifRun = true ↔ st.outstandingSegments ≠ []) →
    (st'.timer.ifRun = true ↔ st'.outstandingSegments ≠ [])

/-- What the pop loop does to a sender: it takes `popped` off the front of the outstanding
segments. -/
structure Popped (absAckno : ℕ) (st st' : TCPSender) (popped : List TCPSegment) : Prop where
  segmentsOut : st'.segmentsOut = st.segmentsOut
  outstanding : st.outstandingSegments = popped ++ st'.outstandingSegments
  isn : st'.isn = st.isn
  stream : st'.stream = st.stream
  nextSeqno : st'.nextSeqno = st.nextSeqno
  synSet : st'.isSynSet = st.isSynSet
  finSet : st'.isFinSet = st.isFinSet
  window : st'.windowSize = st.windowSize
  covered : ∀ seg ∈ popped, absAckno ≤ st.nextSeqno ∧
    u64 (unwrap seg.header.seqno st.isn st.recentAbsAckno + seg.lengthInSequenceSpace) ≤ absAckno
  stops : ∀ seg rest, st'.outstandingSegments = seg :: rest →
    absAckno < u64 (unwrap seg.header.seqno st.isn st.recentAbsAckno + seg.lengthInSequenceSpace) ∨
      absAckno > st.nextSeqno
  flight : seqLen st.outstandingSegments ≤ st.bytesInFlight → st.bytesInFlight < 2 ^ 64 →
    st'.bytesInFlight + seqLen popped = st.bytesInFlight
  timer : st'.timer.ifRun = true ∨ popped = [] ∧ st'.timer = st.timer

/-- The loop stops at a segment that is not covered, or at the end of the queue. -/
theorem Popped.stop {absAckno : ℕ}
    (hstop : ∀ seg rest, st.outstandingSegments = seg :: rest →
      absAckno < u64 (unwrap seg.header.seqno st.isn st.recentAbsAckno +
        seg.lengthInSequenceSpace) ∨ absAckno > st.nextSeqno) :
    Popped absAckno st st [] where
  segmentsOut := rfl
  outstanding := rfl
  isn := rfl
  stream := rfl
  nextSeqno := rfl
  synSet := rfl
  finSet := rfl
  window := rfl
  covered := fun _ hseg => absurd hseg List.not_mem_nil
  stops := hstop
  flight := fun _ _ => by rw [seqLen_nil, add_zero]
  timer := Or.inr ⟨rfl, rfl⟩

/-- One covered segment, and then the rest of the loop. -/
theorem Popped.cons {absAckno : ℕ} {st' : TCPSender} {seg : TCPSegment}
    {rest popped : List TCPSegment} (hqueue : st.outstandingSegments = seg :: rest)
    (hgo : ¬ (absAckno < u64 (unwrap seg.header.seqno st.isn st.recentAbsAckno +
      seg.lengthInSequenceSpace) ∨ absAckno > st.nextSeqno))
    (h : Popped absAckno
      { st with
        outstandingSegments := rest
        bytesInFlight := sub64 st.bytesInFlight seg.lengthInSequenceSpace
        rto := st.initialRetransmissionTimeout
        consecutiveRetransmissions := 0
        timer := st.timer.start } st' popped) :
    Popped absAckno st st' (seg :: popped) where
  segmentsOut := h.segmentsOut
  outstanding := by
    rw [hqueue, List.cons_append]
    exact congrArg (seg :: ·) h.outstanding
  isn := h.isn
  stream := h.stream
  nextSeqno := h.nextSeqno
  synSet := h.synSet
  finSet := h.finSet
  window := h.window
  covered := by
    intro s hs
    rcases List.mem_cons.mp hs with rfl | hmem
    · exact ⟨by omega, by omega⟩
    · exact h.covered s hmem
  stops := h.stops
  flight := by
    intro hle hlt
    rw [hqueue, seqLen_cons] at hle
    have hsub : sub64 st.bytesInFlight seg.lengthInSequenceSpace =
        st.bytesInFlight - seg.lengthInSequenceSpace := sub64_of_le hlt (by omega)
    have hrest := h.flight (by simp only [hsub]; omega) (sub64_lt _ _)
    simp only [hsub] at hrest
    rw [seqLen_cons]
    omega
  timer := by
    -- popping starts the timer, and nothing in the loop stops it
    rcases h.timer with hrun | ⟨-, hsame⟩
    · exact Or.inl hrun
    · exact Or.inl (by rw [hsame]; rfl)

theorem Popped.flight_eq {absAckno : ℕ} {st' : TCPSender} {popped : List TCPSegment}
    (h : Popped absAckno st st' popped) (hflight : st.bytesInFlight = seqLen st.outstandingSegments)
    (hlt : st.bytesInFlight < 2 ^ 64) : st'.bytesInFlight = seqLen st'.outstandingSegments := by
  have hadd := h.flight hflight.ge hlt
  rw [hflight, h.outstanding, seqLen_append] at hadd
  omega

/-- The timer at the end of the loop, if segments are left. -/
theorem Popped.timer_of_left {absAckno : ℕ} {st' : TCPSender} {popped : List TCPSegment}
    (h : Popped absAckno st st' popped)
    (hrun : st.timer.ifRun = true ↔ st.outstandingSegments ≠ [])
    (hleft : st'.outstandingSegments ≠ []) : st'.timer.ifRun = true := by
  rcases h.timer with hstarted | ⟨-, hsame⟩
  · exact hstarted
  · -- nothing was popped, so the timer ran before
    rw [hsame, hrun, h.outstanding]
    exact fun hnil => hleft (List.append_eq_nil_iff.mp hnil).2

/-- The pop loop, over the queue it works on. -/
theorem popAcked_popped (absAckno : ℕ) (queue : List TCPSegment) (st : TCPSender)
    (hqueue : st.outstandingSegments = queue) :
    ∃ popped, Popped absAckno st (popAcked absAckno queue st) popped := by
  induction queue generalizing st with
  | nil =>
    refine ⟨[], Popped.stop ?_⟩
    intro seg rest hcons
    rw [hqueue] at hcons
    cases hcons
  | cons seg queue ih =>
    rw [popAcked]
    split
    · rename_i hstop
      refine ⟨[], Popped.stop ?_⟩
      intro seg' rest hcons
      rw [hqueue] at hcons
      cases hcons
      exact hstop
    · rename_i hgo
      obtain ⟨popped, hp⟩ := ih
        { st with
          outstandingSegments := queue
          bytesInFlight := sub64 st.bytesInFlight seg.lengthInSequenceSpace
          rto := st.initialRetransmissionTimeout
          consecutiveRetransmissions := 0
          timer := st.timer.start } rfl
      exact ⟨seg :: popped, Popped.cons hqueue hgo hp⟩

/-- A window of zero is treated as one. -/
theorem toNat_window (window : UInt16) :
    (if window = 0 then (1 : UInt16) else window).toNat = max 1 window.toNat := by
  split
  · rename_i hw
    rw [hw]
    rfl
  · rename_i hw
    have : window.toNat ≠ 0 := fun h => hw (UInt16.toNat_inj.mp h)
    omega

theorem takeWindow_eq (st : TCPSender) (window : UInt16) :
    ∃ zero, st.takeWindow window =
      { st with windowSize := if window = 0 then 1 else window, isWindowSize0 := zero } := by
  unfold takeWindow
  by_cases hw : window = 0
  · exact ⟨true, by rw [if_pos hw, if_pos hw]⟩
  · exact ⟨st.isWindowSize0, by rw [if_neg hw, if_neg hw]⟩

theorem ackReceived_acked (st : TCPSender) (ackno : WrappingInt32) (window : UInt16) :
    ∃ popped, Acked st (st.ackReceived ackno window)
      (unwrap ackno st.isn st.recentAbsAckno) window popped := by
  obtain ⟨zero, hwindow⟩ := takeWindow_eq st window
  unfold ackReceived
  rw [hwindow]
  obtain ⟨popped, hp⟩ :=
    popAcked_popped (unwrap ackno st.isn st.recentAbsAckno) st.outstandingSegments
      { st with windowSize := if window = 0 then 1 else window, isWindowSize0 := zero } rfl
  refine ⟨popped, ?_⟩
  generalize hw : (if window = 0 then (1 : UInt16) else window) = w at hp ⊢
  dsimp only
  split
  · rename_i hempty
    have hnil := List.isEmpty_iff.mp hempty
    exact ⟨hp.segmentsOut, hp.outstanding, hp.isn, hp.stream, hp.nextSeqno, hp.synSet, hp.finSet,
      rfl, hp.window.trans hw.symm, hp.covered, hp.stops, hp.flight_eq,
      fun _ => iff_of_false Bool.false_ne_true (fun hne => hne hnil)⟩
  · rename_i hleft
    have hne := fun hnil => hleft (List.isEmpty_iff.mpr hnil)
    exact ⟨hp.segmentsOut, hp.outstanding, hp.isn, hp.stream, hp.nextSeqno, hp.synSet, hp.finSet,
      rfl, hp.window.trans hw.symm, hp.covered, hp.stops, hp.flight_eq,
      fun hrun => iff_of_true (hp.timer_of_left hrun hne) hne⟩

/-- `ack_received` moves the popped segments to the acknowledged ones. -/
theorem SenderInv.ack {st' : TCPSender} {absAckno : ℕ} {window : UInt16}
    {popped : List TCPSegment} (h : SenderInv accepted acked st)
    (ha : Acked st st' absAckno window popped) (hlt : absAckno < 2 ^ 64) :
    SenderInv accepted (acked ++ popped) st' := by
  have hcreated : acked ++ popped ++ st'.outstandingSegments = acked ++ st.outstandingSegments := by
    rw [List.append_assoc, ← ha.outstanding]
  have hle := h.flight_le
  have hnext := h.next_lt
  refine
    { sent := ?_, stream := ?_, next := ?_, next_lt := ?_, syn := ?_, fin := ?_, ended := ?_,
      flight := ha.flight h.flight (by omega), timer := ha.timer h.timer, read := ?_,
      written := ?_, recent := ?_ }
  all_goals simp only [hcreated, ha.isn, ha.stream, ha.nextSeqno, ha.synSet, ha.finSet, ha.recent]
  exacts [h.sent, h.stream, h.next, h.next_lt, h.syn, h.fin, h.ended, h.read, h.written, hlt]

/-! ### What an acknowledgment pops

The pop loop unwraps the sequence numbers of outstanding segments against the last
acknowledgment number.  While the outstanding data is less than `2 ^ 31` away from it, that gives
the true positions. -/

/-- The outstanding segments are near enough to the last acknowledgment number. -/
structure Near (acked : List TCPSegment) (st : TCPSender) : Prop where
  above : st.nextSeqno < st.recentAbsAckno + 2 ^ 31
  below : st.outstandingSegments ≠ [] → st.recentAbsAckno < seqLen acked + 2 ^ 31

theorem SenderInv.unwrap_seqno (h : SenderInv accepted acked st) (hnear : Near acked st)
    {pre post : List TCPSegment} {seg : TCPSegment}
    (hsplit : st.outstandingSegments = pre ++ seg :: post) :
    unwrap seg.header.seqno st.isn st.recentAbsAckno = seqLen (acked ++ pre) ∧
      seqLen (acked ++ pre) + seg.lengthInSequenceSpace ≤ st.nextSeqno := by
  have hplaced := h.sent (acked ++ pre) seg post (by rw [hsplit, List.append_assoc])
  have hnext := h.next
  have hlt := h.next_lt
  have habove := hnear.above
  have hbelow := hnear.below (by rw [hsplit]; simp)
  have hrecent := h.recent
  rw [hsplit] at hnext
  simp only [seqLen_append, seqLen_cons] at hnext ⊢
  refine ⟨?_, by omega⟩
  rw [hplaced.seqno, seqLen_append]
  exact unwrap_wrap _ (by omega) (by omega) (by omega) (by omega)

theorem SenderInv.unwrap_outstanding (h : SenderInv accepted acked st) (hnear : Near acked st)
    {pre post : List TCPSegment} {seg : TCPSegment}
    (hsplit : st.outstandingSegments = pre ++ seg :: post) :
    u64 (unwrap seg.header.seqno st.isn st.recentAbsAckno + seg.lengthInSequenceSpace) =
      seqLen (acked ++ pre) + seg.lengthInSequenceSpace := by
  obtain ⟨hpos, hle⟩ := h.unwrap_seqno hnear hsplit
  rw [hpos, u64_of_lt (hle.trans_lt h.next_lt)]

/-- An acknowledgment pops only what ends at or before it, and is not beyond `next_seqno` when
it pops. -/
theorem SenderInv.popped_le {st' : TCPSender} {absAckno : ℕ} {window : UInt16}
    {popped : List TCPSegment} (h : SenderInv accepted acked st) (hnear : Near acked st)
    (ha : Acked st st' absAckno window popped) (hne : popped ≠ []) :
    seqLen (acked ++ popped) ≤ absAckno ∧ absAckno ≤ st.nextSeqno := by
  obtain ⟨pre, seg, rfl⟩ := List.eq_nil_or_concat' popped |>.resolve_left hne
  obtain ⟨hle, hcov⟩ := ha.covered seg (by simp)
  have hsplit : st.outstandingSegments = pre ++ seg :: st'.outstandingSegments := by
    rw [ha.outstanding, List.append_assoc]
    rfl
  rw [h.unwrap_outstanding hnear hsplit] at hcov
  refine ⟨?_, hle⟩
  simp only [seqLen_append, seqLen_cons, seqLen_nil] at hcov ⊢
  omega

/-- What an acknowledgment leaves ends beyond it, or it is beyond `next_seqno`. -/
theorem SenderInv.left_gt {st' : TCPSender} {absAckno : ℕ} {window : UInt16}
    {popped : List TCPSegment} (h : SenderInv accepted acked st) (hnear : Near acked st)
    (ha : Acked st st' absAckno window popped) {seg : TCPSegment} {rest : List TCPSegment}
    (hleft : st'.outstandingSegments = seg :: rest) :
    absAckno < seqLen (acked ++ popped) + seg.lengthInSequenceSpace ∨
      absAckno > st.nextSeqno := by
  have hstop := ha.stops seg rest hleft
  rwa [h.unwrap_outstanding hnear (ha.outstanding.trans (by rw [hleft]))] at hstop

/-- After an acknowledgment up to `next_seqno` what is still outstanding is near it. -/
theorem SenderInv.near_ack {st' : TCPSender} {absAckno : ℕ} {window : UInt16}
    {popped : List TCPSegment} (h : SenderInv accepted acked st) (hnear : Near acked st)
    (ha : Acked st st' absAckno window popped) (hle : absAckno ≤ st.nextSeqno)
    (hclose : st.nextSeqno < absAckno + 2 ^ 31) : Near (acked ++ popped) st' := by
  refine ⟨by rw [ha.nextSeqno, ha.recent]; exact hclose, fun hne => ?_⟩
  obtain ⟨seg, rest, hleft⟩ := List.exists_cons_of_ne_nil hne
  have hplaced := h.sent (acked ++ popped) seg rest (by
    rw [ha.outstanding, hleft, List.append_assoc])
  have hlen := hplaced.length_le
  rw [ha.recent]
  unfold maxPayloadSize at hlen
  rcases h.left_gt hnear ha hleft with hgt | hgt <;> omega

end Inv

end TCPSender

end Sponge
