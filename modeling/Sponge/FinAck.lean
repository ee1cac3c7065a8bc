import Sponge.SenderWindow
import Sponge.TcpConnection

/-!
# When the FIN counts as acknowledged

`is_fin_acked` compares `next_seqno` with the last acknowledgment number; `state_summary` and
`bytes_in_flight` look at the outstanding segments.  `FinInv` keeps the two together: once the
FIN is sent, the last acknowledgment number is `next_seqno` exactly when nothing is outstanding.
An acknowledgment breaks it when it arrives after everything was acknowledged and says something
else (a late duplicate does), when it is beyond `next_seqno` before the FIN is sent, or when it
is `2 ^ 31` away.
-/

namespace Sponge

open MachineInt Run

namespace TCPSender

section Inv

variable {accepted : List UInt8} {acked : List TCPSegment} {st : TCPSender}

/-- After the FIN `fill_window` creates nothing. -/
theorem SenderInv.fillWindow_of_fin (h : SenderInv accepted acked st) (hfin : st.isFinSet = true) :
    st.fillWindow.outstandingSegments = st.outstandingSegments := by
  obtain ⟨new, hf⟩ := fillWindow_filled st
  obtain ⟨seg, hmem, hseg⟩ := h.fin.mp hfin
  obtain ⟨pre, post, hsplit⟩ := List.append_of_mem hmem
  have hsent := h.fillWindow.sent
  rw [hf.outstanding, ← List.append_assoc, hsplit, List.append_assoc, List.cons_append] at hsent
  have hnil := hsent.fin_last hseg
  rw [hf.outstanding, (List.append_eq_nil_iff.mp hnil).2, List.append_nil]

theorem SenderInv.fillWindow_next_of_fin (h : SenderInv accepted acked st)
    (hfin : st.isFinSet = true) : st.fillWindow.nextSeqno = st.nextSeqno := by
  rw [h.fillWindow.next, h.fillWindow_of_fin hfin, h.next]

theorem SenderInv.fillWindow_keeps_fin (h : SenderInv accepted acked st)
    (hfin : st.isFinSet = true) : st.fillWindow.isFinSet = true := by
  obtain ⟨seg, hmem, hseg⟩ := h.fin.mp hfin
  exact h.fillWindow.fin.mpr ⟨seg, by rw [h.fillWindow_of_fin hfin]; exact hmem, hseg⟩

/-- A `fill_window` that sets the FIN leaves something outstanding and moves `next_seqno`. -/
theorem SenderInv.fillWindow_sets_fin (h : SenderInv accepted acked st)
    (hopen : st.isFinSet = false) (hfin : st.fillWindow.isFinSet = true) :
    st.fillWindow.outstandingSegments ≠ [] ∧ st.nextSeqno < st.fillWindow.nextSeqno := by
  obtain ⟨new, hf⟩ := fillWindow_filled st
  obtain ⟨seg, hmem, hseg⟩ := h.fillWindow.fin.mp hfin
  rw [hf.outstanding, ← List.append_assoc] at hmem
  have hnew : seg ∈ new := by
    refine (List.mem_append.mp hmem).resolve_left fun hold => ?_
    rw [h.fin.mpr ⟨seg, hold, hseg⟩] at hopen
    cases hopen
  have hne : new ≠ [] := List.ne_nil_of_mem hnew
  refine ⟨by rw [hf.outstanding]; simp [hne], ?_⟩
  have hlen := h.fillWindow.sent
  rw [hf.outstanding, ← List.append_assoc] at hlen
  obtain ⟨pre, post, hsplit⟩ := List.append_of_mem hnew
  have hseg := (hlen (acked ++ st.outstandingSegments ++ pre) seg post
    (by rw [hsplit]; simp)).nonempty
  rw [h.fillWindow.next, h.next, hf.outstanding, hsplit]
  simp only [seqLen_append, seqLen_cons]
  omega

/-- Filling the window keeps the outstanding data near the last acknowledgment. -/
theorem SenderInv.near_fill (h : SenderInv accepted acked st) (hnear : Near acked st)
    (hopen : st.isFinSet = false → st.recentAbsAckno ≤ st.nextSeqno) :
    Near acked st.fillWindow := by
  obtain ⟨new, hf⟩ := fillWindow_filled st
  refine ⟨?_, ?_⟩
  · rw [hf.recent]
    have habove := hnear.above
    have hle := h.fillWindow_next_le
    omega
  · rw [hf.recent]
    intro hne
    by_cases hnil : st.outstandingSegments = []
    · cases hfin : st.isFinSet with
      | true => exact absurd (h.fillWindow_of_fin hfin ▸ hnil) hne
      | false =>
        have hle := hopen hfin
        have hnext := h.next
        rw [hnil, List.append_nil] at hnext
        omega
    · exact hnear.below hnil

theorem SenderInv.flight_zero_iff (h : SenderInv accepted acked st) :
    st.bytesInFlight = 0 ↔ st.outstandingSegments = [] := by
  constructor
  · intro hzero
    by_contra hne
    obtain ⟨seg, rest, hcons⟩ := List.exists_cons_of_ne_nil hne
    have hseg := (h.sent acked seg rest (by rw [hcons])).nonempty
    rw [h.flight, hcons, seqLen_cons] at hzero
    omega
  · intro hnil
    rw [h.flight, hnil, seqLen_nil]

/-- With the FIN sent, `next_seqno` is two more than the bytes written. -/
theorem SenderInv.next_of_fin (h : SenderInv accepted acked st) (hfin : st.isFinSet = true) :
    st.stream.eof = true ∧ st.nextSeqno = u64 (st.stream.bytesWritten + 2) := by
  obtain ⟨hin, hbuf⟩ := h.ended hfin
  obtain ⟨seg, hmem, -⟩ := h.fin.mp hfin
  have hsyn := h.syn.mpr (List.ne_nil_of_mem hmem)
  have hnext := h.next_eq
  have hlt := h.next_lt
  have hlen := congrArg List.length h.stream
  rw [hbuf, List.append_nil, ← h.read] at hlen
  rw [if_pos hsyn, if_pos hfin] at hnext
  refine ⟨(ByteStream.eof_iff _).mpr ⟨hin, hbuf⟩, ?_⟩
  rw [ByteStream.bytesWritten, h.written, ← hlen, u64_add, u64_of_lt (by omega)]
  omega

/-- At the end of a stream whose FIN is not sent, `next_seqno` is still one short. -/
theorem SenderInv.next_of_eof (h : SenderInv accepted acked st) (hfin : st.isFinSet = false)
    (heof : st.stream.eof = true) (hzero : st.nextSeqno ≠ 0) (hroom : st.nextSeqno < 2 ^ 64 - 1) :
    st.nextSeqno < u64 (st.stream.bytesWritten + 2) := by
  obtain ⟨-, hbuf⟩ := (ByteStream.eof_iff _).mp heof
  have hnext := h.next_eq
  have hlen := congrArg List.length h.stream
  rw [hbuf, List.append_nil, ← h.read] at hlen
  rw [if_pos (h.synSet_iff.mpr hzero), hfin, if_neg (by simp)] at hnext
  rw [ByteStream.bytesWritten, h.written, ← hlen, u64_add, u64_of_lt (by omega)]
  omega

end Inv

namespace SenderTrace

/-- An acknowledgment that keeps the two notions together: before the FIN it is not beyond
`next_seqno`; while data is outstanding it is not far from it; and once the FIN is sent with
nothing in flight it is `next_seqno`. -/
def AckTimely (t : SenderTrace) : SenderOp → Prop
  | .ackReceived ackno _ =>
    t.sender.nextSeqno < t.sender.absAckno ackno + 2 ^ 31 ∧
      (t.sender.absAckno ackno ≤ t.sender.nextSeqno ∨
        t.sender.isFinSet = true ∧
          t.sender.absAckno ackno + t.sender.bytesInFlight < t.sender.nextSeqno + 2 ^ 31) ∧
      (t.sender.isFinSet = true → t.sender.bytesInFlight = 0 →
        t.sender.absAckno ackno = t.sender.nextSeqno)
  | _ => True

instance (t : SenderTrace) (op : SenderOp) : Decidable (AckTimely t op) := by
  cases op <;> unfold AckTimely <;> infer_instance

/-- Once the FIN is sent, the last acknowledgment is `next_seqno` exactly when nothing is
outstanding. -/
structure FinInv (isn : WrappingInt32) (acked : List TCPSegment) (t : SenderTrace) : Prop where
  trace : TraceInv isn acked t
  near : Near acked t.sender
  before : t.sender.isFinSet = false → t.sender.recentAbsAckno ≤ t.sender.nextSeqno
  agree : t.sender.isFinSet = true →
    (t.sender.recentAbsAckno = t.sender.nextSeqno ↔ t.sender.outstandingSegments = [])

variable {isn : WrappingInt32} {acked : List TCPSegment} {t : SenderTrace} {op : SenderOp}

theorem FinInv.unmoved (h : FinInv isn acked t) (hop : op.moves = false) :
    FinInv isn acked (traceStep t op) := by
  have hst := senderStep_unmoved t.sender hop
  refine ⟨h.trace.unmoved hop, ⟨?_, ?_⟩, ?_, ?_⟩ <;>
    simp only [traceStep, hst.nextSeqno, hst.recent, hst.outstanding, hst.finSet]
  exacts [h.near.above, h.near.below, h.before, h.agree]

theorem FinInv.fillWindow (h : FinInv isn acked t) :
    FinInv isn acked (traceStep t .fillWindow) := by
  obtain ⟨new, hf⟩ := fillWindow_filled t.sender
  have hinv := h.trace.inv
  refine ⟨h.trace.fillWindow, hinv.near_fill h.near h.before, ?_, ?_⟩
  · intro hopen
    have hle := hinv.nextSeqno_le_fillWindow
    show t.sender.fillWindow.recentAbsAckno ≤ t.sender.fillWindow.nextSeqno
    have hopen' : t.sender.isFinSet = false := by
      by_contra hset
      have hfin := hinv.fillWindow_keeps_fin (by simpa using hset)
      exact absurd (hfin.symm.trans hopen) (by decide)
    rw [hf.recent]
    exact (h.before hopen').trans hle
  · intro hset
    show t.sender.fillWindow.recentAbsAckno = t.sender.fillWindow.nextSeqno ↔
      t.sender.fillWindow.outstandingSegments = []
    rw [hf.recent]
    cases hfin : t.sender.isFinSet with
    | true =>
      rw [hinv.fillWindow_of_fin hfin, hinv.fillWindow_next_of_fin hfin]
      exact h.agree hfin
    | false =>
      obtain ⟨hne, hlt⟩ := hinv.fillWindow_sets_fin hfin hset
      have hle := h.before hfin
      exact iff_of_false (by omega) hne

section Ack

variable {ackno : WrappingInt32} {window : UInt16} {popped : List TCPSegment}

/-- A timely acknowledgment leaves the window base near the segments that remain. -/
theorem FinInv.near_ack (h : FinInv isn acked t)
    (ha : Acked t.sender (t.sender.ackReceived ackno window) (t.sender.absAckno ackno) window
      popped)
    (hok : AckTimely t (.ackReceived ackno window)) :
    Near (acked ++ popped) (t.sender.ackReceived ackno window) := by
  obtain ⟨hclose, hrange, _⟩ := hok
  have hinv := h.trace.inv
  by_cases hle : t.sender.absAckno ackno ≤ t.sender.nextSeqno
  · exact hinv.near_ack h.near ha hle hclose
  · -- an acknowledgment beyond `next_seqno` pops nothing
    obtain ⟨hfin, hfar⟩ := hrange.resolve_left hle
    have hnil : popped = [] := by
      by_contra hne
      exact hle (hinv.popped_le h.near ha hne).2
    have hnext := hinv.next
    rw [seqLen_append, ← hinv.flight] at hnext
    refine ⟨?_, fun _ => ?_⟩
    · rw [ha.nextSeqno, ha.recent]
      exact hclose
    · rw [ha.recent, hnil, List.append_nil]
      omega

/-- After the FIN a timely acknowledgment is for everything exactly when nothing remains. -/
theorem FinInv.agree_ack (h : FinInv isn acked t)
    (ha : Acked t.sender (t.sender.ackReceived ackno window) (t.sender.absAckno ackno) window
      popped)
    (hok : AckTimely t (.ackReceived ackno window)) (hset : t.sender.isFinSet = true) :
    t.sender.absAckno ackno = t.sender.nextSeqno ↔
      (t.sender.ackReceived ackno window).outstandingSegments = [] := by
  have hinv := h.trace.inv
  have hnext := hinv.next
  constructor
  · intro heq
    by_contra hne
    obtain ⟨seg, rest, hleft⟩ := List.exists_cons_of_ne_nil hne
    rw [ha.outstanding, hleft] at hnext
    simp only [seqLen_append, seqLen_cons] at hnext
    rcases hinv.left_gt h.near ha hleft with hgt | hgt
    · rw [seqLen_append] at hgt
      omega
    · omega
  · intro hnil
    by_cases hpop : popped = []
    · refine hok.2.2 hset (hinv.flight_zero_iff.mpr ?_)
      rw [ha.outstanding, hnil, hpop, List.append_nil]
    · obtain ⟨hge, hle⟩ := hinv.popped_le h.near ha hpop
      rw [ha.outstanding, hnil, List.append_nil] at hnext
      omega

/-- A timely acknowledgment keeps the invariant. -/
theorem FinInv.ack (h : FinInv isn acked t)
    (ht : TraceInv isn (acked ++ popped) (traceStep t (.ackReceived ackno window)))
    (ha : Acked t.sender (t.sender.ackReceived ackno window) (t.sender.absAckno ackno) window
      popped)
    (hok : AckTimely t (.ackReceived ackno window)) :
    FinInv isn (acked ++ popped) (traceStep t (.ackReceived ackno window)) := by
  refine ⟨ht, h.near_ack ha hok, ?_, ?_⟩
  · intro hopen
    show (t.sender.ackReceived ackno window).recentAbsAckno ≤
      (t.sender.ackReceived ackno window).nextSeqno
    have hopen : t.sender.isFinSet = false := ha.finSet.symm.trans hopen
    rw [ha.recent, ha.nextSeqno]
    rcases hok.2.1 with hle | ⟨hfin, -⟩
    · exact hle
    · rw [hopen] at hfin
      cases hfin
  · intro hset
    show (t.sender.ackReceived ackno window).recentAbsAckno =
      (t.sender.ackReceived ackno window).nextSeqno ↔ _
    rw [ha.recent, ha.nextSeqno]
    exact h.agree_ack ha hok (ha.finSet.symm.trans hset)

end Ack

/-- **Step.** -/
theorem FinInv.step (h : FinInv isn acked t) (hok : AckTimely t op) :
    ∃ popped, FinInv isn (acked ++ popped) (traceStep t op) := by
  cases op with
  | ackReceived ackno window =>
    obtain ⟨popped, ha⟩ := ackReceived_acked t.sender ackno window
    have ht : TraceInv isn (acked ++ popped) (traceStep t (.ackReceived ackno window)) :=
      h.trace.ack ha
    exact ⟨popped, h.ack ht ha hok⟩
  | fillWindow => exact ⟨[], by rw [List.append_nil]; exact h.fillWindow⟩
  | _ => exact ⟨[], by rw [List.append_nil]; exact h.unmoved rfl⟩

theorem FinInv.new (capacity : ℕ) (retxTimeout : UInt16) (fixedIsn : Option WrappingInt32)
    (random : WrappingInt32) :
    FinInv (fixedIsn.getD random) []
      (start (TCPSender.new capacity retxTimeout fixedIsn random)) where
  trace := ⟨new_inv .., rfl, rfl, by simp [start]⟩
  near := ⟨by simp [start, TCPSender.new], fun h => absurd rfl h⟩
  before := fun _ => le_rfl
  agree := fun h => by cases h

/-! ### What agrees -/

theorem FinInv.isFinAcked_iff (h : FinInv isn acked t) :
    t.sender.isFinAcked = true ↔ t.sender.isFinSent = true ∧ t.sender.bytesInFlight = 0 := by
  rw [isFinAcked, isFinSent, Bool.and_eq_true, beq_iff_eq,
    h.trace.inv.flight_zero_iff]
  refine and_congr_right fun hfin => ?_
  rw [← h.agree hfin]
  exact eq_comm

theorem FinInv.stateSummary_iff (h : FinInv isn acked t) (herr : t.sender.stream.error = false)
    (hroom : t.sender.nextSeqno < 2 ^ 64 - 1) :
    t.sender.isFinAcked = true ↔ t.sender.stateSummary = .finAcked := by
  rw [h.isFinAcked_iff]
  have hinv := h.trace.inv
  constructor
  · intro hall
    obtain ⟨hfin, hflight⟩ := hall
    obtain ⟨heof, hnext⟩ := hinv.next_of_fin hfin
    have hzero : t.sender.nextSeqno ≠ 0 := by
      have hset : t.sender.isFinSet = true := hfin
      have := hinv.next_eq
      rw [if_pos hset] at this
      omega
    simp [stateSummary, herr, hflight, hzero, heof, ← hnext]
  · intro hsum
    simp only [stateSummary, herr, Bool.false_eq_true, if_false] at hsum
    split at hsum
    · cases hsum
    rename_i hzero
    split at hsum
    · cases hsum
    split at hsum
    · cases hsum
    rename_i heof
    split at hsum
    · cases hsum
    rename_i hlt
    split at hsum
    · cases hsum
    rename_i hflight
    refine ⟨?_, not_not.mp hflight⟩
    by_contra hfin
    have hfin : t.sender.isFinSet = false := by simpa [isFinSent] using hfin
    exact hlt (hinv.next_of_eof hfin (by simpa using heof) hzero hroom)

/-- The two notions agree in this state: with each other, with the state summary, and with the
clean-shutdown test of every connection that has this sender. -/
structure FinAgreed (t : SenderTrace) : Prop where
  inFlight : t.sender.isFinAcked = true ↔
    t.sender.isFinSent = true ∧ t.sender.bytesInFlight = 0
  summary : t.sender.stream.error = false → t.sender.nextSeqno < 2 ^ 64 - 1 →
    (t.sender.isFinAcked = true ↔ t.sender.stateSummary = .finAcked)
  shutdown : ∀ c : TCPConnection, c.sender = t.sender → c.sender.stream.error = false →
    c.sender.stream.eof = true → c.sender.isFinSent = true → c.bytesInFlight = 0 →
    c.inboundStream.inputEnded = true → c.unassembledBytes = 0 → c.cleanShutdown = true

theorem FinInv.finAgreed (h : FinInv isn acked t) : FinAgreed t where
  inFlight := h.isFinAcked_iff
  summary := h.stateSummary_iff
  shutdown := by
    intro c hc _ heof hfin hflight hended hnone
    rw [TCPConnection.bytesInFlight, hc] at hflight
    rw [hc] at heof hfin
    have hacked := h.isFinAcked_iff.mpr ⟨hfin, hflight⟩
    have hnext := (h.trace.inv.next_of_fin hfin).2
    have hended : c.receiver.streamOut.inputEnded = true := hended
    simp [TCPConnection.cleanShutdown, TCPConnection.bytesInFlight, hc, heof, hended, hflight,
      hnone, hacked, ← hnext]

theorem isFinAcked_unmoved (st : TCPSender) (hop : op.moves = false) :
    (senderStep st op).isFinAcked = st.isFinAcked := by
  have hst := senderStep_unmoved st hop
  rw [isFinAcked, hst.finSet, hst.nextSeqno, hst.recent, isFinAcked]

/-- Once the FIN counts as acknowledged, a timely step keeps it so. -/
theorem FinInv.isFinAcked_step (h : FinInv isn acked t) (hok : AckTimely t op)
    (hacked : t.sender.isFinAcked = true) : (senderStep t.sender op).isFinAcked = true := by
  obtain ⟨hfin, hflight⟩ := h.isFinAcked_iff.mp hacked
  have heq : t.sender.nextSeqno = t.sender.recentAbsAckno := by
    simpa [isFinAcked, show t.sender.isFinSet = true from hfin] using hacked
  cases op with
  | ackReceived ackno window =>
    obtain ⟨popped, ha⟩ := ackReceived_acked t.sender ackno window
    rw [isFinAcked, Bool.and_eq_true, beq_iff_eq]
    refine ⟨ha.finSet.trans hfin, ?_⟩
    exact (ha.nextSeqno.trans (hok.2.2 hfin hflight).symm).trans ha.recent.symm
  | fillWindow =>
    obtain ⟨new, hf⟩ := fillWindow_filled t.sender
    have hinv := h.trace.inv
    rw [isFinAcked, Bool.and_eq_true, beq_iff_eq]
    exact ⟨hinv.fillWindow_keeps_fin hfin,
      ((hinv.fillWindow_next_of_fin hfin).trans heq).trans hf.recent.symm⟩
  | _ => exact (isFinAcked_unmoved t.sender rfl).trans hacked

/-- **The two notions of an acknowledged FIN agree** in every state of every run whose
acknowledgments are timely, and once they hold they keep holding. -/
theorem finAgreed_of_ackTimely (capacity : ℕ) (retxTimeout : UInt16)
    (fixedIsn : Option WrappingInt32) (random : WrappingInt32) (ops more : List SenderOp) :
    let t := start (TCPSender.new capacity retxTimeout fixedIsn random)
    Along traceStep AckTimely t (ops ++ more) →
      FinAgreed (run traceStep t ops) ∧
        ((run traceStep t ops).sender.isFinAcked = true →
          (run traceStep t (ops ++ more)).sender.isFinAcked = true) := by
  intro t hok
  obtain ⟨hops, hmore⟩ := (along_append t ops more).mp hok
  have hstep : ∀ (t : SenderTrace) (op : SenderOp),
      (∃ acked, FinInv (fixedIsn.getD random) acked t) → AckTimely t op →
        ∃ acked, FinInv (fixedIsn.getD random) acked (traceStep t op) := by
    intro t op hinv hop
    obtain ⟨acked, h⟩ := hinv
    obtain ⟨popped, h'⟩ := h.step hop
    exact ⟨_, h'⟩
  have hinv : ∃ acked, FinInv (fixedIsn.getD random) acked (run traceStep t ops) :=
    run_invariant hstep ⟨[], FinInv.new capacity retxTimeout fixedIsn random⟩ hops
  obtain ⟨acked, h⟩ := hinv
  refine ⟨h.finAgreed, fun hacked => ?_⟩
  rw [run_append]
  -- the invariant along the rest of the run, with the FIN acknowledged throughout
  refine (run_invariant (I := fun t => (∃ acked, FinInv (fixedIsn.getD random) acked t) ∧
    t.sender.isFinAcked = true) ?_ ⟨⟨acked, h⟩, hacked⟩ hmore).2
  intro t op hinv hop
  obtain ⟨⟨acked, h⟩, hacked⟩ := hinv
  exact ⟨hstep t op ⟨acked, h⟩ hop, h.isFinAcked_step hop hacked⟩

/-- One byte and the FIN, acknowledged at once, and the last acknowledgment once more. -/
def finAckedRun : List SenderOp :=
  [.fillWindow, .ackReceived ⟨1⟩ 10, .write [97], .endInput, .fillWindow, .ackReceived ⟨3⟩ 10]

theorem finAgreed_of_ackTimely_repeated :
    let t := start (TCPSender.new 8 1000 (some ⟨0⟩) ⟨0⟩)
    FinAgreed (run traceStep t finAckedRun) ∧
      (run traceStep t (finAckedRun ++ [.tick 5, .ackReceived ⟨3⟩ 10])).sender.isFinAcked =
        true := by
  obtain ⟨hagreed, hstays⟩ := finAgreed_of_ackTimely 8 1000 (some ⟨0⟩) ⟨0⟩ finAckedRun
    [.tick 5, .ackReceived ⟨3⟩ 10] (by decide)
  exact ⟨hagreed, hstays (by decide)⟩

/-- The acknowledgment of the byte, arriving again after that of the FIN, makes the FIN count as
not acknowledged although nothing is in flight. -/
theorem finAgreed_fails_on_late_ack :
    ¬ FinAgreed (run traceStep (start (TCPSender.new 8 1000 (some ⟨0⟩) ⟨0⟩))
      (finAckedRun ++ [.ackReceived ⟨2⟩ 10])) := by
  intro h
  exact absurd h.inFlight (by decide)

end SenderTrace

end TCPSender

end Sponge
