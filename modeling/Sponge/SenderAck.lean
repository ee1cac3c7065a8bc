import Sponge.SenderWindow

/-!
# Acknowledgments across wraparound

Sequence numbers on the wire have 32 bits.  `ack_received` unwraps the acknowledgment number and
the sequence number of every outstanding segment it looks at, all against the last acknowledgment
number.  As long as no acknowledgment lags more than `2 ^ 30` behind `next_seqno`, everything the
sender compares stays less than `2 ^ 31` apart, so the true 64-bit numbers come out, however often
the stream has wrapped.
-/

namespace Sponge

open MachineInt Run

/-! ### Segments and their places -/

/-- Consecutive segments with their absolute sequence numbers. -/
def locate : ℕ → List TCPSegment → List (ℕ × TCPSegment)
  | _, [] => []
  | start, seg :: rest => (start, seg) :: locate (start + seg.lengthInSequenceSpace) rest

theorem locate_append (start : ℕ) (segs segs' : List TCPSegment) :
    locate start (segs ++ segs') = locate start segs ++ locate (start + seqLen segs) segs' := by
  induction segs generalizing start with
  | nil => rfl
  | cons seg segs ih => simp [locate, ih, Nat.add_assoc]

@[simp] theorem length_locate (start : ℕ) (segs : List TCPSegment) :
    (locate start segs).length = segs.length := by
  induction segs generalizing start with
  | nil => rfl
  | cons seg segs ih => simp [locate, ih]

@[simp] theorem map_locate (start : ℕ) (segs : List TCPSegment) :
    (locate start segs).map Prod.snd = segs := by
  induction segs generalizing start with
  | nil => rfl
  | cons seg segs ih => simp [locate, ih]

/-- A located segment starts where the segments before it end. -/
theorem mem_locate {start : ℕ} {segs : List TCPSegment} {e : ℕ × TCPSegment}
    (h : e ∈ locate start segs) :
    ∃ pre post, segs = pre ++ e.2 :: post ∧ e.1 = start + seqLen pre := by
  induction segs generalizing start with
  | nil => cases h
  | cons seg segs ih =>
    rcases List.mem_cons.mp h with rfl | hrest
    · exact ⟨[], segs, rfl, rfl⟩
    · obtain ⟨pre, post, hsegs, hstart⟩ := ih hrest
      refine ⟨seg :: pre, post, by rw [hsegs]; rfl, ?_⟩
      rw [hstart, seqLen_cons]
      omega

/-- The ends increase, so a cut between what is covered and what is not is a filter. -/
theorem filter_locate {start ack : ℕ} {front back : List TCPSegment}
    (hfront : front ≠ [] → start + seqLen front ≤ ack)
    (hback : ∀ seg rest, back = seg :: rest →
      ack < start + seqLen front + seg.lengthInSequenceSpace) :
    (locate start (front ++ back)).filter (fun e => ack < e.1 + e.2.lengthInSequenceSpace) =
      locate (start + seqLen front) back := by
  have hcovered : (locate start front).filter
      (fun e => ack < e.1 + e.2.lengthInSequenceSpace) = [] := by
    refine List.filter_eq_nil_iff.mpr fun e he => ?_
    obtain ⟨pre, post, hsplit, hstart⟩ := mem_locate he
    have hle := hfront (by rw [hsplit]; simp)
    rw [hsplit, seqLen_append, seqLen_cons] at hle
    simp only [decide_eq_true_eq, not_lt]
    omega
  have hleft : (locate (start + seqLen front) back).filter
      (fun e => ack < e.1 + e.2.lengthInSequenceSpace) = locate (start + seqLen front) back := by
    refine List.filter_eq_self.mpr fun e he => ?_
    obtain ⟨pre, post, hsplit, hstart⟩ := mem_locate he
    simp only [decide_eq_true_eq]
    cases pre with
    | nil =>
      have hgt := hback e.2 post hsplit
      rw [hstart, seqLen_nil]
      omega
    | cons seg pre =>
      have hgt := hback seg (pre ++ e.2 :: post) hsplit
      rw [hstart, seqLen_cons]
      omega
  rw [locate_append, List.filter_append, hcovered, hleft, List.nil_append]

namespace TCPSender

namespace SenderTrace

/-- The outstanding segments, which are the last ones created, with their absolute sequence
numbers. -/
def outstandingAt (t : SenderTrace) : List (ℕ × TCPSegment) :=
  (locate 0 t.created).drop (t.created.length - t.sender.outstandingSegments.length)

/-- An acknowledgment number is that of a position at most `2 ^ 30` behind `next_seqno`. -/
def AckNear (t : SenderTrace) : SenderOp → Prop
  | .ackReceived ackno _ => ∃ a, ackno = wrap a t.sender.isn ∧
      t.sender.nextSeqno ≤ a + 2 ^ 30 ∧ a ≤ t.sender.nextSeqno
  | _ => True

/-- `ack_received` for the position `a` computes the true absolute numbers, and removes exactly
the outstanding segments that end at or before `a`. -/
structure ExactAck (t : SenderTrace) (a : ℕ) (windowSize : UInt16) : Prop where
  ackno : t.sender.absAckno (wrap a t.sender.isn) = a
  outstanding : t.outstandingAt.map Prod.snd = t.sender.outstandingSegments
  seqno : ∀ e ∈ t.outstandingAt,
    unwrap e.2.header.seqno t.sender.isn t.sender.recentAbsAckno = e.1
  left : (t.sender.ackReceived (wrap a t.sender.isn) windowSize).outstandingSegments =
    (t.outstandingAt.filter fun e => a < e.1 + e.2.lengthInSequenceSpace).map Prod.snd

/-- Every acknowledgment of the step is exact. -/
def AckExact (t : SenderTrace) (op : SenderOp) : Prop :=
  ∀ a windowSize, op = .ackReceived (wrap a t.sender.isn) windowSize →
    t.sender.nextSeqno ≤ a + 2 ^ 30 → a ≤ t.sender.nextSeqno → ExactAck t a windowSize

/-- The sender stays within `2 ^ 30` of its last acknowledgment number. -/
structure AckInv (isn : WrappingInt32) (acked : List TCPSegment) (t : SenderTrace) : Prop where
  trace : TraceInv isn acked t
  le : t.sender.recentAbsAckno ≤ t.sender.nextSeqno
  close : t.sender.nextSeqno ≤ t.sender.recentAbsAckno + 2 ^ 30
  near : Near acked t.sender

variable {isn : WrappingInt32} {acked : List TCPSegment} {t : SenderTrace}

theorem TraceInv.outstandingAt_eq (h : TraceInv isn acked t) :
    t.outstandingAt = locate (seqLen acked) t.sender.outstandingSegments := by
  have hcount : t.created.length - t.sender.outstandingSegments.length =
      (locate 0 acked).length := by
    rw [h.created, List.length_append, length_locate]
    omega
  rw [outstandingAt, hcount, h.created, locate_append, List.drop_left, Nat.zero_add]

/-- An acknowledgment in range is unwrapped to its position. -/
theorem AckInv.absAckno_eq (h : AckInv isn acked t) {a : ℕ}
    (hlo : t.sender.nextSeqno ≤ a + 2 ^ 30) (hhi : a ≤ t.sender.nextSeqno) :
    t.sender.absAckno (wrap a t.sender.isn) = a := by
  have hle := h.le
  have hclose := h.close
  have hlt := h.trace.inv.next_lt
  exact unwrap_wrap _ (by omega) (by omega) (by omega) (by omega)

theorem AckInv.exactAck (h : AckInv isn acked t) {a : ℕ} (windowSize : UInt16)
    (hlo : t.sender.nextSeqno ≤ a + 2 ^ 30) (hhi : a ≤ t.sender.nextSeqno) :
    ExactAck t a windowSize := by
  have hinv := h.trace.inv
  have hack := h.absAckno_eq hlo hhi
  obtain ⟨popped, ha⟩ := ackReceived_acked t.sender (wrap a t.sender.isn) windowSize
  rw [show unwrap (wrap a t.sender.isn) t.sender.isn t.sender.recentAbsAckno = a from hack] at ha
  refine ⟨hack, by rw [h.trace.outstandingAt_eq, map_locate], ?_, ?_⟩
  · intro e he
    rw [h.trace.outstandingAt_eq] at he
    obtain ⟨pre, post, hsplit, hstart⟩ := mem_locate he
    rw [hstart, (hinv.unwrap_seqno h.near hsplit).1, seqLen_append]
  · rw [h.trace.outstandingAt_eq, ha.outstanding, filter_locate, map_locate]
    · intro hne
      have hle := (hinv.popped_le h.near ha hne).1
      rwa [seqLen_append] at hle
    · intro seg rest hleft
      have hgt := (hinv.left_gt h.near ha hleft).resolve_right (by omega)
      rwa [seqLen_append] at hgt

/-! ### The distance along a run -/

theorem AckInv.unmoved (h : AckInv isn acked t) {op : SenderOp} (hop : op.moves = false) :
    AckInv isn acked (traceStep t op) := by
  have hst := senderStep_unmoved t.sender hop
  refine ⟨h.trace.unmoved hop, ?_, ?_, ?_, ?_⟩
  · show (senderStep t.sender op).recentAbsAckno ≤ (senderStep t.sender op).nextSeqno
    rw [hst.recent, hst.nextSeqno]
    exact h.le
  · show (senderStep t.sender op).nextSeqno ≤ (senderStep t.sender op).recentAbsAckno + 2 ^ 30
    rw [hst.recent, hst.nextSeqno]
    exact h.close
  · show (senderStep t.sender op).nextSeqno < (senderStep t.sender op).recentAbsAckno + 2 ^ 31
    rw [hst.recent, hst.nextSeqno]
    exact h.near.above
  · show (senderStep t.sender op).outstandingSegments ≠ [] →
      (senderStep t.sender op).recentAbsAckno < seqLen acked + 2 ^ 31
    rw [hst.recent, hst.outstanding]
    exact h.near.below

/-- A window has at most `2 ^ 16 - 1` bytes, so filling it goes no further than that. -/
theorem AckInv.fillWindow (h : AckInv isn acked t) :
    AckInv isn acked (traceStep t .fillWindow) := by
  obtain ⟨new, hf⟩ := fillWindow_filled t.sender
  have hinv := h.trace.inv
  have hle := h.le
  have hclose := h.close
  have hnext := hinv.fillWindow_next_le
  have hgrow := hinv.nextSeqno_le_fillWindow
  refine ⟨h.trace.fillWindow, ?_, ?_, ?_, ?_⟩
  · show t.sender.fillWindow.recentAbsAckno ≤ t.sender.fillWindow.nextSeqno
    rw [hf.recent]
    omega
  · show t.sender.fillWindow.nextSeqno ≤ t.sender.fillWindow.recentAbsAckno + 2 ^ 30
    rw [hf.recent]
    omega
  · show t.sender.fillWindow.nextSeqno < t.sender.fillWindow.recentAbsAckno + 2 ^ 31
    rw [hf.recent]
    omega
  · intro _
    show t.sender.fillWindow.recentAbsAckno < seqLen acked + 2 ^ 31
    rw [hf.recent]
    by_cases hnil : t.sender.outstandingSegments = []
    · have hall := hinv.next
      rw [hnil, List.append_nil] at hall
      omega
    · exact h.near.below hnil

theorem AckInv.ack (h : AckInv isn acked t) {a : ℕ} (windowSize : UInt16)
    (hlo : t.sender.nextSeqno ≤ a + 2 ^ 30) (hhi : a ≤ t.sender.nextSeqno) :
    ∃ popped, AckInv isn (acked ++ popped)
      (traceStep t (.ackReceived (wrap a t.sender.isn) windowSize)) := by
  obtain ⟨popped, ha⟩ := ackReceived_acked t.sender (wrap a t.sender.isn) windowSize
  have hack : unwrap (wrap a t.sender.isn) t.sender.isn t.sender.recentAbsAckno = a :=
    h.absAckno_eq hlo hhi
  have htrace := h.trace.ack ha
  rw [hack] at ha
  refine ⟨popped, htrace, ?_, ?_, h.trace.inv.near_ack h.near ha hhi (by omega)⟩
  · show (t.sender.ackReceived _ windowSize).recentAbsAckno ≤
      (t.sender.ackReceived _ windowSize).nextSeqno
    rw [ha.recent, ha.nextSeqno]
    exact hhi
  · show (t.sender.ackReceived _ windowSize).nextSeqno ≤
      (t.sender.ackReceived _ windowSize).recentAbsAckno + 2 ^ 30
    rw [ha.recent, ha.nextSeqno]
    exact hlo

theorem AckInv.step (h : AckInv isn acked t) {op : SenderOp} (hok : AckNear t op) :
    ∃ popped, AckInv isn (acked ++ popped) (traceStep t op) := by
  cases op with
  | fillWindow => exact ⟨[], by rw [List.append_nil]; exact h.fillWindow⟩
  | ackReceived ackno windowSize =>
    obtain ⟨a, rfl, hlo, hhi⟩ := hok
    exact h.ack windowSize hlo hhi
  | _ => exact ⟨[], by rw [List.append_nil]; exact h.unmoved rfl⟩

/-- **Acknowledgments are processed exactly, across any number of wraparounds.**  In every run of
a new sender whose acknowledgments lie at most `2 ^ 30` behind `next_seqno`, each one is unwrapped
to its true position, so is the sequence number of every outstanding segment, and exactly the
segments that end at or before it are removed. -/
theorem acks_exact (capacity : ℕ) (retxTimeout : UInt16) (fixedIsn : Option WrappingInt32)
    (random : WrappingInt32) (ops : List SenderOp)
    (hacks : Along traceStep AckNear
      (start (TCPSender.new capacity retxTimeout fixedIsn random)) ops) :
    Along traceStep AckExact (start (TCPSender.new capacity retxTimeout fixedIsn random)) ops := by
  have hstart : ∃ acked, AckInv (fixedIsn.getD random) acked
      (start (TCPSender.new capacity retxTimeout fixedIsn random)) :=
    ⟨[], ⟨new_inv .., rfl, rfl, by simp [start]⟩, Nat.le_refl 0, by simp [start, TCPSender.new],
      by simp [start, TCPSender.new], by simp [start, TCPSender.new]⟩
  refine along_of_invariant (I := fun t => ∃ acked, AckInv (fixedIsn.getD random) acked t)
    ?_ ?_ hstart hacks
  · rintro t op ⟨acked, h⟩ hok
    obtain ⟨popped, h'⟩ := h.step hok
    exact ⟨_, h'⟩
  · rintro t op ⟨acked, h⟩ - a windowSize rfl hlo hhi
    exact h.exactAck windowSize hlo hhi

/-- A sender that starts two numbers before the wraparound: a segment of three bytes crosses it and
one of a single byte follows.  An acknowledgment in the first of them, and one of all of it. -/
def wrappingAcks : List SenderOp :=
  [.fillWindow, .ackReceived ⟨0xffffffff⟩ 10, .write [97, 98, 99], .fillWindow, .write [100],
    .fillWindow, .ackReceived ⟨1⟩ 10, .ackReceived ⟨2⟩ 10]

/-- The second segment is all that is left. -/
theorem acks_exact_wrapping :
    Along traceStep AckExact (start (TCPSender.new 10 1000 (some ⟨0xfffffffe⟩) ⟨0⟩))
        wrappingAcks ∧
      (run traceStep (start (TCPSender.new 10 1000 (some ⟨0xfffffffe⟩) ⟨0⟩))
        wrappingAcks).sender.outstandingSegments =
          [{ header := { seqno := ⟨2⟩ }, payload := [100] }] := by
  refine ⟨acks_exact 10 1000 (some ⟨0xfffffffe⟩) ⟨0⟩ wrappingAcks ?_, by decide⟩
  refine ⟨trivial, ⟨1, ?_⟩, trivial, trivial, trivial, trivial, ⟨3, ?_⟩, ⟨4, ?_⟩, trivial⟩
  · decide
  · decide
  · decide

end SenderTrace

end TCPSender

end Sponge
