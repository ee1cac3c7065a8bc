import Sponge.ConnectionCalls

/-!
# What a connection does not show

Not all of a connection's state shows in what it sends and delivers.  The error marks of the two
streams are never read by it, the time since the last segment counts only after the inbound
stream has ended, and as long as nothing has been acknowledged the sender's acknowledgment base
and window count only through their sum, provided that `unwrap` takes the next acknowledgment
number for the same.

`vary` replaces these parts, and every operation commutes with it.  `Masked` relates two
connections that differ only in them; `Alike` adds the time, and is kept by every call.
-/

namespace Sponge

open MachineInt Run

/-! ### The error marks -/

def ByteStream.mark (s : ByteStream) (err : Bool) : ByteStream := { s with error := err }

theorem ByteStream.write_mark (s : ByteStream) (err : Bool) (data : List UInt8) :
    ((s.mark err).write data).1 = (s.write data).1.mark err := by
  unfold ByteStream.write
  split
  · rename_i hend
    have hend : s.inputEnded = true := hend
    rw [if_pos hend]
  · rename_i hopen
    have hopen : ¬ s.inputEnded = true := hopen
    rw [if_neg hopen]
    rfl

namespace StreamReassembler

def mark (r : StreamReassembler) (err : Bool) : StreamReassembler :=
  { r with output := r.output.mark err }

theorem pushSubstring_mark (r : StreamReassembler) (err : Bool) (data : List UInt8) (index : ℕ)
    (eof : Bool) :
    (r.mark err).pushSubstring data index eof = (r.pushSubstring data index eof).mark err := by
  have hassembly : (r.mark err).assembly data index = r.assembly data index := rfl
  unfold pushSubstring
  simp only [hassembly]
  rw [mark, ByteStream.write_mark]
  split <;> rfl

end StreamReassembler

namespace TCPReceiver

def mark (r : TCPReceiver) (err : Bool) : TCPReceiver :=
  { r with reassembler := r.reassembler.mark err }

theorem noteFlags_mark (r : TCPReceiver) (err : Bool) (seg : TCPSegment) :
    (r.mark err).noteFlags seg = (r.noteFlags seg).mark err := by
  unfold noteFlags noteFin noteSyn readFlags mark
  simp only
  split <;> split <;> rfl

theorem segmentReceived_mark (r : TCPReceiver) (err : Bool) (seg : TCPSegment) :
    (r.mark err).segmentReceived seg = (r.segmentReceived seg).mark err := by
  by_cases hpush : r.Pushes seg
  · have hindex : ((r.mark err).noteFlags seg).streamIndex seg =
        (r.noteFlags seg).streamIndex seg := by
      rw [noteFlags_mark]
      rfl
    rw [segmentReceived_of_pushes hpush, segmentReceived_of_pushes (show (r.mark err).Pushes seg
      from hpush), hindex]
    simp only [noteFlags_mark]
    simp only [mark, StreamReassembler.pushSubstring_mark]
  · rw [segmentReceived_of_not_pushes hpush, segmentReceived_of_not_pushes
      (show ¬ (r.mark err).Pushes seg from hpush), noteFlags_mark]

end TCPReceiver

/-! ### The sender -/

/-- Values for the parts of a connection that need not show. -/
structure Variation where
  inError : Bool
  outError : Bool
  recent : ℕ
  window : UInt16
  time : ℕ

namespace TCPSender

def vary (st : TCPSender) (v : Variation) : TCPSender :=
  { st with
    stream := st.stream.mark v.outError
    recentAbsAckno := v.recent
    windowSize := v.window }

variable {st : TCPSender} {v : Variation}

theorem nextSegment_vary (h : (st.vary v).windowEdge = st.windowEdge) :
    (st.vary v).nextSegment = (st.nextSegment.1, st.nextSegment.2.vary v) := by
  unfold nextSegment
  rw [h]
  rfl

theorem fillLoop_vary (fuel : ℕ) (h : (st.vary v).windowEdge = st.windowEdge) :
    fillLoop fuel (st.vary v) = (fillLoop fuel st).vary v := by
  induction fuel generalizing st with
  | zero => rfl
  | succ fuel ih =>
    have hmay : (st.vary v).mayFill = st.mayFill := by
      unfold mayFill
      rw [h]
      rfl
    unfold fillLoop
    rw [hmay, nextSegment_vary h]
    split
    · split
      · rfl
      · exact @ih (st.nextSegment.2.pushSegment st.nextSegment.1) h
    · rfl

theorem fillWindow_vary (h : (st.vary v).windowEdge = st.windowEdge) :
    (st.vary v).fillWindow = st.fillWindow.vary v := fillLoop_vary _ h

theorem tick_vary (st : TCPSender) (v : Variation) (ms : ℕ) :
    (st.vary v).tick ms = (st.tick ms).vary v := by
  by_cases hexp : st.Expires ms
  · have hexp' : (st.vary v).Expires ms := hexp
    rw [tick_of_expires hexp, tick_of_expires hexp']
    rfl
  · have hexp' : ¬ (st.vary v).Expires ms := hexp
    rw [tick_of_not_expires hexp, tick_of_not_expires hexp']
    rfl

theorem writeStream_vary (st : TCPSender) (v : Variation) (data : List UInt8) :
    (st.vary v).writeStream data = (st.writeStream data).vary v := by
  unfold writeStream vary
  simp only [ByteStream.write_mark]

/-- The segments popped are the same if `unwrap` cannot tell the two bases apart. -/
theorem popAcked_vary (absAckno : ℕ) (queue : List TCPSegment)
    (h : ∀ n, unwrap n st.isn v.recent = unwrap n st.isn st.recentAbsAckno) :
    popAcked absAckno queue (st.vary v) = (popAcked absAckno queue st).vary v := by
  induction queue generalizing st with
  | nil => rfl
  | cons seg queue ih =>
    unfold popAcked
    simp only
    rw [show unwrap seg.header.seqno (st.vary v).isn (st.vary v).recentAbsAckno =
      unwrap seg.header.seqno st.isn st.recentAbsAckno from h _,
      show (st.vary v).nextSeqno = st.nextSeqno from rfl]
    by_cases hstop : absAckno < u64 (unwrap seg.header.seqno st.isn st.recentAbsAckno +
        seg.lengthInSequenceSpace) ∨ absAckno > st.nextSeqno
    · rw [if_pos hstop, if_pos hstop]
    · rw [if_neg hstop, if_neg hstop]
      exact @ih { st with
        outstandingSegments := queue
        bytesInFlight := sub64 st.bytesInFlight seg.lengthInSequenceSpace
        rto := st.initialRetransmissionTimeout
        consecutiveRetransmissions := 0
        timer := st.timer.start } h

theorem takeWindow_vary (window : UInt16) : (st.vary v).takeWindow window =
    (st.takeWindow window).vary { v with window := if window = 0 then 1 else window } := by
  unfold takeWindow
  by_cases hzero : window = 0
  · simp [hzero, vary]
  · simp [hzero, vary]

/-- An acknowledgment replaces base and window. -/
theorem ackReceived_vary (ackno : WrappingInt32) (window : UInt16)
    (h : ∀ n, unwrap n st.isn v.recent = unwrap n st.isn st.recentAbsAckno) :
    (st.vary v).ackReceived ackno window = (st.ackReceived ackno window).vary
      { v with recent := (st.ackReceived ackno window).recentAbsAckno
               window := (st.ackReceived ackno window).windowSize } := by
  obtain ⟨popped, ha⟩ := ackReceived_acked st ackno window
  rw [ha.recent, ha.window]
  obtain ⟨v', hv'⟩ : ∃ v', v' = { v with window := if window = 0 then 1 else window } := ⟨_, rfl⟩
  have hwindow : (st.vary v).takeWindow window = (st.takeWindow window).vary v' := by
    rw [takeWindow_vary, hv']
  -- taking the window moves neither the ISN nor the base, so all numbers come out the same
  obtain ⟨zero, htake⟩ := takeWindow_eq st window
  have hsame : ∀ n, unwrap n (st.takeWindow window).isn v'.recent =
      unwrap n (st.takeWindow window).isn (st.takeWindow window).recentAbsAckno := by
    rw [htake, hv']
    exact h
  have hnumber : unwrap ackno ((st.takeWindow window).vary v').isn
      ((st.takeWindow window).vary v').recentAbsAckno =
        unwrap ackno (st.takeWindow window).isn (st.takeWindow window).recentAbsAckno :=
    hsame ackno
  have hbase : unwrap ackno (st.takeWindow window).isn (st.takeWindow window).recentAbsAckno =
      unwrap ackno st.isn st.recentAbsAckno := by rw [htake]
  have hpop := popAcked_vary (unwrap ackno st.isn st.recentAbsAckno)
    (st.takeWindow window).outstandingSegments hsame
  have hout : ((st.takeWindow window).vary v').outstandingSegments =
      (st.takeWindow window).outstandingSegments := rfl
  unfold ackReceived
  simp only [hwindow, hnumber, hbase]
  rw [hout, hpop]
  generalize popAcked _ _ _ = popped'
  by_cases hempty : popped'.outstandingSegments.isEmpty = true
  · simp [vary, hempty, hv']
  · simp [vary, hempty, hv']

/-- Base and window are those of the sender, or nothing has been acknowledged yet and neither
`fill_window` nor `unwrap` tells the difference. -/
def Hidden (st : TCPSender) (v : Variation) : Prop :=
  (v.recent = st.recentAbsAckno ∧ v.window = st.windowSize) ∨
    ((∃ accepted, SenderInv accepted [] st) ∧ v.recent ≤ 2 ^ 31 ∧ st.recentAbsAckno ≤ 2 ^ 31 ∧
      u64 (v.recent + v.window.toNat) = st.windowEdge)

theorem Hidden.edge (h : Hidden st v) : (st.vary v).windowEdge = st.windowEdge := by
  rcases h with ⟨hrecent, hwindow⟩ | ⟨-, -, -, hedge⟩
  · show u64 (v.recent + v.window.toNat) = _
    rw [hrecent, hwindow]
    rfl
  · exact hedge

theorem Hidden.unwrap_eq (h : Hidden st v) (n : WrappingInt32) :
    unwrap n st.isn v.recent = unwrap n st.isn st.recentAbsAckno := by
  rcases h with ⟨hrecent, -⟩ | ⟨-, hv, hst, -⟩
  · rw [hrecent]
  · rw [unwrap_of_le _ _ hv, unwrap_of_le _ _ hst]

/-- What leaves base and window alone, and acknowledges nothing. -/
theorem Hidden.of_frame (h : Hidden st v) {st' : TCPSender} {v' : Variation}
    (hrecent : st'.recentAbsAckno = st.recentAbsAckno) (hwindow : st'.windowSize = st.windowSize)
    (hinv : ∀ accepted, SenderInv accepted [] st → ∃ accepted', SenderInv accepted' [] st')
    (hv : v'.recent = v.recent ∧ v'.window = v.window) : Hidden st' v' := by
  rcases h with ⟨hr, hw⟩ | ⟨⟨accepted, hacc⟩, hle, hle', hedge⟩
  · exact Or.inl ⟨by rw [hv.1, hr, hrecent], by rw [hv.2, hw, hwindow]⟩
  · refine Or.inr ⟨hinv accepted hacc, by rw [hv.1]; exact hle, by rw [hrecent]; exact hle', ?_⟩
    rw [hv.1, hv.2, hedge, windowEdge, windowEdge, hrecent, hwindow]

theorem Hidden.fillWindow (h : Hidden st v) : Hidden st.fillWindow v := by
  obtain ⟨new, hf⟩ := fillWindow_filled st
  exact h.of_frame hf.recent hf.window (fun accepted hinv => ⟨accepted, hinv.fillWindow⟩)
    ⟨rfl, rfl⟩

theorem Hidden.tick (h : Hidden st v) (ms : ℕ) : Hidden (st.tick ms) v := by
  have ht := tick_ticked st ms
  exact h.of_frame ht.recent ht.window (fun accepted hinv => ⟨accepted, hinv.tick ms⟩) ⟨rfl, rfl⟩

/-- The FIN is not acknowledged while nothing is: then something is in flight. -/
theorem Hidden.isFinAcked_eq (h : Hidden st v) (hflight : st.bytesInFlight = 0) :
    (st.vary v).isFinAcked = st.isFinAcked := by
  rcases h with ⟨hrecent, -⟩ | ⟨⟨accepted, hinv⟩, -, -, -⟩
  · show (st.isFinSet && st.nextSeqno == v.recent) = _
    rw [hrecent]
    rfl
  · have hfin : st.isFinSet = false := by
      by_contra hne
      have hset : st.isFinSet = true := by simpa using hne
      have hnext := hinv.next_eq
      rw [if_pos hset, hinv.next, List.nil_append, ← hinv.flight, hflight] at hnext
      omega
    show (st.isFinSet && _) = (st.isFinSet && _)
    rw [hfin]
    rfl

end TCPSender

/-! ### The connection -/

namespace TCPConnection

open TCPSender

def vary (c : TCPConnection) (v : Variation) : TCPConnection :=
  { c with
    receiver := c.receiver.mark v.inError
    sender := c.sender.vary v
    timeSinceLastSegmentReceived := v.time }

/-- The connections differ in nothing that shows, the time apart. -/
def Masked (c c' : TCPConnection) : Prop := ∃ v, c' = c.vary v ∧ c.sender.Hidden v

variable {c c' : TCPConnection} {seg : TCPSegment}

theorem Masked.noteReset (h : Masked c c') (seg : TCPSegment) :
    Masked (c.noteReset seg) (c'.noteReset seg) := by
  obtain ⟨v, rfl, hv⟩ := h
  unfold TCPConnection.noteReset
  split
  · refine ⟨{ v with inError := true, outError := true }, rfl, ?_⟩
    exact hv.of_frame rfl rfl (fun accepted hinv => ⟨accepted, hinv.errorStream⟩) ⟨rfl, rfl⟩
  · exact ⟨v, rfl, hv⟩

theorem Masked.receive (h : Masked c c') (seg : TCPSegment) :
    Masked { c with receiver := c.receiver.segmentReceived seg }
      { c' with receiver := c'.receiver.segmentReceived seg } := by
  obtain ⟨v, rfl, hv⟩ := h
  refine ⟨v, ?_, hv⟩
  simp only [vary, TCPReceiver.segmentReceived_mark]

theorem Masked.fillWindow (h : Masked c c') :
    Masked { c with sender := c.sender.fillWindow } { c' with sender := c'.sender.fillWindow } := by
  obtain ⟨v, rfl, hv⟩ := h
  refine ⟨v, ?_, hv.fillWindow⟩
  simp only [vary, fillWindow_vary hv.edge]

theorem Masked.sendEmptySegment (h : Masked c c') :
    Masked { c with sender := c.sender.sendEmptySegment }
      { c' with sender := c'.sender.sendEmptySegment } := by
  obtain ⟨v, rfl, hv⟩ := h
  exact ⟨v, rfl, hv.of_frame rfl rfl (fun accepted hinv => ⟨accepted, hinv.sendEmptySegment⟩)
    ⟨rfl, rfl⟩⟩

theorem Masked.ackReceived (h : Masked c c') (ackno : WrappingInt32) (window : UInt16) :
    Masked { c with sender := c.sender.ackReceived ackno window }
      { c' with sender := c'.sender.ackReceived ackno window } := by
  obtain ⟨v, rfl, hv⟩ := h
  refine ⟨{ v with recent := _, window := _ }, ?_, Or.inl ⟨rfl, rfl⟩⟩
  simp only [vary, ackReceived_vary ackno window hv.unwrap_eq]

theorem Masked.isSynSent_eq (h : Masked c c') : c'.sender.isSynSent = c.sender.isSynSent := by
  obtain ⟨v, rfl, -⟩ := h
  rfl

theorem Masked.takeAck (h : Masked c c') (seg : TCPSegment) :
    Masked (c.takeAck seg) (c'.takeAck seg) := by
  unfold TCPConnection.takeAck
  split
  · have hack := h.ackReceived seg.header.ackno seg.header.win
    have hsyn := hack.isSynSent_eq
    simp only at hsyn ⊢
    rw [hsyn]
    split
    · exact hack.fillWindow
    · exact hack
  · exact h

theorem Masked.replyToData (h : Masked c c') (seg : TCPSegment) :
    Masked (c.replyToData seg) (c'.replyToData seg) := by
  rw [TCPConnection.replyToData, TCPConnection.replyToData, h.isSynSent_eq]
  split
  · split
    · exact h.fillWindow
    · exact h.sendEmptySegment
  · exact h

theorem Masked.replyToKeepAlive (h : Masked c c') (seg : TCPSegment) :
    Masked (c.replyToKeepAlive seg) (c'.replyToKeepAlive seg) := by
  have hkeep : isKeepAlive c'.receiver seg = isKeepAlive c.receiver seg := by
    obtain ⟨v, rfl, -⟩ := h
    exact isKeepAlive_congr rfl
  rw [TCPConnection.replyToKeepAlive, TCPConnection.replyToKeepAlive, hkeep]
  split
  · exact h.sendEmptySegment
  · exact h

theorem Masked.noteInboundEnd (h : Masked c c') :
    Masked c.noteInboundEnd c'.noteInboundEnd := by
  obtain ⟨v, rfl, hv⟩ := h
  unfold TCPConnection.noteInboundEnd
  by_cases hend : (!c.sender.isFinSent && c.receiver.streamOut.inputEnded) = true
  · rw [if_pos hend, if_pos (show (!(c.vary v).sender.isFinSent &&
      (c.vary v).receiver.streamOut.inputEnded) = true from hend)]
    exact ⟨v, rfl, hv⟩
  · rw [if_neg hend, if_neg (show ¬ (!(c.vary v).sender.isFinSent &&
      (c.vary v).receiver.streamOut.inputEnded) = true from hend)]
    exact ⟨v, rfl, hv⟩

theorem Masked.sendSegments (h : Masked c c') : Masked c.sendSegments c'.sendSegments := by
  obtain ⟨v, rfl, hv⟩ := h
  exact ⟨v, rfl, hv.of_frame rfl rfl (fun accepted hinv => ⟨accepted, { hinv with }⟩) ⟨rfl, rfl⟩⟩

theorem Masked.processSegment (h : Masked c c') (seg : TCPSegment) :
    Masked (c.processSegment seg) (c'.processSegment seg) := by
  unfold TCPConnection.processSegment
  simp only
  have htaken := ((h.noteReset seg).receive seg).takeAck seg
  obtain ⟨v, heq, hv⟩ := ((htaken.replyToData seg).replyToKeepAlive seg).noteInboundEnd
  rw [heq]
  exact ⟨{ v with time := 0 }, rfl, hv⟩

/-! ### Ticks -/

theorem Masked.passTime (h : Masked c c') (ms : ℕ) : Masked (c.passTime ms) (c'.passTime ms) := by
  obtain ⟨v, rfl, hv⟩ := h
  refine ⟨{ v with time := u64 (v.time + ms) }, ?_, hv.tick ms⟩
  simp only [TCPConnection.passTime, vary, tick_vary]
  rfl

theorem Masked.cleanShutdown_eq (h : Masked c c') : c'.cleanShutdown = c.cleanShutdown := by
  obtain ⟨v, rfl, hv⟩ := h
  by_cases hflight : c.sender.bytesInFlight = 0
  · show (c.sender.stream.eof && c.receiver.streamOut.inputEnded && c.bytesInFlight == 0 &&
      c.unassembledBytes == 0 && (c.sender.vary v).isFinAcked &&
      c.sender.nextSeqno == u64 (c.sender.stream.bytesWritten + 2)) = _
    rw [hv.isFinAcked_eq hflight]
    rfl
  · have hbusy : ∀ d : TCPConnection, d.bytesInFlight ≠ 0 → d.cleanShutdown = false := by
      intro d hd
      simp [TCPConnection.cleanShutdown, beq_eq_false_iff_ne.mpr hd]
    rw [hbusy c hflight, hbusy (c.vary v) hflight]

theorem Masked.deactivate (h : Masked c c') :
    Masked { c with active := false } { c' with active := false } := by
  obtain ⟨v, rfl, hv⟩ := h
  exact ⟨v, rfl, hv⟩

theorem Masked.abort (h : Masked c c') : Masked c.abort c'.abort := by
  obtain ⟨v, rfl, hv⟩ := h
  refine ⟨{ v with inError := true, outError := true }, rfl, ?_⟩
  exact hv.of_frame rfl rfl
    (fun accepted hinv => ⟨accepted, hinv.errorStream.sendEmptySegment⟩) ⟨rfl, rfl⟩

theorem Masked.sendReset (h : Masked c c') : Masked c.sendReset c'.sendReset := by
  obtain ⟨v, rfl, hv⟩ := h
  rw [TCPConnection.sendReset, TCPConnection.sendReset,
    show (c.vary v).sender.segmentsOut = c.sender.segmentsOut from rfl]
  cases c.sender.segmentsOut with
  | nil => exact ⟨v, rfl, hv⟩
  | cons front rest =>
    exact ⟨v, rfl, hv.of_frame rfl rfl (fun accepted hinv => ⟨accepted, { hinv with }⟩)
      ⟨rfl, rfl⟩⟩

/-- The connections differ in nothing that shows; the time may differ until the inbound stream
ends. -/
def Alike (c c' : TCPConnection) : Prop :=
  Masked c c' ∧ (c'.timeSinceLastSegmentReceived = c.timeSinceLastSegmentReceived ∨
    c.receiver.streamOut.inputEnded = false)

theorem Alike.tick (h : Alike c c') (ms : ℕ) : Masked (c.tick ms) (c'.tick ms) := by
  obtain ⟨hmasked, htime⟩ := h
  have hpass := hmasked.passTime ms
  have hretx : (c'.passTime ms).sender.consecutiveRetransmissions =
      (c.passTime ms).sender.consecutiveRetransmissions := by
    obtain ⟨v, heq, -⟩ := hpass
    rw [heq]
    rfl
  unfold TCPConnection.tick
  simp only
  rw [hretx]
  split
  · exact hpass.abort.sendReset
  · rw [hpass.cleanShutdown_eq]
    split
    · -- the inbound stream has ended, so the times are the same
      rename_i hclean
      have hended : c.receiver.streamOut.inputEnded = true := by
        simp only [cleanShutdown, Bool.and_eq_true] at hclean
        exact hclean.1.1.1.1.2
      have hsame : c'.timeSinceLastSegmentReceived = c.timeSinceLastSegmentReceived :=
        htime.resolve_right (by rw [hended]; simp)
      have hcond : (!(c'.passTime ms).lingerAfterStreamsFinish ||
            decide ((c'.passTime ms).timeSinceLastSegmentReceived ≥
              10 * (c'.passTime ms).cfg.rtTimeout.toNat)) =
          (!(c.passTime ms).lingerAfterStreamsFinish ||
            decide ((c.passTime ms).timeSinceLastSegmentReceived ≥
              10 * (c.passTime ms).cfg.rtTimeout.toNat)) := by
        obtain ⟨v, rfl, -⟩ := hmasked
        have hv : v.time = c.timeSinceLastSegmentReceived := hsame
        show (!c.lingerAfterStreamsFinish ||
          decide (u64 (v.time + ms) ≥ 10 * c.cfg.rtTimeout.toNat)) = _
        rw [hv]
        rfl
      rw [hcond]
      split
      · exact hpass.deactivate.sendSegments
      · exact hpass.sendSegments
    · exact hpass.sendSegments

/-! ### Every call -/

/-- The time since the last segment, after a call. -/
def timeAfter (time : ℕ) : ConnOp → ℕ
  | .segment _ => 0
  | .tick ms => u64 (time + ms)
  | _ => time

theorem connStep_time (c : TCPConnection) (op : ConnOp) :
    (connStep c op).timeSinceLastSegmentReceived =
      timeAfter c.timeSinceLastSegmentReceived op := by
  cases op with
  | segment seg => rfl
  | write data =>
    show (c.write data).1.timeSinceLastSegmentReceived = _
    rcases c.write_cases data with heq | heq <;> rw [heq] <;> rfl
  | endInput => rfl
  | connect =>
    show c.connect.timeSinceLastSegmentReceived = _
    rcases c.connect_cases with heq | heq <;> rw [heq] <;> rfl
  | tick ms =>
    show (c.tick ms).timeSinceLastSegmentReceived = _
    rcases c.tick_cases ms with ⟨-, heq⟩ | ⟨-, active, -, heq⟩
    · obtain ⟨front, rest, -, hreset⟩ := (c.passTime ms).sendReset_abort
      rw [heq, hreset]
      rfl
    · rw [heq]
      rfl
  | read len => rfl
  | popOut => rfl

theorem connStep_inputEnded (c : TCPConnection) {op : ConnOp} (hop : ∀ seg, op ≠ .segment seg) :
    (connStep c op).receiver.streamOut.inputEnded = c.receiver.streamOut.inputEnded := by
  rcases connStep_receiver c op with hsame | herror | ⟨len, -, hread⟩ | ⟨seg, hseg, -⟩
  · rw [hsame]
  · rw [herror]
    rfl
  · rw [hread]
    rfl
  · exact absurd hseg (hop seg)

/-- **Every call keeps connections alike.** -/
theorem Alike.step (h : Alike c c') (op : ConnOp) : Alike (connStep c op) (connStep c' op) := by
  refine ⟨?_, ?_⟩
  · obtain ⟨v, rfl, hv⟩ := h.1
    cases op with
    | segment seg => exact (h.1.processSegment seg).sendSegments
    | write data =>
      have hwrite : Masked { c with sender := c.sender.writeStream data }
          { c.vary v with sender := (c.vary v).sender.writeStream data } := by
        refine ⟨v, ?_, hv.of_frame rfl rfl (fun _ hinv => ⟨_, hinv.write data⟩) ⟨rfl, rfl⟩⟩
        simp only [vary, writeStream_vary]
      show Masked (c.write data).1 ((c.vary v).write data).1
      unfold TCPConnection.write
      split
      · exact h.1
      · exact hwrite.fillWindow.sendSegments
    | endInput =>
      have hend : Masked { c with sender := c.sender.endStream }
          { c.vary v with sender := (c.vary v).sender.endStream } :=
        ⟨v, rfl, hv.of_frame rfl rfl (fun accepted hinv => ⟨accepted, hinv.endStream⟩) ⟨rfl, rfl⟩⟩
      exact hend.fillWindow.sendSegments
    | connect =>
      show Masked c.connect (c.vary v).connect
      unfold TCPConnection.connect
      rw [show (c.vary v).active = c.active from rfl]
      split
      · exact h.1
      · exact h.1.fillWindow.sendSegments
    | tick ms => exact h.tick ms
    | read len => exact ⟨v, rfl, hv⟩
    | popOut => exact ⟨v, rfl, hv⟩
  · rw [connStep_time, connStep_time]
    by_cases hop : ∃ seg, op = .segment seg
    · obtain ⟨seg, rfl⟩ := hop
      exact Or.inl rfl
    · rcases h.2 with htime | hopen
      · exact Or.inl (by rw [htime])
      · refine Or.inr ?_
        rw [connStep_inputEnded c fun seg hseg => hop ⟨seg, hseg⟩, hopen]

/-- The bytes that a call delivers to `inbound_stream()`. -/
def delivered (c : TCPConnection) (op : ConnOp) : List UInt8 :=
  ByteStream.appended c.inboundStream (connStep c op).inboundStream

/-- What a call shows: the segments it enqueues and the bytes it delivers. -/
def shows (c : TCPConnection) (op : ConnOp) : List TCPSegment × List UInt8 :=
  (enqueued c op, delivered c op)

theorem enqueued_eq_of_indistinguishable (h : Indistinguishable connStep shows c c')
    (op : ConnOp) : enqueued c op = enqueued c' op := congrArg Prod.fst (h.now op)

theorem Masked.shows_eq (h : Masked c c') {op : ConnOp}
    (hstep : Masked (connStep c op) (connStep c' op)) : shows c op = shows c' op := by
  obtain ⟨v, rfl, -⟩ := h
  obtain ⟨v', heq, -⟩ := hstep
  unfold shows enqueued delivered
  rw [heq]
  rfl

/-- **Alike connections cannot be told apart** by what they send and deliver. -/
theorem Alike.indistinguishable (h : Alike c c') : Indistinguishable connStep shows c c' :=
  indistinguishable_of_simulation (fun _ _ op h => h.step op)
    (fun _ _ op h => h.1.shows_eq (h.step op).1) h

end TCPConnection

end Sponge
