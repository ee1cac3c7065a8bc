import Sponge.ConnectionCalls

/-!
# At least one side lingers

An endpoint gives up lingering when its inbound stream has ended before it has sent its own FIN.
The inbound stream ends only after a FIN of the peer has arrived, and a FIN that has been sent
stays sent.  So whoever gives up lingering leaves a peer that has sent its FIN, and such a peer
never gives up lingering itself: in no state that two connections reach together have both given
it up, whatever the channel does and however much is written.
-/

namespace Sponge

open Run

/-! ### FINs of the sender -/

namespace TCPSender

/-- A segment with a FIN is queued only once the FIN counts as sent. -/
def FinMarked (st : TCPSender) : Prop :=
  ∀ seg ∈ st.segmentsOut ++ st.outstandingSegments, seg.header.fin = true → st.isFinSet = true

variable {st : TCPSender}

theorem fillWindow_finSet (h : st.isFinSet = true) : st.fillWindow.isFinSet = true := by
  revert h
  refine fillWindow_induct (P := fun st st' => st.isFinSet = true → st'.isFinSet = true)
    ?_ ?_ ?_ st
  · intro st _ h
    exact h
  · intro st _ _ h
    show (st.isFinSet || _) = true
    rw [h, Bool.true_or]
  · intro st _ _ ih h
    apply ih
    show (st.isFinSet || _) = true
    rw [h, Bool.true_or]

theorem FinMarked.fillWindow (h : FinMarked st) : FinMarked st.fillWindow := by
  revert h
  refine fillWindow_induct (P := fun st st' => FinMarked st → FinMarked st') ?_ ?_ ?_ st
  · intro st _ h
    exact h
  · intro st _ _ h seg hseg hfin
    show (st.isFinSet || _) = true
    rw [h seg hseg hfin, Bool.true_or]
  · intro st _ _ ih h
    apply ih
    intro seg hseg hfin
    show (st.isFinSet || st.nextSegment.1.header.fin) = true
    have hseg : seg ∈ (st.segmentsOut ++ [st.nextSegment.1]) ++
        (st.outstandingSegments ++ [st.nextSegment.1]) := hseg
    simp only [List.mem_append, List.mem_singleton] at hseg
    rw [Bool.or_eq_true]
    rcases hseg with (hold | rfl) | (hold | rfl)
    · exact Or.inl (h seg (List.mem_append_left _ hold) hfin)
    · exact Or.inr hfin
    · exact Or.inl (h seg (List.mem_append_right _ hold) hfin)
    · exact Or.inr hfin

/-- A FIN that is sent stays sent. -/
theorem senderStep_finSet (op : SenderOp) (h : st.isFinSet = true) :
    (senderStep st op).isFinSet = true := by
  cases op with
  | fillWindow => exact fillWindow_finSet h
  | ackReceived ackno window =>
    obtain ⟨popped, ha⟩ := ackReceived_acked st ackno window
    exact ha.finSet.trans h
  | tick ms => exact (tick_ticked st ms).finSet.trans h
  | _ => exact h

theorem FinMarked.step (h : FinMarked st) (op : SenderOp) : FinMarked (senderStep st op) := by
  cases op with
  | fillWindow => exact h.fillWindow
  | ackReceived ackno window =>
    obtain ⟨popped, ha⟩ := ackReceived_acked st ackno window
    intro seg hseg hfin
    refine ha.finSet.trans (h seg ?_ hfin)
    rw [ha.outstanding]
    have hseg : seg ∈ (st.ackReceived ackno window).segmentsOut ++
        (st.ackReceived ackno window).outstandingSegments := hseg
    rw [ha.segmentsOut] at hseg
    rcases List.mem_append.mp hseg with hout | hleft
    · exact List.mem_append_left _ hout
    · exact List.mem_append_right _ (List.mem_append_right _ hleft)
  | tick ms =>
    have ht := tick_ticked st ms
    intro seg hseg hfin
    refine ht.finSet.trans (h seg ?_ hfin)
    have hseg : seg ∈ (st.tick ms).segmentsOut ++ (st.tick ms).outstandingSegments := hseg
    rw [ht.outstanding] at hseg
    rcases List.mem_append.mp hseg with hout | hleft
    · rcases ht.segmentsOut with hsame | ⟨oldest, hmem, happ⟩
      · exact List.mem_append_left _ (hsame ▸ hout)
      · rw [happ, List.mem_append, List.mem_singleton] at hout
        rcases hout with hout | rfl
        · exact List.mem_append_left _ hout
        · exact List.mem_append_right _ hmem
    · exact List.mem_append_right _ hleft
  | sendEmptySegment =>
    intro seg hseg hfin
    have hseg : seg ∈ (st.segmentsOut ++ [{ header := { seqno := wrap st.nextSeqno st.isn } }]) ++
        st.outstandingSegments := hseg
    simp only [List.mem_append, List.mem_singleton] at hseg
    rcases hseg with (hold | rfl) | hold
    · exact h seg (List.mem_append_left _ hold) hfin
    · cases hfin
    · exact h seg (List.mem_append_right _ hold) hfin
  | popSegment =>
    intro seg hseg hfin
    refine h seg ?_ hfin
    rcases List.mem_append.mp hseg with hout | hleft
    · exact List.mem_append_left _ (List.mem_of_mem_drop hout)
    · exact List.mem_append_right _ hleft
  | _ => exact h

end TCPSender

/-! ### The end of the inbound stream -/

theorem StreamReassembler.pushSubstring_ended {r : StreamReassembler} {data : List UInt8}
    {index : ℕ} {eof : Bool} (h : r.output.inputEnded = true → r.ifEof = true)
    (hend : (r.pushSubstring data index eof).output.inputEnded = true) :
    (r.pushSubstring data index eof).ifEof = true := by
  show (eof || r.ifEof) = true
  have hout : (if (eof || r.ifEof) && (r.assembly data index).unassembledBytes == 0
      then (r.output.write (r.assembly data index).assembled).1.endInput
      else (r.output.write (r.assembly data index).assembled).1).inputEnded = true := hend
  split at hout
  · rename_i hseen
    exact ((Bool.and_eq_true _ _).mp hseen).1
  · rw [ByteStream.write_inputEnded] at hout
    rw [h hout, Bool.or_true]

namespace TCPReceiver

/-- The output ends only after a FIN has been handed to the reassembler. -/
def EndedByFin (r : TCPReceiver) : Prop :=
  r.streamOut.inputEnded = true → r.reassembler.ifEof = true

variable {r : TCPReceiver} {seg : TCPSegment}

theorem EndedByFin.segment (h : EndedByFin r) (seg : TCPSegment) :
    EndedByFin (r.segmentReceived seg) := by
  by_cases hpush : r.Pushes seg
  · rw [segmentReceived_of_pushes hpush]
    exact StreamReassembler.pushSubstring_ended h
  · rw [segmentReceived_of_not_pushes hpush]
    unfold EndedByFin streamOut
    rw [noteFlags_reassembler]
    exact h

theorem segmentReceived_ifEof (hseen : (r.segmentReceived seg).reassembler.ifEof = true) :
    seg.header.fin = true ∨ r.reassembler.ifEof = true := by
  by_cases hpush : r.Pushes seg
  · rw [segmentReceived_of_pushes hpush] at hseen
    exact Bool.or_eq_true_iff.mp hseen
  · rw [segmentReceived_of_not_pushes hpush, noteFlags_reassembler] at hseen
    exact Or.inr hseen

end TCPReceiver

namespace TCPConnection

open TCPSender

/-! ### One call -/

/-- The linger flag is cleared only by a call at whose end the inbound stream has ended and the
FIN has not been sent. -/
theorem connStep_linger {c : TCPConnection} {op : ConnOp}
    (h : (connStep c op).lingerAfterStreamsFinish = false) :
    c.lingerAfterStreamsFinish = false ∨ (connStep c op).sender.isFinSet = false ∧
      (connStep c op).receiver.streamOut.inputEnded = true := by
  cases op with
  | segment seg =>
    have hdrop : ∀ c : TCPConnection, c.noteInboundEnd.lingerAfterStreamsFinish = false →
        c.lingerAfterStreamsFinish = false ∨ c.sender.isFinSet = false ∧
          c.receiver.streamOut.inputEnded = true := by
      intro c hc
      rcases c.noteInboundEnd_cases with ⟨hfin, hend, -⟩ | heq
      · exact Or.inr ⟨hfin, hend⟩
      · rw [heq] at hc
        exact Or.inl hc
    have hreset : (c.noteReset seg).lingerAfterStreamsFinish = c.lingerAfterStreamsFinish := by
      obtain ⟨_, _, _, heq⟩ := c.noteReset_frame seg
      rw [heq]
    rcases hdrop _ h with hold | ⟨hfin, hend⟩
    · rw [(replies_frame _ seg).2.2.2] at hold
      exact Or.inl (hreset ▸ hold)
    · refine Or.inr ⟨?_, ?_⟩
      · show (noteInboundEnd _).sender.isFinSet = false
        rw [noteInboundEnd_sender]
        exact hfin
      · show (noteInboundEnd _).receiver.streamOut.inputEnded = true
        rw [(noteInboundEnd_receiver _).1]
        exact hend
  | write data =>
    refine Or.inl ?_
    have h : (c.write data).1.lingerAfterStreamsFinish = false := h
    rcases c.write_cases data with heq | heq <;> rw [heq] at h <;> exact h
  | endInput => exact Or.inl h
  | connect =>
    refine Or.inl ?_
    have h : c.connect.lingerAfterStreamsFinish = false := h
    rcases c.connect_cases with heq | heq <;> rw [heq] at h <;> exact h
  | tick ms =>
    refine Or.inl ?_
    have h : (c.tick ms).lingerAfterStreamsFinish = false := h
    rcases c.tick_cases ms with ⟨-, heq⟩ | ⟨-, active, -, heq⟩
    · obtain ⟨front, rest, -, hreset⟩ := (c.passTime ms).sendReset_abort
      rw [heq, hreset] at h
      exact h
    · rw [heq] at h
      exact h
  | read len => exact Or.inl h
  | popOut => exact Or.inl h

theorem connStep_finSet {c : TCPConnection} {op : ConnOp} (h : c.sender.isFinSet = true) :
    (connStep c op).sender.isFinSet = true := by
  obtain ⟨mid, hh⟩ := handover c op
  obtain ⟨rest, -, hleft⟩ := hh.left
  have hmid : mid.isFinSet = true := hh.operated.keeps (I := fun st => st.isFinSet = true)
    (fun _ op h => senderStep_finSet op h) h
  rw [hleft]
  exact hmid

end TCPConnection

namespace Endpoint

open TCPConnection TCPSender

/-- What one endpoint has enqueued or queued with a FIN, its sender counts as sent, and its
inbound stream ends only after a FIN. -/
structure FinRecorded (e : Endpoint) : Prop where
  sent : ∀ seg ∈ e.sent, seg.header.fin = true → e.conn.sender.isFinSet = true
  marked : FinMarked e.conn.sender
  ended : e.conn.receiver.EndedByFin

theorem FinRecorded.act {e : Endpoint} (h : FinRecorded e) (op : ConnOp) :
    FinRecorded (e.act op) := by
  obtain ⟨mid, hh⟩ := handover e.conn op
  obtain ⟨rest, hrest, hleft⟩ := hh.left
  have hmid : FinMarked mid := hh.operated.keeps (I := FinMarked) (fun _ op h => h.step op) h.marked
  have hset : (connStep e.conn op).sender.isFinSet = mid.isFinSet := by rw [hleft]
  refine ⟨?_, ?_, ?_⟩
  · intro seg hseg hfin
    rcases List.mem_append.mp hseg with hold | hnew
    · exact connStep_finSet (h.sent seg hold hfin)
    · obtain ⟨s, hs, hdata⟩ := hh.sameData hnew
      exact hset.trans (hmid s (List.mem_append_left _ hs) (hdata.fin ▸ hfin))
  · show FinMarked (connStep e.conn op).sender
    rw [hleft]
    intro seg hseg hfin
    refine hmid seg ?_ hfin
    rcases List.mem_append.mp hseg with hout | hout
    · exact List.mem_append_left _ (hrest hout)
    · exact List.mem_append_right _ hout
  · show (connStep e.conn op).receiver.EndedByFin
    rcases connStep_receiver e.conn op with hr | hr | ⟨len, -, hr⟩ | ⟨seg, -, hr⟩
    · rw [hr]
      exact h.ended
    · rw [hr]
      exact h.ended
    · rw [hr]
      exact h.ended
    · rw [hr]
      refine TCPReceiver.EndedByFin.segment ?_ seg
      obtain ⟨_, _, _, heq⟩ := TCPConnection.noteReset_frame _ seg
      rw [heq]
      exact h.ended

end Endpoint

/-! ### The two endpoints -/

namespace Pair

open TCPConnection Endpoint

/-- Whatever one side knows of the other's FIN is true, and at most one side has given up
lingering. -/
structure LingerInv (p : Pair) : Prop where
  recorded : ∀ s, FinRecorded (p s)
  eof : ∀ s : Side, (p s).conn.receiver.reassembler.ifEof = true →
    (p s.other).conn.sender.isFinSet = true
  gaveUp : ∀ s : Side, (p s).conn.lingerAfterStreamsFinish = false →
    (p s.other).conn.sender.isFinSet = true
  one : ∀ s : Side, (p s).conn.lingerAfterStreamsFinish = false →
    (p s.other).conn.lingerAfterStreamsFinish = true

variable {p : Pair} {s : Side}

theorem eof_actAt (h : LingerInv p) {op : ConnOp}
    (hsent : ∀ seg, op = .segment seg → seg ∈ (p s.other).sent)
    (hseen : (connStep (p s).conn op).receiver.reassembler.ifEof = true) :
    (p s.other).conn.sender.isFinSet = true := by
  rcases connStep_receiver (p s).conn op with hr | hr | ⟨len, -, hr⟩ | ⟨seg, hop, hr⟩
  · rw [hr] at hseen
    exact h.eof s hseen
  · rw [hr] at hseen
    exact h.eof s hseen
  · rw [hr] at hseen
    exact h.eof s hseen
  · rw [hr] at hseen
    rcases TCPReceiver.segmentReceived_ifEof hseen with hfin | hold
    · exact (h.recorded s.other).sent seg (hsent seg hop) hfin
    · have hreset : ((p s).conn.noteReset seg).receiver.reassembler.ifEof =
          (p s).conn.receiver.reassembler.ifEof := by
        obtain ⟨_, _, _, heq⟩ := (p s).conn.noteReset_frame seg
        rw [heq]
      exact h.eof s (hreset ▸ hold)

/-- **Step.**  A side that gives up lingering has a peer that never will. -/
theorem LingerInv.actAt (h : LingerInv p) {op : ConnOp}
    (hsent : ∀ seg, op = .segment seg → seg ∈ (p s.other).sent) : LingerInv (p.actAt s op) := by
  have hrec := (h.recorded s).act op
  have heof := eof_actAt h hsent
  have hgave : (connStep (p s).conn op).lingerAfterStreamsFinish = false →
      (p s.other).conn.sender.isFinSet = true ∧
      (p s.other).conn.lingerAfterStreamsFinish = true := by
    intro hdrop
    rcases connStep_linger hdrop with hold | ⟨hunsent, hend⟩
    · exact ⟨h.gaveUp s hold, h.one s hold⟩
    · refine ⟨heof (hrec.ended hend), ?_⟩
      -- a peer that had given up would know of a FIN that this side has not sent
      by_contra hother
      have hfin := h.gaveUp s.other (by simpa using hother)
      rw [Side.other_other] at hfin
      rw [connStep_finSet hfin] at hunsent
      cases hunsent
  refine ⟨fun s' => ?_, fun s' => ?_, fun s' => ?_, fun s' => ?_⟩
  all_goals rcases eq_or_eq_other s s' with rfl | rfl
  · rw [actAt_self]
    exact hrec
  · rw [actAt_other]
    exact h.recorded _
  · rw [actAt_self, actAt_other]
    exact heof
  · rw [actAt_other, Side.other_other, actAt_self]
    intro hseen
    have hfin := h.eof s.other hseen
    rw [Side.other_other] at hfin
    exact connStep_finSet hfin
  · rw [actAt_self, actAt_other]
    exact fun hdrop => (hgave hdrop).1
  · rw [actAt_other, Side.other_other, actAt_self]
    intro hdrop
    have hfin := h.gaveUp s.other hdrop
    rw [Side.other_other] at hfin
    exact connStep_finSet hfin
  · rw [actAt_self, actAt_other]
    exact fun hdrop => (hgave hdrop).2
  · rw [actAt_other, Side.other_other, actAt_self]
    intro hdrop
    by_contra hboth
    have hother := (hgave (Bool.eq_false_of_not_eq_true hboth)).2
    rw [hdrop] at hother
    cases hother

theorem LingerInv.step (h : LingerInv p) (op : PairOp) : LingerInv (pairStep p op) := by
  cases op with
  | call s op =>
    refine h.actAt ?_
    intro seg hop
    cases op <;> cases hop
  | deliver s i =>
    show LingerInv (p.deliver s i)
    unfold deliver
    split
    · rename_i seg hget
      refine h.actAt ?_
      intro seg' hop
      cases hop
      exact List.mem_of_getElem? hget
    · exact h

theorem LingerInv.start (cfg : Side → TCPConfig) (random : Side → WrappingInt32) :
    LingerInv (start cfg random) where
  recorded := by
    intro s
    refine ⟨?_, ?_, ?_⟩
    · intro seg hseg
      cases hseg
    · intro seg hseg
      cases hseg
    · intro hend
      cases hend
  eof := by
    intro s hseen
    cases hseen
  gaveUp := by
    intro s hdrop
    cases hdrop
  one := by
    intro s hdrop
    cases hdrop

/-- **At least one side lingers**, in every state that two connections reach under any
interleaving of calls and deliveries. -/
theorem someSide_lingers (cfg : Side → TCPConfig) (random : Side → WrappingInt32)
    (ops : List PairOp) :
    ¬ ((run pairStep (start cfg random) ops .x).conn.lingerAfterStreamsFinish = false ∧
      (run pairStep (start cfg random) ops .y).conn.lingerAfterStreamsFinish = false) := by
  intro hboth
  have hinv : LingerInv (run pairStep (start cfg random) ops) :=
    run_invariant_of_step (fun _ op h => h.step op) (LingerInv.start cfg random) ops
  have hother := hinv.one .x hboth.1
  rw [show Side.other .x = .y from rfl, hboth.2] at hother
  cases hother

end Pair

end Sponge
