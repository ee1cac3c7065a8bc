import Sponge.Lib.Run
import Sponge.SenderInvariant

/-!
# Runs of the sender

A run applies the sender's operations in any order, with any arguments; its owner may also pop
`segments_out` at any time.  `SenderTrace` adds what a run leaves behind: the bytes the stream
accepted, the segments `fill_window` created, and the other segments put in `segments_out`,
each with the outstanding queue at that moment.

The main result is that the created segments are the written stream, cut and numbered without
gap or overlap, in every state of every run.
-/

namespace Sponge

open MachineInt Run Slices

namespace TCPSender

inductive SenderOp where
  | write (data : List UInt8)
  | endInput
  | setError
  | fillWindow
  | ackReceived (ackno : WrappingInt32) (windowSize : UInt16)
  | tick (msSinceLastTick : ℕ)
  | sendEmptySegment
  | popSegment
deriving DecidableEq

def senderStep (st : TCPSender) : SenderOp → TCPSender
  | .write data => st.writeStream data
  | .endInput => st.endStream
  | .setError => st.errorStream
  | .fillWindow => st.fillWindow
  | .ackReceived ackno windowSize => st.ackReceived ackno windowSize
  | .tick msSinceLastTick => st.tick msSinceLastTick
  | .sendEmptySegment => st.sendEmptySegment
  | .popSegment => st.popSegment

/-- Some operations of the sender lead from one state to the other. -/
def Operated (st st' : TCPSender) : Prop := ∃ ops : List SenderOp, st' = run senderStep st ops

section Operated

variable {st st' : TCPSender}

theorem Operated.refl (st : TCPSender) : Operated st st := ⟨[], rfl⟩

theorem Operated.then (h : Operated st st') (op : SenderOp) :
    Operated st (senderStep st' op) := by
  obtain ⟨ops, rfl⟩ := h
  exact ⟨ops ++ [op], (run_concat st ops op).symm⟩

/-- What every operation keeps. -/
theorem Operated.keeps {I : TCPSender → Prop} (hstep : ∀ st op, I st → I (senderStep st op))
    (h : Operated st st') (hst : I st) : I st' := by
  obtain ⟨ops, rfl⟩ := h
  exact run_invariant_of_step hstep hst ops

end Operated

/-- The operations that create or pop segments. -/
def SenderOp.moves : SenderOp → Bool
  | .fillWindow => true
  | .ackReceived _ _ => true
  | _ => false

/-- What the other operations leave alone. -/
structure Unmoved (st st' : TCPSender) : Prop where
  isn : st'.isn = st.isn
  nextSeqno : st'.nextSeqno = st.nextSeqno
  outstanding : st'.outstandingSegments = st.outstandingSegments
  finSet : st'.isFinSet = st.isFinSet
  recent : st'.recentAbsAckno = st.recentAbsAckno
  window : st'.windowSize = st.windowSize

theorem senderStep_unmoved (st : TCPSender) {op : SenderOp} (h : op.moves = false) :
    Unmoved st (senderStep st op) := by
  cases op with
  | fillWindow => cases h
  | ackReceived ackno window => cases h
  | tick ms =>
    have ht := tick_ticked st ms
    exact ⟨ht.isn, ht.nextSeqno, ht.outstanding, ht.finSet, ht.recent, ht.window⟩
  | _ => exact ⟨rfl, rfl, rfl, rfl, rfl, rfl⟩

/-- The bytes the stream accepts in one operation. -/
def acceptedBy (st : TCPSender) : SenderOp → List UInt8
  | .write data => st.stream.accepted data
  | _ => []

/-- The segments one operation puts in `segments_out`. -/
def putBy (st : TCPSender) (op : SenderOp) : List TCPSegment :=
  (senderStep st op).segmentsOut.drop st.segmentsOut.length

structure SenderTrace where
  sender : TCPSender
  accepted : List UInt8
  created : List TCPSegment
  others : List (TCPSegment × List TCPSegment)

namespace SenderTrace

def start (st : TCPSender) : SenderTrace :=
  { sender := st, accepted := [], created := [], others := [] }

def traceStep (t : SenderTrace) (op : SenderOp) : SenderTrace :=
  { sender := senderStep t.sender op
    accepted := t.accepted ++ acceptedBy t.sender op
    created := t.created ++ if op = .fillWindow then putBy t.sender op else []
    others := t.others ++
      if op = .fillWindow then []
      else (putBy t.sender op).map fun seg => (seg, (senderStep t.sender op).outstandingSegments) }

/-- A trace against the segments popped so far. -/
structure TraceInv (isn : WrappingInt32) (acked : List TCPSegment) (t : SenderTrace) : Prop where
  inv : SenderInv t.accepted acked t.sender
  created : t.created = acked ++ t.sender.outstandingSegments
  isn : t.sender.isn = isn
  others : ∀ p ∈ t.others, p.1 ∈ p.2 ∧ p.1 ∈ t.created ∨ p.1.lengthInSequenceSpace = 0

variable {isn : WrappingInt32} {acked : List TCPSegment} {t : SenderTrace}

/-- An operation that creates nothing: what it puts is outstanding or empty. -/
theorem TraceInv.keep (h : TraceInv isn acked t) {op : SenderOp} {acked' : List TCPSegment}
    (hop : op ≠ .fillWindow) (hisn : (senderStep t.sender op).isn = t.sender.isn)
    (hinv : SenderInv (t.accepted ++ acceptedBy t.sender op) acked' (senderStep t.sender op))
    (hcreated : acked' ++ (senderStep t.sender op).outstandingSegments =
      acked ++ t.sender.outstandingSegments)
    (hput : ∀ seg ∈ putBy t.sender op,
      seg ∈ (senderStep t.sender op).outstandingSegments ∨ seg.lengthInSequenceSpace = 0) :
    TraceInv isn acked' (traceStep t op) where
  inv := hinv
  created := by
    show t.created ++ (if op = .fillWindow then putBy t.sender op else []) = _
    rw [if_neg hop, List.append_nil, h.created]
    exact hcreated.symm
  isn := hisn.trans h.isn
  others := by
    intro p hp
    simp only [traceStep, if_neg hop, List.append_nil, List.mem_append, List.mem_map] at hp ⊢
    rcases hp with hp | ⟨seg, hseg, rfl⟩
    · exact h.others p hp
    · refine (hput seg hseg).imp_left fun hmem => ⟨hmem, ?_⟩
      rw [h.created, ← hcreated]
      exact List.mem_append_right _ hmem

theorem putBy_eq_nil {st : TCPSender} {op : SenderOp}
    (h : (senderStep st op).segmentsOut = st.segmentsOut) : putBy st op = [] := by
  rw [putBy, h, List.drop_length]

/-- The operations that neither create nor pop keep the trace invariant. -/
theorem TraceInv.unmoved (h : TraceInv isn acked t) {op : SenderOp} (hop : op.moves = false) :
    TraceInv isn acked (traceStep t op) := by
  have hst := senderStep_unmoved t.sender hop
  have hinv : SenderInv (t.accepted ++ []) acked t.sender := by simpa using h.inv
  have hnone : ∀ {op : SenderOp}, putBy t.sender op = [] → ∀ seg ∈ putBy t.sender op,
      seg ∈ (senderStep t.sender op).outstandingSegments ∨ seg.lengthInSequenceSpace = 0 := by
    intro op hnil seg hseg
    rw [hnil] at hseg
    cases hseg
  refine h.keep (by rintro rfl; cases hop) hst.isn ?_ (by rw [hst.outstanding]) ?_
  · cases op with
    | fillWindow => cases hop
    | ackReceived ackno window => cases hop
    | write data => exact h.inv.write data
    | endInput => exact hinv.endStream
    | setError => exact hinv.errorStream
    | tick ms => exact hinv.tick ms
    | sendEmptySegment => exact hinv.sendEmptySegment
    | popSegment => exact hinv.popSegment
  · cases op with
    | fillWindow => cases hop
    | ackReceived ackno window => cases hop
    | write data => exact hnone (putBy_eq_nil rfl)
    | endInput => exact hnone (putBy_eq_nil rfl)
    | setError => exact hnone (putBy_eq_nil rfl)
    | tick ms =>
      rcases (tick_ticked t.sender ms).segmentsOut with hsame | ⟨oldest, hmem, hout⟩
      · exact hnone (putBy_eq_nil hsame)
      · intro seg hseg
        have hseg : seg ∈ (t.sender.tick ms).segmentsOut.drop t.sender.segmentsOut.length := hseg
        rw [hout, List.drop_left, List.mem_singleton] at hseg
        rw [hst.outstanding, hseg]
        exact Or.inl hmem
    | sendEmptySegment =>
      intro seg hseg
      unfold putBy senderStep TCPSender.sendEmptySegment at hseg
      rw [List.drop_left, List.mem_singleton] at hseg
      rw [hseg]
      exact Or.inr rfl
    | popSegment =>
      refine hnone ?_
      show (t.sender.segmentsOut.drop 1).drop _ = []
      rw [List.drop_drop, List.drop_eq_nil_iff]
      omega

/-- An acknowledgment moves what it pops. -/
theorem TraceInv.ack (h : TraceInv isn acked t) {ackno : WrappingInt32} {window : UInt16}
    {popped : List TCPSegment}
    (ha : Acked t.sender (t.sender.ackReceived ackno window)
      (unwrap ackno t.sender.isn t.sender.recentAbsAckno) window popped) :
    TraceInv isn (acked ++ popped) (traceStep t (.ackReceived ackno window)) := by
  refine h.keep (by simp) ha.isn ?_ ?_ ?_
  · show SenderInv (t.accepted ++ []) _ _
    rw [List.append_nil]
    exact h.inv.ack ha (unwrap_lt ..)
  · rw [List.append_assoc, ha.outstanding]
    rfl
  · intro seg hseg
    have hnil : putBy t.sender (.ackReceived ackno window) = [] := putBy_eq_nil ha.segmentsOut
    rw [hnil] at hseg
    cases hseg

theorem TraceInv.fillWindow (h : TraceInv isn acked t) :
    TraceInv isn acked (traceStep t .fillWindow) := by
  obtain ⟨new, hf⟩ := fillWindow_filled t.sender
  have hput : putBy t.sender .fillWindow = new := by
    show t.sender.fillWindow.segmentsOut.drop _ = new
    rw [hf.segmentsOut, List.drop_left]
  have hcreated : (traceStep t .fillWindow).created = t.created ++ new := by
    show t.created ++ (if _ then _ else _) = _
    rw [if_pos rfl, hput]
  refine ⟨?_, ?_, hf.isn.trans h.isn, ?_⟩
  · show SenderInv (t.accepted ++ []) acked t.sender.fillWindow
    rw [List.append_nil]
    exact h.inv.fillWindow
  · show _ = acked ++ t.sender.fillWindow.outstandingSegments
    rw [hcreated, h.created, hf.outstanding, List.append_assoc]
  · intro p hp
    have hp : p ∈ t.others := by
      simpa only [traceStep, if_true, List.append_nil] using hp
    rw [hcreated]
    exact (h.others p hp).imp_left fun hm => ⟨hm.1, List.mem_append_left _ hm.2⟩

/-- **Step.**  Every operation keeps the trace invariant; only acknowledgments pop. -/
theorem TraceInv.step (h : TraceInv isn acked t) (op : SenderOp) :
    ∃ popped, TraceInv isn (acked ++ popped) (traceStep t op) := by
  cases op with
  | fillWindow => exact ⟨[], by rw [List.append_nil]; exact h.fillWindow⟩
  | ackReceived ackno window =>
    obtain ⟨popped, ha⟩ := ackReceived_acked t.sender ackno window
    exact ⟨popped, h.ack ha⟩
  | _ => exact ⟨[], by rw [List.append_nil]; exact h.unmoved rfl⟩

/-- **Run.**  The trace invariant holds in every state of every run of a new sender. -/
theorem TraceInv.of_run (capacity : ℕ) (retxTimeout : UInt16) (fixedIsn : Option WrappingInt32)
    (random : WrappingInt32) (ops : List SenderOp) :
    ∃ acked, TraceInv (fixedIsn.getD random) acked
      (run traceStep (start (TCPSender.new capacity retxTimeout fixedIsn random)) ops) := by
  refine run_invariant_of_step (I := fun t => ∃ acked, TraceInv (fixedIsn.getD random) acked t)
    ?_ ?_ ops
  · intro t op hinv
    obtain ⟨acked, h⟩ := hinv
    obtain ⟨popped, h'⟩ := h.step op
    exact ⟨_, h'⟩
  · exact ⟨[], new_inv .., rfl, rfl, by simp [start]⟩

/-- The created segments are the accepted bytes, cut without gap or overlap and numbered from
`isn`. -/
structure TransmitsStream (isn : WrappingInt32) (t : SenderTrace) : Prop where
  stream : payloads t.created ++ t.sender.stream.buffer = t.accepted
  seqno : ∀ k (hk : k < t.created.length),
    t.created[k].header.seqno = wrap (seqLen (t.created.take k)) isn
  syn : ∀ k (hk : k < t.created.length), t.created[k].header.syn = true ↔ k = 0
  fin : ∀ k (hk : k < t.created.length), t.created[k].header.fin = true →
    k + 1 = t.created.length ∧ t.sender.stream.inputEnded = true ∧
      payloads t.created = t.accepted
  short : ∀ seg ∈ t.created, seg.payload.length ≤ maxPayloadSize
  others : ∀ p ∈ t.others, p.1 ∈ p.2 ∧ p.1 ∈ t.created ∨ p.1.lengthInSequenceSpace = 0
  next : t.sender.nextSeqno = (if t.sender.isSynSent then 1 else 0) + t.sender.stream.bytesRead +
    (if t.sender.isFinSent then 1 else 0)

/-- **The sender transmits exactly the written stream**, in every state of every run. -/
theorem transmitsStream (capacity : ℕ) (retxTimeout : UInt16) (fixedIsn : Option WrappingInt32)
    (random : WrappingInt32) (ops : List SenderOp) :
    TransmitsStream (fixedIsn.getD random)
      (run traceStep (start (TCPSender.new capacity retxTimeout fixedIsn random)) ops) := by
  obtain ⟨acked, h⟩ := TraceInv.of_run capacity retxTimeout fixedIsn random ops
  revert h
  generalize run traceStep _ ops = t
  intro h
  have hsent : Sent t.sender.isn t.accepted t.created := by
    rw [h.created]
    exact h.inv.sent
  have hstream : payloads t.created ++ t.sender.stream.buffer = t.accepted := by
    rw [h.created]
    exact h.inv.stream
  have hplaced : ∀ k (hk : k < t.created.length),
      Placed t.sender.isn t.accepted (t.created.take k) t.created[k] :=
    fun k hk => hsent _ _ _ (split_at t.created hk)
  refine ⟨hstream, ?_, ?_, ?_, ?_, h.others, h.inv.next_eq⟩
  · intro k hk
    rw [(hplaced k hk).seqno, h.isn]
  · intro k hk
    rw [(hplaced k hk).syn, List.isEmpty_iff, List.take_eq_nil_iff]
    have hne : t.created ≠ [] := List.ne_nil_of_length_pos (by omega)
    simp [hne]
  · intro k hk hfin
    have hsplit := hsent
    rw [split_at t.created hk] at hsplit
    have hlast := hsplit.fin_last hfin
    have hmem : t.created[k] ∈ acked ++ t.sender.outstandingSegments := by
      rw [← h.created]
      exact List.getElem_mem hk
    have hset := h.inv.fin.mpr ⟨t.created[k], hmem, hfin⟩
    obtain ⟨hin, hbuf⟩ := h.inv.ended hset
    refine ⟨?_, hin, ?_⟩
    · have := List.drop_eq_nil_iff.mp hlast
      omega
    · rwa [hbuf, List.append_nil] at hstream
  · intro seg hseg
    obtain ⟨pre, post, -, hp⟩ := hsent.of_mem hseg
    exact hp.short

/-- The window takes one byte along with the SYN, which is sent again, and the other with the
FIN. -/
example :
    let t := run traceStep (start (TCPSender.new 10 1000 (some ⟨7⟩) ⟨0⟩))
      [.write [97, 98], .fillWindow, .endInput, .tick 1000, .ackReceived ⟨9⟩ 10, .fillWindow]
    t.created = [{ header := { seqno := ⟨7⟩, syn := true }, payload := [97] },
        { header := { seqno := ⟨9⟩, fin := true }, payload := [98] }] ∧
      t.others.map Prod.fst = [{ header := { seqno := ⟨7⟩, syn := true }, payload := [97] }] := by
  decide

end SenderTrace

end TCPSender

end Sponge
