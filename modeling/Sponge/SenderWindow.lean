import Sponge.SenderRun

/-!
# Acknowledgments and the sender's window

`ack_received` guards the popping of segments but assigns the acknowledgment number and the
window whatever they are.  An acknowledgment is *in range* when it lies between the last one
and `next_seqno`.  A run keeps its window base monotone and below `next_seqno`, ignores what is
beyond `next_seqno`, and sends within the edges it was given, exactly when all its
acknowledgments are in range.
-/

namespace Sponge

open MachineInt Run

namespace TCPSender

/-- The absolute acknowledgment number, as `ack_received` unwraps it. -/
def absAckno (st : TCPSender) (ackno : WrappingInt32) : ℕ := unwrap ackno st.isn st.recentAbsAckno

section Fill

variable {accepted : List UInt8} {acked : List TCPSegment} {st : TCPSender}

/-- `fill_window` does nothing, or sends only the SYN, or stays inside the window. -/
theorem SenderInv.fillWindow_edge (h : SenderInv accepted acked st) :
    st.fillWindow = st ∨
      (st.nextSeqno = 0 ∧
        ∃ seg, st.fillWindow.outstandingSegments = st.outstandingSegments ++ [seg]) ∨
      st.fillWindow.nextSeqno ≤ st.windowEdge := by
  revert h
  refine fillWindow_induct (P := fun st st' => SenderInv accepted acked st → st' = st ∨
    (st.nextSeqno = 0 ∧ ∃ seg, st'.outstandingSegments = st.outstandingSegments ++ [seg]) ∨
      st'.nextSeqno ≤ st.windowEdge) ?_ ?_ ?_ st
  · intro st _ _
    exact Or.inl rfl
  · intro st _ hlen h
    exact Or.inl (h.nextSegment_break hlen)
  · intro st hmay hlen ih h
    have h' := h.pushSegment hmay hlen
    have hnext : (st.nextSegment.2.pushSegment st.nextSegment.1).nextSeqno =
        st.nextSeqno + st.nextSegment.1.lengthInSequenceSpace := u64_of_lt (h.next_add_lt hmay)
    rcases ih h' with hsame | ⟨hzero, -⟩ | hedge
    · rw [hsame]
      by_cases h0 : st.nextSeqno = 0
      · exact Or.inr (Or.inl ⟨h0, st.nextSegment.1, rfl⟩)
      · have hsyn := h.synSet_iff.mpr h0
        have hlt : st.nextSeqno < st.windowEdge := by simpa [mayFill, hsyn] using hmay
        exact Or.inr (Or.inr (hnext.le.trans (nextSegment_le_edge h0 hlt)))
    · omega
    · exact Or.inr (Or.inr hedge)

/-- `fill_window` never lowers `next_seqno`. -/
theorem SenderInv.nextSeqno_le_fillWindow (h : SenderInv accepted acked st) :
    st.nextSeqno ≤ st.fillWindow.nextSeqno := by
  obtain ⟨new, hf⟩ := fillWindow_filled st
  rw [h.next, h.fillWindow.next, hf.outstanding, ← List.append_assoc, seqLen_append (_ ++ _)]
  omega

/-- `fill_window` does not pass the window, or has nothing outstanding but the SYN. -/
theorem SenderInv.fillWindow_next_le (h : SenderInv accepted acked st) :
    st.fillWindow.nextSeqno ≤ max st.nextSeqno (st.recentAbsAckno + 65535) := by
  rcases h.fillWindow_edge with hsame | ⟨hzero, seg, hone⟩ | hedge
  · rw [hsame]
    exact le_max_left _ _
  · -- only the SYN was sent
    have hplaced := h.fillWindow.sent (acked ++ st.outstandingSegments) seg []
      (by rw [hone, List.append_assoc])
    have hlen := hplaced.length_le
    have hnext := h.next
    unfold maxPayloadSize at hlen
    rw [h.fillWindow.next, hone, ← List.append_assoc, seqLen_append (_ ++ _), ← hnext, hzero,
      seqLen_cons, seqLen_nil]
    omega
  · have hle : st.windowEdge ≤ st.recentAbsAckno + st.windowSize.toNat := u64_le _
    have hwin := st.windowSize.toNat_lt
    omega

end Fill

namespace SenderTrace

/-- The right edge that an operation grants: that of an acknowledgment not beyond
`next_seqno`. -/
def edgeBy (st : TCPSender) : SenderOp → List ℕ
  | .ackReceived ackno windowSize =>
    if st.absAckno ackno ≤ st.nextSeqno then [st.absAckno ackno + max 1 windowSize.toNat] else []
  | _ => []

/-- The right edges granted in a run. -/
def ackEdges : SenderTrace → List SenderOp → List ℕ
  | _, [] => []
  | t, op :: ops => edgeBy t.sender op ++ ackEdges (traceStep t op) ops

/-- Every segment created after the SYN ends at or before a granted right edge. -/
def WithinEdges (t : SenderTrace) (edges : List ℕ) : Prop :=
  ∀ k, 0 < k → k < t.created.length → ∃ e ∈ edges, seqLen (t.created.take (k + 1)) ≤ e

/-- One step keeps the window base monotone and below `next_seqno`, and ignores an
acknowledgment beyond `next_seqno`. -/
structure HarmlessStep (t : SenderTrace) (op : SenderOp) : Prop where
  mono : t.sender.recentAbsAckno ≤ (senderStep t.sender op).recentAbsAckno
  le_next : (senderStep t.sender op).recentAbsAckno ≤ (senderStep t.sender op).nextSeqno
  ignored : ∀ ackno windowSize, op = .ackReceived ackno windowSize →
    t.sender.nextSeqno < t.sender.absAckno ackno → senderStep t.sender op = t.sender

/-- An acknowledgment lies between the last one and `next_seqno`. -/
def AckInRange (t : SenderTrace) : SenderOp → Prop
  | .ackReceived ackno _ =>
    t.sender.recentAbsAckno ≤ t.sender.absAckno ackno ∧
      t.sender.absAckno ackno ≤ t.sender.nextSeqno
  | _ => True

variable {isn : WrappingInt32} {acked : List TCPSegment} {t : SenderTrace} {op : SenderOp}

theorem ackEdges_concat (t : SenderTrace) (ops : List SenderOp) (op : SenderOp) :
    ackEdges t (ops ++ [op]) = ackEdges t ops ++ edgeBy (run traceStep t ops).sender op := by
  induction ops generalizing t with
  | nil => simp [ackEdges]
  | cons o ops ih => simp [ackEdges, ih]

theorem harmlessStep_of_unmoved (hle : t.sender.recentAbsAckno ≤ t.sender.nextSeqno)
    (hop : op.moves = false) : HarmlessStep t op := by
  have hst := senderStep_unmoved t.sender hop
  refine ⟨hst.recent.ge, by rwa [hst.recent, hst.nextSeqno], ?_⟩
  rintro ackno window rfl
  cases hop

/-- A step whose acknowledgment is in range is harmless. -/
theorem harmlessStep_of_inRange (h : TraceInv isn acked t)
    (hle : t.sender.recentAbsAckno ≤ t.sender.nextSeqno) (hok : AckInRange t op) :
    HarmlessStep t op := by
  cases op with
  | ackReceived ackno window =>
    obtain ⟨popped, ha⟩ := ackReceived_acked t.sender ackno window
    refine ⟨hok.1.trans ha.recent.ge, ?_, ?_⟩
    · show (t.sender.ackReceived ackno window).recentAbsAckno ≤
        (t.sender.ackReceived ackno window).nextSeqno
      rw [ha.recent, ha.nextSeqno]
      exact hok.2
    · intro ackno' window' hop hbeyond
      cases hop
      exact absurd hok.2 hbeyond.not_ge
  | fillWindow =>
    obtain ⟨new, hf⟩ := fillWindow_filled t.sender
    refine ⟨hf.recent.ge, ?_, by simp⟩
    show t.sender.fillWindow.recentAbsAckno ≤ t.sender.fillWindow.nextSeqno
    rw [hf.recent]
    exact hle.trans h.inv.nextSeqno_le_fillWindow
  | _ => exact harmlessStep_of_unmoved hle rfl

/-- A harmless step has its acknowledgment in range: `ack_received` takes what it is given. -/
theorem HarmlessStep.inRange (h : HarmlessStep t op) : AckInRange t op := by
  cases op with
  | ackReceived ackno window =>
    obtain ⟨popped, ha⟩ := ackReceived_acked t.sender ackno window
    have hmono : t.sender.recentAbsAckno ≤ (t.sender.ackReceived ackno window).recentAbsAckno :=
      h.mono
    have hle : (t.sender.ackReceived ackno window).recentAbsAckno ≤
        (t.sender.ackReceived ackno window).nextSeqno := h.le_next
    rw [ha.recent] at hmono hle
    rw [ha.nextSeqno] at hle
    exact ⟨hmono, hle⟩
  | _ => trivial

/-- The window base and size are the initial ones or those of a granted edge. -/
def FromEdges (st : TCPSender) (edges : List ℕ) : Prop :=
  st.recentAbsAckno + st.windowSize.toNat = 1 ∨
    st.recentAbsAckno + st.windowSize.toNat ∈ edges

theorem FromEdges.mono {st st' : TCPSender} {edges : List ℕ} (h : FromEdges st edges)
    (more : List ℕ) (hrecent : st'.recentAbsAckno = st.recentAbsAckno)
    (hwindow : st'.windowSize = st.windowSize) : FromEdges st' (edges ++ more) := by
  unfold FromEdges
  rw [hrecent, hwindow]
  exact h.imp_right (List.mem_append_left _)

theorem FromEdges.unmoved {edges : List ℕ} (h : FromEdges t.sender edges)
    (hop : op.moves = false) (more : List ℕ) :
    FromEdges (senderStep t.sender op) (edges ++ more) :=
  have hst := senderStep_unmoved t.sender hop
  h.mono more hst.recent hst.window

/-- Whatever the window is after the step, it comes from a granted edge. -/
theorem FromEdges.step {edges : List ℕ} (h : FromEdges t.sender edges) (hok : AckInRange t op) :
    FromEdges (senderStep t.sender op) (edges ++ edgeBy t.sender op) := by
  cases op with
  | ackReceived ackno window =>
    obtain ⟨popped, ha⟩ := ackReceived_acked t.sender ackno window
    refine Or.inr (List.mem_append_right _ ?_)
    show (t.sender.ackReceived ackno window).recentAbsAckno +
      (t.sender.ackReceived ackno window).windowSize.toNat ∈ edgeBy _ _
    rw [ha.recent, ha.window, toNat_window, edgeBy, if_pos hok.2]
    exact List.mem_singleton.mpr rfl
  | fillWindow =>
    obtain ⟨new, hf⟩ := fillWindow_filled t.sender
    exact h.mono _ hf.recent hf.window
  | _ => exact h.unmoved rfl _

/-- What `fill_window` creates beyond the SYN ends inside the granted edges. -/
theorem WithinEdges.fillWindow {edges : List ℕ} (h : WithinEdges t edges)
    (hinv : TraceInv isn acked t) (hfrom : FromEdges t.sender edges) :
    WithinEdges (traceStep t .fillWindow) edges := by
  obtain ⟨new, hf⟩ := fillWindow_filled t.sender
  have hinv' := hinv.fillWindow
  have hcreated : (traceStep t .fillWindow).created = t.created ++ new := by
    rw [hinv'.created, hinv.created, List.append_assoc, ← hf.outstanding]
    rfl
  have hnext : seqLen (traceStep t .fillWindow).created = t.sender.fillWindow.nextSeqno := by
    rw [hinv'.created]
    exact hinv'.inv.next.symm
  intro k hk hlt
  rcases hinv.inv.fillWindow_edge with hsame | ⟨hzero, seg, hone⟩ | hedge
  · -- nothing was created
    have hnil : new = [] := by
      have := hf.outstanding
      rw [hsame] at this
      simpa using this
    rw [hcreated, hnil, List.append_nil] at hlt ⊢
    exact h k hk hlt
  · -- only the SYN was created
    have hnil : t.created = [] := by
      have hlen := hinv.inv.sent.length_le
      rw [← hinv.inv.next, hzero, ← hinv.created] at hlen
      exact List.length_eq_zero_iff.mp (Nat.le_zero.mp hlen)
    have hnew : new = [seg] := List.append_cancel_left (hf.outstanding.symm.trans hone)
    rw [hcreated, hnil, hnew] at hlt
    simp only [List.nil_append, List.length_singleton] at hlt
    omega
  · have hle : t.sender.windowEdge ≤ t.sender.recentAbsAckno + t.sender.windowSize.toNat :=
      u64_le _
    rcases hfrom with hinit | hmem
    · -- the initial window has room for one sequence number
      have hlen := hinv'.inv.sent.length_le
      rw [← hinv'.created, hnext] at hlen
      omega
    · refine ⟨_, hmem, ?_⟩
      have htake : seqLen ((traceStep t .fillWindow).created.take (k + 1)) ≤
          seqLen (traceStep t .fillWindow).created := by
        conv_rhs => rw [← List.take_append_drop (k + 1) (traceStep t .fillWindow).created]
        rw [seqLen_append]
        omega
      omega

theorem WithinEdges.step {edges : List ℕ} (h : WithinEdges t edges) (hinv : TraceInv isn acked t)
    (hfrom : FromEdges t.sender edges) (op : SenderOp) :
    WithinEdges (traceStep t op) (edges ++ edgeBy t.sender op) := by
  by_cases hop : op = .fillWindow
  · subst hop
    show WithinEdges _ (edges ++ [])
    rw [List.append_nil]
    exact h.fillWindow hinv hfrom
  · have hcreated : (traceStep t op).created = t.created := by
      show t.created ++ (if _ then _ else _) = _
      rw [if_neg hop, List.append_nil]
    intro k hk hlt
    rw [hcreated] at hlt ⊢
    obtain ⟨e, he, hle⟩ := h k hk hlt
    exact ⟨e, List.mem_append_left _ he, hle⟩

/-- The states of a run whose acknowledgments are all in range. -/
structure RangeInv (isn : WrappingInt32) (edges : List ℕ) (t : SenderTrace) : Prop where
  trace : ∃ acked, TraceInv isn acked t
  le_next : t.sender.recentAbsAckno ≤ t.sender.nextSeqno
  from_edges : FromEdges t.sender edges
  within : WithinEdges t edges

theorem RangeInv.step {edges : List ℕ} (h : RangeInv isn edges t) (hok : AckInRange t op) :
    RangeInv isn (edges ++ edgeBy t.sender op) (traceStep t op) := by
  obtain ⟨acked, hinv⟩ := h.trace
  obtain ⟨popped, hinv'⟩ := hinv.step op
  exact ⟨⟨_, hinv'⟩, (harmlessStep_of_inRange hinv h.le_next hok).le_next,
    h.from_edges.step hok, h.within.step hinv h.from_edges op⟩

theorem RangeInv.new (capacity : ℕ) (retxTimeout : UInt16) (fixedIsn : Option WrappingInt32)
    (random : WrappingInt32) :
    RangeInv (fixedIsn.getD random) []
      (start (TCPSender.new capacity retxTimeout fixedIsn random)) where
  trace := TraceInv.of_run capacity retxTimeout fixedIsn random []
  le_next := le_rfl
  from_edges := Or.inl rfl
  within := by
    intro k _ hlt
    simp [start] at hlt

/-- **Acknowledgments are harmless exactly in the runs where all of them are in range.** -/
theorem harmless_iff_inRange (capacity : ℕ) (retxTimeout : UInt16)
    (fixedIsn : Option WrappingInt32) (random : WrappingInt32) (ops : List SenderOp) :
    let t := start (TCPSender.new capacity retxTimeout fixedIsn random)
    (Along traceStep HarmlessStep t ops ∧ WithinEdges (run traceStep t ops) (ackEdges t ops)) ↔
      Along traceStep AckInRange t ops := by
  intro t
  have hnew : RangeInv (fixedIsn.getD random) [] t :=
    RangeInv.new capacity retxTimeout fixedIsn random
  have hsteps : Along traceStep HarmlessStep t ops ↔ Along traceStep AckInRange t ops := by
    refine along_iff_of_invariant (I := fun t => ∃ edges, RangeInv (fixedIsn.getD random) edges t)
      ?_ ?_ ⟨_, hnew⟩ (along_of_forall (fun _ _ => trivial) t ops)
    · intro t op hinv _ hok
      obtain ⟨edges, h⟩ := hinv
      exact ⟨_, h.step hok⟩
    · intro t op hinv _
      obtain ⟨edges, h⟩ := hinv
      obtain ⟨acked, hinv⟩ := h.trace
      exact ⟨HarmlessStep.inRange, harmlessStep_of_inRange hinv h.le_next⟩
  constructor
  · intro hall
    obtain ⟨h, -⟩ := hall
    exact hsteps.mp h
  · intro hok
    refine ⟨hsteps.mpr hok, ?_⟩
    refine (run_history (I := fun ops t' => RangeInv (fixedIsn.getD random) (ackEdges t ops) t')
      hnew ?_ ops hok).within
    intro ops op _ h hop
    rw [ackEdges_concat]
    exact h.step hop

/-- After the SYN, the impossible acknowledgment 5 is taken as the window base, and the next
`fill_window` sends up to sequence number 6 although no acknowledgment granted anything. -/
theorem harmless_fails_on_impossible_ack :
    let t := start (TCPSender.new 8 1000 (some ⟨0⟩) ⟨0⟩)
    let ops : List SenderOp := [.fillWindow, .ackReceived ⟨5⟩ 1, .write [97, 98, 99, 100, 101],
      .fillWindow]
    ¬ Along traceStep HarmlessStep t ops ∧
      ¬ WithinEdges (run traceStep t ops) (ackEdges t ops) := by
  refine ⟨?_, ?_⟩
  · intro h
    exact absurd h.2.1.le_next (by decide)
  · intro h
    obtain ⟨e, he, -⟩ := h 1 (by decide) (by decide)
    have hnil : ackEdges (start (TCPSender.new 8 1000 (some ⟨0⟩) ⟨0⟩))
        [.fillWindow, .ackReceived ⟨5⟩ 1, .write [97, 98, 99, 100, 101], .fillWindow] = [] := by
      decide
    rw [hnil] at he
    cases he

end SenderTrace

end TCPSender

end Sponge
