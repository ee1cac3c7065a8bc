import Sponge.Retransmission
import Mathlib.Logic.Relation

/-!
# How far `fill_window` fills the window

`Fills` is the `while` loop of `fill_window` as a relation, without the fuel of the definition,
and `Iterates` is one iteration that goes on.  `FillsExactly` collects what the call should do:
it terminates, its subtraction stays above zero in every iteration, it does not pass the edge of
the window, and it stops only at the edge or when the stream has nothing more to give.

The segment that carries the SYN takes as many bytes from the stream as the whole window has room
for, and the SYN on top.  With data written before the SYN is sent it can therefore pass the edge
by one; `Overshoots` says when, and `fillsExactly_iff` that nothing else goes wrong.
-/

namespace Sponge

open MachineInt Run

namespace TCPSender

/-! ### The loop -/

/-- The state after an iteration that enqueues a segment. -/
def iterated (st : TCPSender) : TCPSender := st.nextSegment.2.pushSegment st.nextSegment.1

/-- One iteration that goes on. -/
def Iterates (st st' : TCPSender) : Prop :=
  st.mayFill = true ∧ st.nextSegment.1.lengthInSequenceSpace ≠ 0 ∧ st' = st.iterated

/-- The loop takes one state to the other. -/
inductive Fills : TCPSender → TCPSender → Prop where
  | stop {st} (hmay : st.mayFill = false) : Fills st st
  | leave {st} (hmay : st.mayFill = true)
      (hlen : st.nextSegment.1.lengthInSequenceSpace = 0) : Fills st st.nextSegment.2
  | push {st st'} (hmay : st.mayFill = true)
      (hlen : st.nextSegment.1.lengthInSequenceSpace ≠ 0) (hrest : Fills st.iterated st') :
      Fills st st'

/-- **The loop terminates**, with the state that `fillWindow` computes. -/
theorem fills_fillWindow (st : TCPSender) : Fills st st.fillWindow := by
  refine fillWindow_induct (P := Fills) ?_ ?_ ?_ st
  · exact fun st hmay => .stop hmay
  · exact fun st hmay hlen => .leave hmay hlen
  · exact fun st hmay hlen ih => .push hmay hlen ih

/-! ### Properties of a call -/

/-- What `fill_window` should do. -/
structure FillsExactly (st : TCPSender) : Prop where
  terminates : Fills st st.fillWindow
  /-- Wherever the body runs, the subtraction of `next_seqno` from the edge is exact. -/
  noUnderflow : ∀ mid, Relation.ReflTransGen Iterates st mid → mid.mayFill = true →
    mid.nextSeqno ≤ mid.windowEdge
  within : st.fillWindow.nextSeqno ≤ max st.nextSeqno st.windowEdge
  full : st.windowEdge ≤ st.fillWindow.nextSeqno ∨ st.fillWindow.Drained

/-- The SYN is still to be sent and the stream can fill the whole window with one segment. -/
def Overshoots (st : TCPSender) : Prop :=
  st.isSynSet = false ∧ st.windowEdge ≤ st.stream.buffer.length ∧ st.windowEdge ≤ maxPayloadSize

instance (st : TCPSender) : Decidable st.Overshoots := inferInstanceAs (Decidable (_ ∧ _))

section

variable {accepted : List UInt8} {acked : List TCPSegment} {st mid : TCPSender}

theorem SenderInv.iterate (h : SenderInv accepted acked st) (hstep : Iterates st mid) :
    SenderInv accepted acked mid := by
  obtain ⟨hmay, hlen, rfl⟩ := hstep
  exact h.pushSegment hmay hlen

theorem SenderInv.iterates (h : SenderInv accepted acked st)
    (hsteps : Relation.ReflTransGen Iterates st mid) : SenderInv accepted acked mid := by
  induction hsteps with
  | refl => exact h
  | tail _ hstep ih => exact ih.iterate hstep

/-- The body runs before the SYN, or short of the edge. -/
theorem SenderInv.le_edge (h : SenderInv accepted acked st) (hmay : st.mayFill = true) :
    st.nextSeqno ≤ st.windowEdge := by
  by_cases hzero : st.nextSeqno = 0
  · omega
  · have hsyn := h.synSet_iff.mpr hzero
    have hlt : st.nextSeqno < st.windowEdge := by simpa [mayFill, hsyn] using hmay
    exact hlt.le

/-- The loop stops only at the edge, or with the stream drained. -/
theorem SenderInv.fillWindow_full (h : SenderInv accepted acked st) :
    st.windowEdge ≤ st.fillWindow.nextSeqno ∨ st.fillWindow.Drained := by
  revert h
  refine fillWindow_induct (P := fun st st' => SenderInv accepted acked st →
    st.windowEdge ≤ st'.nextSeqno ∨ st'.Drained) ?_ ?_ ?_ st
  · intro st hmay _
    have hstop : st.isSynSet = true ∧ st.windowEdge ≤ st.nextSeqno := by
      simpa [mayFill] using hmay
    exact Or.inl hstop.2
  · intro st hmay hlen h
    have hzero := (nextSegment_of_length_zero hlen).1
    have hsyn := h.synSet_iff.mpr hzero
    have hlt : st.nextSeqno < st.windowEdge := by simpa [mayFill, hsyn] using hmay
    rw [h.nextSegment_break hlen]
    exact Or.inr ((nextSegment_length_zero_iff hzero hlt).mp hlen)
  · intro st hmay hlen ih h
    exact ih (h.pushSegment hmay hlen)

/-- Once the SYN is out, the call stays within the window. -/
theorem SenderInv.fillWindow_within (h : SenderInv accepted acked st)
    (hzero : st.nextSeqno ≠ 0) :
    st.fillWindow.nextSeqno ≤ max st.nextSeqno st.windowEdge := by
  rcases h.fillWindow_edge with hsame | ⟨hfirst, -⟩ | hedge
  · rw [hsame]
    exact le_max_left ..
  · exact absurd hfirst hzero
  · exact hedge.trans (le_max_right ..)

/-! ### The first segment -/

/-- The room that the first iteration sees is the whole window. -/
theorem first_room (hzero : st.nextSeqno = 0) :
    sub64 st.windowEdge st.nextSeqno = st.windowEdge := by
  have hedge : st.windowEdge < 2 ^ 64 := u64_lt _
  rw [hzero, sub64_of_le hedge (Nat.zero_le _), Nat.sub_zero]

theorem first_payload_length (hzero : st.nextSeqno = 0) :
    st.nextSegment.1.payload.length =
      min (min st.windowEdge maxPayloadSize) st.stream.buffer.length := by
  rw [nextSegment_payload, List.length_take, first_room hzero]

/-- The segment with the SYN passes the edge exactly if its payload fills the window. -/
theorem first_length_le_iff (hzero : st.nextSeqno = 0) (hsyn : st.isSynSet = false) :
    st.nextSegment.1.lengthInSequenceSpace ≤ st.windowEdge ↔ ¬ st.Overshoots := by
  have hpay := first_payload_length hzero
  have hfin := nextSegment_fin st
  rw [first_room hzero, if_pos hzero] at hfin
  rw [nextSegment_length, if_pos hzero]
  constructor
  · intro hle hover
    obtain ⟨-, hbuf, hmax⟩ := hover
    split at hle <;> omega
  · intro hfit
    have hshort : ¬ (st.windowEdge ≤ st.stream.buffer.length ∧
        st.windowEdge ≤ maxPayloadSize) := fun hover => hfit ⟨hsyn, hover⟩
    split
    · rename_i hf
      have := (hfin.mp hf).2.2.2
      omega
    · omega

theorem SenderInv.fillWindow_first (h : SenderInv accepted acked st) (hzero : st.nextSeqno = 0)
    (hsyn : st.isSynSet = false) :
    st.fillWindow = st.iterated.fillWindow ∧ SenderInv accepted acked st.iterated ∧
      st.iterated.nextSeqno = st.nextSegment.1.lengthInSequenceSpace := by
  have hmay : st.mayFill = true := by simp [mayFill, hsyn]
  have hlen : st.nextSegment.1.lengthInSequenceSpace ≠ 0 := by
    rw [nextSegment_length, if_pos hzero]
    omega
  refine ⟨?_, h.pushSegment hmay hlen, ?_⟩
  · rw [fillWindow_eq, if_pos hmay, if_neg hlen]
    rfl
  · have hlt := h.next_add_lt hmay
    show u64 (st.nextSeqno + st.nextSegment.1.lengthInSequenceSpace) = _
    rw [u64_of_lt hlt, hzero, Nat.zero_add]

/-- **The window is exceeded only by the SYN on top of a full payload.** -/
theorem SenderInv.within_iff (h : SenderInv accepted acked st) :
    st.fillWindow.nextSeqno ≤ max st.nextSeqno st.windowEdge ↔ ¬ st.Overshoots := by
  by_cases hzero : st.nextSeqno = 0
  · have hsyn : st.isSynSet = false := by
      by_contra hset
      exact h.synSet_iff.mp (by simpa using hset) hzero
    obtain ⟨hfill, hnext, hlen⟩ := h.fillWindow_first hzero hsyn
    have hlater := hnext.nextSeqno_le_fillWindow
    have hedge : st.iterated.windowEdge = st.windowEdge := rfl
    have hne : st.iterated.nextSeqno ≠ 0 := by
      rw [hlen, nextSegment_length, if_pos hzero]
      omega
    have hwithin := hnext.fillWindow_within hne
    rw [← first_length_le_iff hzero hsyn, hfill, hzero, Nat.zero_max]
    rw [hedge] at hwithin
    constructor
    · intro hle
      omega
    · intro hle
      omega
  · refine iff_of_true (h.fillWindow_within hzero) fun hover => ?_
    have hset := h.synSet_iff.mpr hzero
    rw [hover.1] at hset
    cases hset

theorem SenderInv.fillsExactly_iff (h : SenderInv accepted acked st) :
    st.FillsExactly ↔ ¬ st.Overshoots := by
  constructor
  · intro hfills
    exact h.within_iff.mp hfills.within
  · intro hfit
    refine ⟨fills_fillWindow st, fun mid hsteps hmay => ?_, h.within_iff.mpr hfit,
      h.fillWindow_full⟩
    exact (h.iterates hsteps).le_edge hmay

end

/-- **`fill_window` fills the window exactly**, in every state that a sender can reach, unless the
SYN is still to be sent and the stream has enough data for the whole window. -/
theorem fillsExactly_iff_not_overshoots (capacity : ℕ) (retxTimeout : UInt16)
    (fixedIsn : Option WrappingInt32) (random : WrappingInt32) (ops : List SenderOp) :
    (run senderStep (TCPSender.new capacity retxTimeout fixedIsn random) ops).FillsExactly ↔
      ¬ (run senderStep (TCPSender.new capacity retxTimeout fixedIsn random) ops).Overshoots := by
  obtain ⟨accepted, acked, hinv, -⟩ :=
    senderInv_of_run capacity retxTimeout fixedIsn random ops
  exact hinv.fillsExactly_iff

/-- One byte written before the SYN is sent: the window has room for one sequence number, and the
SYN and the byte take two. -/
theorem fillsExactly_fails_before_syn :
    let st := run senderStep (TCPSender.new 8 1000 (some ⟨0⟩) ⟨0⟩) [.write [97]]
    st.nextSeqno = 0 ∧ st.windowEdge = 1 ∧ st.fillWindow.nextSeqno = 2 ∧ ¬ st.FillsExactly := by
  refine ⟨by decide, by decide, by decide, fun h => ?_⟩
  exact absurd h.within (by decide)

end TCPSender

end Sponge
