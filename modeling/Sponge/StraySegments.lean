import Sponge.BeforeSyn
import Sponge.PrefixSafety

/-!
# Segments outside the window

A segment with neither SYN nor FIN, none of whose sequence numbers lies in the window, ought to
leave no trace in the receiver.  The source has no such check: the segment is unwrapped, handed
to the reassembler and becomes the checkpoint of the next `unwrap`.  So it has an effect in two
ways.  The push may take along a byte that waits at `nextIndex` since the output was full
(`Extends`), and the checkpoint may be so far off that a later segment is unwrapped to another
number.

The runs with and without such segments are compared step by step.  `Watched` is the receiver
of the full run together with the checkpoint of the other one; the two receivers agree in
everything else (`Twin`) as long as every step is `Harmless`.
-/

namespace Sponge

open MachineInt Run

namespace TCPReceiver

/-- Neither SYN nor FIN, and no sequence number of the segment lies in the window. -/
def OutOfWindow (r : TCPReceiver) (seg : TCPSegment) : Prop :=
  seg.header.syn = false ∧ seg.header.fin = false ∧
    ∀ ackno ∈ r.ackno, ∀ i < seg.lengthInSequenceSpace,
      r.windowSize ≤ offset (seg.header.seqno.add i) ackno

instance (r : TCPReceiver) (seg : TCPSegment) : Decidable (r.OutOfWindow seg) :=
  inferInstanceAs (Decidable (_ ∧ _ ∧ _))

/-- The operation is the arrival of a segment outside the window. -/
def Stray (r : TCPReceiver) : RecvOp → Prop
  | .segment seg => r.OutOfWindow seg
  | .read _ => False

instance (r : TCPReceiver) : ∀ op, Decidable (r.Stray op)
  | .segment seg => inferInstanceAs (Decidable (r.OutOfWindow seg))
  | .read _ => inferInstanceAs (Decidable False)

/-- The run without the segments that are outside the window when they arrive. -/
def pruned (r : TCPReceiver) : List RecvOp → List RecvOp
  | [] => []
  | op :: ops =>
    if r.Stray op then pruned (recvStep r op) ops else op :: pruned (recvStep r op) ops

/-- All bytes that a run writes to the output. -/
def written (r : TCPReceiver) : List RecvOp → List UInt8
  | [] => []
  | op :: ops =>
    ByteStream.appended r.streamOut (recvStep r op).streamOut ++ written (recvStep r op) ops

/-- **The segments outside the window leave no trace**: without them the receiver looks the same
in the end, and has written the same bytes. -/
def Undisturbed (capacity : ℕ) (ops : List RecvOp) : Prop :=
  (run recvStep (new capacity) ops).view =
      (run recvStep (new capacity) (pruned (new capacity) ops)).view ∧
    written (new capacity) ops = written (new capacity) (pruned (new capacity) ops)

instance (capacity : ℕ) (ops : List RecvOp) : Decidable (Undisturbed capacity ops) :=
  inferInstanceAs (Decidable (_ ∧ _))

/-- A receiver, and the checkpoint that it would have without the segments outside the
window. -/
structure Watched where
  recv : TCPReceiver
  checkpoint : ℕ

namespace Watched

def step (w : Watched) : RecvOp → Watched
  | .segment seg =>
    { recv := w.recv.segmentReceived seg
      checkpoint := if w.recv.OutOfWindow seg ∨ ¬ w.recv.Pushes seg then w.checkpoint
        else (w.recv.segmentReceived seg).absCheckpoint }
  | .read len => { w with recv := w.recv.readOut len }

/-- Both checkpoints give the segment, and its FIN, the same absolute numbers. -/
def SameNumbers (w : Watched) (seg : TCPSegment) : Prop :=
  (w.recv.Pushes seg → unwrap seg.header.seqno (w.recv.noteFlags seg).isn w.recv.absCheckpoint =
    unwrap seg.header.seqno (w.recv.noteFlags seg).isn w.checkpoint) ∧
  (w.recv.ifFinSet = false ∧ seg.header.fin = true →
    unwrap ((seg.header.seqno.add seg.lengthInSequenceSpace).sub 1) (w.recv.noteFlags seg).isn
        w.recv.absCheckpoint =
      unwrap ((seg.header.seqno.add seg.lengthInSequenceSpace).sub 1) (w.recv.noteFlags seg).isn
        w.checkpoint)

instance (w : Watched) (seg : TCPSegment) : Decidable (w.SameNumbers seg) :=
  inferInstanceAs (Decidable (_ ∧ _))

/-- A segment outside the window takes no byte to the output; the checkpoint it leaves does not
change the numbers of a segment that counts. -/
def Harmless (w : Watched) : RecvOp → Prop
  | .segment seg =>
    if w.recv.OutOfWindow seg then w.recv.Pushes seg → ¬ w.recv.Extends seg
    else w.SameNumbers seg
  | .read _ => True

instance (w : Watched) : ∀ op, Decidable (w.Harmless op)
  | .segment seg => inferInstanceAs (Decidable (if w.recv.OutOfWindow seg
      then w.recv.Pushes seg → ¬ w.recv.Extends seg else w.SameNumbers seg))
  | .read _ => inferInstanceAs (Decidable True)

end Watched

/-! ### A segment outside the window is not stored -/

/-- A receiver between two calls. -/
structure Steady (r : TCPReceiver) : Prop where
  settled : r.reassembler.Settled
  capacity : r.capacity = r.reassembler.capacity
  checkpoint : r.absCheckpoint < 2 ^ 64

variable {r : TCPReceiver} {seg : TCPSegment}

theorem Steady.new {capacity : ℕ} (h : capacity < 2 ^ 64) : (new capacity).Steady :=
  ⟨StreamReassembler.Settled.new h, rfl, Nat.two_pow_pos 64⟩

theorem Steady.step (h : r.Steady) (op : RecvOp) : (recvStep r op).Steady := by
  cases op with
  | read len => exact ⟨h.settled.readOut len, h.capacity, h.checkpoint⟩
  | segment seg =>
    show (r.segmentReceived seg).Steady
    by_cases hpush : r.Pushes seg
    · rw [segmentReceived_of_pushes hpush]
      exact ⟨h.settled.pushSubstring _ _ _, (noteFlags_capacity r seg).trans h.capacity,
        unwrap_lt _ _ _⟩
    · rw [segmentReceived_of_not_pushes hpush]
      exact ⟨by simpa using h.settled, by simpa using h.capacity, by simpa using h.checkpoint⟩

/-- The acknowledgment number lies right behind `nextIndex`, or one further with the FIN. -/
theorem ackno_eq_wrap (hsyn : r.ifSynSet = true) :
    ∃ fin ≤ 1, r.ackno = some (wrap (r.reassembler.nextIndex + 1 + fin) r.isn) := by
  have hackno : r.ackno = some (wrap (u64 (u64 (r.reassembler.nextIndex + 1) +
      if u64 (r.reassembler.nextIndex + 1) = r.absSeqnoFin then 1 else 0)) r.isn) := by
    simp [ackno, hsyn]
  refine ⟨if u64 (r.reassembler.nextIndex + 1) = r.absSeqnoFin then 1 else 0,
    by split <;> omega, ?_⟩
  rw [hackno, wrap_u64, Option.some.injEq, wrap_eq_iff]
  unfold u64
  omega

/-- What such a segment offers to the map starts at `nextIndex`, if it offers anything. -/
theorem OutOfWindow.slice_start (hr : r.Steady) (hsyn : r.ifSynSet = true)
    (hout : r.OutOfWindow seg) {index : ℕ}
    (hindex : index = sub64 (unwrap seg.header.seqno r.isn r.absCheckpoint) 1)
    (hne : (r.reassembler.slice seg.payload index).2 ≠ []) :
    (r.reassembler.slice seg.payload index).1 = r.reassembler.nextIndex := by
  have henter : r.reassembler.Enters index := by
    by_contra hno
    exact hne (StreamReassembler.slice_of_not_enters hno _)
  have hlen : 0 < seg.payload.length := by
    rw [List.length_pos_iff]
    intro hnil
    rw [hnil, StreamReassembler.slice_nil] at hne
    exact hne rfl
  rw [StreamReassembler.slice_fst]
  by_contra hgt
  -- otherwise the first byte lies in the window, beyond `nextIndex`
  have hin : index < u64 (r.reassembler.nextIndex + r.reassembler.remainingCapacity) :=
    henter.resolve_left (by omega)
  have hin' := hin.trans_le (u64_le _)
  have hin'' := hin.trans (u64_lt _)
  have hnumber := unwrap_lt seg.header.seqno r.isn r.absCheckpoint
  have habs : unwrap seg.header.seqno r.isn r.absCheckpoint = index + 1 := by
    have hlast := u64_lt (r.reassembler.nextIndex + r.reassembler.remainingCapacity)
    unfold sub64 at hindex
    omega
  have hseqno : seg.header.seqno = wrap (index + 1) r.isn := by
    rw [← habs, wrap_unwrap _ _ hr.checkpoint]
  obtain ⟨fin, hfin, hackno⟩ := ackno_eq_wrap hsyn
  have hwin := hout.2.2 _ hackno 0 (by unfold TCPSegment.lengthInSequenceSpace; omega)
  have hroom : r.windowSize = r.reassembler.remainingCapacity := by
    rw [windowSize, hr.capacity]
    rfl
  rw [WrappingInt32.add_zero, hseqno, offset_wrap_wrap (by omega), hroom] at hwin
  have := Nat.mod_le (index + 1 - (r.reassembler.nextIndex + 1 + fin)) (2 ^ 32)
  omega

/-- **Nothing happens to the reassembler**, unless a byte waits that the push takes along. -/
theorem OutOfWindow.reassembler_eq (hr : r.Steady) (hout : r.OutOfWindow seg)
    (hidle : r.Pushes seg → ¬ r.Extends seg) :
    (r.segmentReceived seg).reassembler = r.reassembler := by
  by_cases hpush : r.Pushes seg
  · have hidle := hidle hpush
    have hsyn : r.ifSynSet = true := by
      have hset := hpush.2
      rwa [hout.1, Bool.or_false] at hset
    have hisn : (r.noteFlags seg).isn = r.isn := by
      rw [noteFlags_isn, if_neg (by simp [hsyn])]
    have hindex : (r.noteFlags seg).streamIndex seg =
        sub64 (unwrap seg.header.seqno r.isn r.absCheckpoint) 1 := by
      simp [streamIndex, hout.1, hisn]
    rw [segmentReceived_of_pushes hpush, hout.2.1]
    unfold Extends at hidle
    generalize (r.noteFlags seg).streamIndex seg = index at hindex hidle ⊢
    refine hr.settled.pushSubstring_eq_self ?_ fun hkey => ?_
    · unfold StreamReassembler.stored
      by_cases hnil : (r.reassembler.slice seg.payload index).2 = []
      · rw [hnil]
        rfl
      · -- a byte at `nextIndex` is offered, so the map-size guard has rejected it
        have hstart := hout.slice_start hr hsyn hindex hnil
        have hroom : 0 < r.reassembler.remainingCapacity := by
          by_contra hzero
          have henter : r.reassembler.Enters index := by
            by_contra hno
            exact hnil (StreamReassembler.slice_of_not_enters hno _)
          rw [StreamReassembler.slice_of_enters henter,
            show r.reassembler.remainingCapacity = 0 by omega, List.take_zero] at hnil
          exact hnil rfl
        refine StreamReassembler.storeBytes_of_full _ _ _ ?_
        by_contra hle
        refine hidle ⟨hroom, Or.inr ⟨0, List.length_pos_iff.mpr hnil, ?_, ?_⟩⟩
        · rw [hstart, Nat.add_zero, u64_of_lt hr.settled.wf.next]
        · exact StreamReassembler.stores_zero.mpr (not_lt.mp hle)
    · have hfull : ¬ 0 < r.reassembler.remainingCapacity := fun hroom =>
        hidle ⟨hroom, Or.inl hkey⟩
      rw [StreamReassembler.remainingCapacity_eq hr.settled.wf] at hfull
      show r.reassembler.capacity ≤ r.reassembler.output.buffer.length
      omega
  · rw [segmentReceived_of_not_pushes hpush, noteFlags_reassembler]

/-! ### The two runs -/

/-- The receiver of the run without the segments outside the window. -/
structure Twin (w : Watched) (r : TCPReceiver) : Prop where
  reassembler : r.reassembler = w.recv.reassembler
  capacity : r.capacity = w.recv.capacity
  isn : r.isn = w.recv.isn
  ifSynSet : r.ifSynSet = w.recv.ifSynSet
  ifFinSet : r.ifFinSet = w.recv.ifFinSet
  absSeqnoFin : r.absSeqnoFin = w.recv.absSeqnoFin
  checkpoint : r.absCheckpoint = w.checkpoint

variable {w : Watched}

theorem Twin.view_eq (h : Twin w r) : w.recv.view = r.view := by
  unfold view ackno windowSize unassembledBytes streamOut
  rw [h.reassembler, h.capacity, h.isn, h.ifSynSet, h.absSeqnoFin]

theorem Twin.pushes_iff (h : Twin w r) : r.Pushes seg ↔ w.recv.Pushes seg := by
  rw [Pushes, Pushes, h.ifSynSet]

theorem Twin.noteFlags_isn (h : Twin w r) (seg : TCPSegment) :
    (r.noteFlags seg).isn = (w.recv.noteFlags seg).isn := by
  rw [TCPReceiver.noteFlags_isn, TCPReceiver.noteFlags_isn, h.ifSynSet, h.isn]

/-- A segment outside the window: only the checkpoint of the full run moves. -/
theorem Twin.stray (h : Twin w r) (hw : w.recv.Steady) (hout : w.recv.OutOfWindow seg)
    (hidle : w.recv.Pushes seg → ¬ w.recv.Extends seg) : Twin (w.step (.segment seg)) r := by
  have hisn : (w.recv.noteFlags seg).isn = w.recv.isn := by
    rw [TCPReceiver.noteFlags_isn, if_neg (by simp [hout.1])]
  have hfin : (w.recv.noteFlags seg).absSeqnoFin = w.recv.absSeqnoFin := by
    rw [noteFlags_absSeqnoFin, if_neg (by simp [hout.2.1])]
  refine ⟨?_, ?_, ?_, ?_, ?_, ?_, ?_⟩
  · rw [h.reassembler, Watched.step, hout.reassembler_eq hw hidle]
  · rw [h.capacity, Watched.step, segmentReceived_capacity]
  · rw [h.isn, Watched.step, segmentReceived_isn, hisn]
  · rw [h.ifSynSet, Watched.step, segmentReceived_ifSynSet, hout.1, Bool.or_false]
  · rw [h.ifFinSet, Watched.step, segmentReceived_ifFinSet, hout.2.1, Bool.or_false]
  · rw [h.absSeqnoFin, Watched.step, segmentReceived_absSeqnoFin, hfin]
  · rw [h.checkpoint, Watched.step]
    exact (if_pos (Or.inl hout)).symm

/-- A segment that counts does the same in both runs, if it gets the same numbers. -/
theorem Twin.keep (h : Twin w r) (hin : ¬ w.recv.OutOfWindow seg) (hsame : w.SameNumbers seg) :
    Twin (w.step (.segment seg)) (r.segmentReceived seg) := by
  have hisn := h.noteFlags_isn seg
  have hnumber : w.recv.Pushes seg →
      unwrap seg.header.seqno (r.noteFlags seg).isn r.absCheckpoint =
        unwrap seg.header.seqno (w.recv.noteFlags seg).isn w.recv.absCheckpoint := by
    intro hpush
    rw [hisn, h.checkpoint, hsame.1 hpush]
  refine ⟨?_, ?_, ?_, ?_, ?_, ?_, ?_⟩
  · show (r.segmentReceived seg).reassembler = (w.recv.segmentReceived seg).reassembler
    by_cases hpush : w.recv.Pushes seg
    · have hindex : (r.noteFlags seg).streamIndex seg =
          (w.recv.noteFlags seg).streamIndex seg := by
        unfold streamIndex
        rw [noteFlags_absCheckpoint, noteFlags_absCheckpoint, hnumber hpush]
      rw [segmentReceived_of_pushes hpush, segmentReceived_of_pushes (h.pushes_iff.mpr hpush),
        hindex, h.reassembler]
    · rw [segmentReceived_of_not_pushes hpush,
        segmentReceived_of_not_pushes fun hp => hpush (h.pushes_iff.mp hp),
        noteFlags_reassembler, noteFlags_reassembler, h.reassembler]
  · rw [Watched.step, segmentReceived_capacity, segmentReceived_capacity, h.capacity]
  · rw [Watched.step, segmentReceived_isn, segmentReceived_isn, hisn]
  · rw [Watched.step, segmentReceived_ifSynSet, segmentReceived_ifSynSet, h.ifSynSet]
  · rw [Watched.step, segmentReceived_ifFinSet, segmentReceived_ifFinSet, h.ifFinSet]
  · rw [Watched.step, segmentReceived_absSeqnoFin, segmentReceived_absSeqnoFin,
      noteFlags_absSeqnoFin, noteFlags_absSeqnoFin, h.ifFinSet, hisn, h.checkpoint, h.absSeqnoFin]
    split
    · rename_i hfin
      exact (hsame.2 hfin).symm
    · rfl
  · show (r.segmentReceived seg).absCheckpoint = if _ then _ else _
    by_cases hpush : w.recv.Pushes seg
    · rw [if_neg (by simp [hin, hpush]), segmentReceived_of_pushes hpush,
        segmentReceived_of_pushes (h.pushes_iff.mpr hpush)]
      exact hnumber hpush
    · rw [if_pos (Or.inr hpush),
        segmentReceived_of_not_pushes fun hp => hpush (h.pushes_iff.mp hp),
        noteFlags_absCheckpoint, h.checkpoint]

theorem Twin.readOut (h : Twin w r) (len : ℕ) : Twin (w.step (.read len)) (r.readOut len) :=
  ⟨congrArg (·.readOut len) h.reassembler, h.capacity, h.isn, h.ifSynSet, h.ifFinSet,
    h.absSeqnoFin, h.checkpoint⟩

/-- One operation of the full run: the other run skips it, and nothing was written, or follows
it. -/
theorem Twin.step (h : Twin w r) (hw : w.recv.Steady) {op : RecvOp} (hok : w.Harmless op) :
    (w.recv.Stray op → Twin (w.step op) r ∧
      (w.step op).recv.streamOut = w.recv.streamOut) ∧
    (¬ w.recv.Stray op → Twin (w.step op) (recvStep r op)) := by
  cases op with
  | read len => exact ⟨fun hstray => hstray.elim, fun _ => h.readOut len⟩
  | segment seg =>
    have hok : if w.recv.OutOfWindow seg then w.recv.Pushes seg → ¬ w.recv.Extends seg
        else w.SameNumbers seg := hok
    refine ⟨fun hout => ?_, fun hin => ?_⟩
    · have hout : w.recv.OutOfWindow seg := hout
      rw [if_pos hout] at hok
      refine ⟨h.stray hw hout hok, ?_⟩
      exact congrArg (·.output) (OutOfWindow.reassembler_eq hw hout hok)
    · have hin : ¬ w.recv.OutOfWindow seg := hin
      rw [if_neg hin] at hok
      exact h.keep hin hok

theorem Watched.step_recv (w : Watched) (op : RecvOp) : (w.step op).recv = recvStep w.recv op := by
  cases op <;> rfl

/-- **The two runs stay twins**, and write the same bytes. -/
theorem Twin.run (h : Twin w r) (hw : w.recv.Steady) {ops : List RecvOp}
    (hok : Along Watched.step Watched.Harmless w ops) :
    (Run.run recvStep w.recv ops).view = (Run.run recvStep r (pruned w.recv ops)).view ∧
      written w.recv ops = written r (pruned w.recv ops) := by
  induction ops generalizing w r with
  | nil => exact ⟨h.view_eq, rfl⟩
  | cons op ops ih =>
    obtain ⟨hstray, hkeep⟩ := h.step hw hok.1
    have hw' : (w.step op).recv.Steady := by
      rw [Watched.step_recv]
      exact hw.step op
    by_cases hop : w.recv.Stray op
    · obtain ⟨htwin, hout⟩ := hstray hop
      obtain ⟨hview, hwritten⟩ := ih htwin hw' hok.2
      rw [Watched.step_recv] at hview hwritten hout
      rw [pruned, if_pos hop, written, ← hwritten, hout]
      refine ⟨hview, ?_⟩
      simp [ByteStream.appended]
    · have htwin := hkeep hop
      obtain ⟨hview, hwritten⟩ := ih htwin hw' hok.2
      rw [Watched.step_recv] at hview hwritten
      have hout : (recvStep r op).streamOut = (recvStep w.recv op).streamOut := by
        rw [streamOut, htwin.reassembler, Watched.step_recv]
        rfl
      have hout₀ : r.streamOut = w.recv.streamOut := by
        rw [streamOut, h.reassembler]
        rfl
      rw [pruned, if_neg hop, written, written, ← hwritten, hout, hout₀]
      exact ⟨hview, rfl⟩

/-- **Harmless segments outside the window leave no trace.**  For every run of a receiver: if
no segment outside the window takes along a byte that waits for the output, and no segment that
counts gets other numbers through the checkpoint that they leave, then the run without them ends
with the same acknowledgment number, window, count of unassembled bytes and output, and has
written the same bytes. -/
theorem undisturbed_of_harmless (capacity : ℕ) (hcap : capacity < 2 ^ 64) (ops : List RecvOp)
    (hok : Along Watched.step Watched.Harmless { recv := new capacity, checkpoint := 0 } ops) :
    Undisturbed capacity ops := by
  have htwin : Twin { recv := new capacity, checkpoint := 0 } (new capacity) :=
    ⟨rfl, rfl, rfl, rfl, rfl, rfl, rfl⟩
  exact htwin.run (Steady.new hcap) hok

/-- A byte beyond the window between the SYN and the first byte of the stream. -/
theorem undisturbed_of_harmless_ahead :
    Undisturbed 4 [.segment { header := { syn := true, seqno := ⟨7⟩ } },
      .segment { header := { seqno := ⟨100⟩ }, payload := [120] },
      .segment { header := { seqno := ⟨8⟩ }, payload := [97] }] :=
  undisturbed_of_harmless 4 (by decide) _ (by decide)

/-- While a segment that lies in the window arrives, it is a slice of the stream `s`. -/
def HearsSlices (isn : WrappingInt32) (s : List UInt8) (r : TCPReceiver) : RecvOp → Prop
  | .segment seg => r.OutOfWindow seg ∨ ∃ index, StreamSlice isn s seg index
  | .read _ => True

/-- A byte sixteen numbers before the SYN is outside the window, but becomes the checkpoint: the
first byte of the stream `"a"` is then unwrapped to `2 ^ 32 + 1` and lost. -/
theorem disturbed_by_checkpoint :
    let ops : List RecvOp := [.segment { header := { syn := true } },
      .segment { header := { seqno := ⟨0xfffffff0⟩ }, payload := [120] },
      .segment { header := { seqno := ⟨1⟩ }, payload := [97] }]
    Along recvStep (HearsSlices ⟨0⟩ [97]) (new 4) ops ∧ ¬ Undisturbed 4 ops := by
  refine ⟨⟨?_, ?_, ?_, trivial⟩, by decide⟩
  · exact Or.inr ⟨0, ⟨by decide, fun _ => rfl, List.nil_prefix, by decide⟩⟩
  · exact Or.inl (by decide)
  · exact Or.inr ⟨0, ⟨by decide, fun _ => rfl, List.prefix_refl _, by decide⟩⟩

end TCPReceiver

end Sponge
