import Sponge.TcpReceiver

/-!
# What the receiver acknowledges

`ackno` is computed from `nextIndex` and the separately recorded position of the first FIN,
while the end of the stream is decided inside the reassembler.  `AckInv` is the invariant that
ties the three together: the output has taken `nextIndex` bytes, and it has ended exactly when
the recorded FIN comes next.  A segment breaks it in one of four ways, all visible before the
segment is processed: the FIN is known and the bytes held close up somewhere else than right
before it (`EndsElsewhere`), the bytes held reach the recorded FIN although the stream is not
complete there (`CountsFinEarly`), a byte arrives for the index at which the stream has ended
(`Extends`), or `2 ^ 31` bytes are assembled at once.
-/

namespace Sponge

open MachineInt Run

namespace TCPReceiver

inductive RecvOp where
  | segment (seg : TCPSegment)
  | read (len : ℕ)
deriving DecidableEq

def recvStep (r : TCPReceiver) : RecvOp → TCPReceiver
  | .segment seg => r.segmentReceived seg
  | .read len => r.readOut len

/-- The sequence number of the first SYN segment. -/
def firstSyn : List RecvOp → Option WrappingInt32
  | [] => none
  | .segment seg :: ops => if seg.header.syn then some seg.header.seqno else firstSyn ops
  | .read _ :: ops => firstSyn ops

/-- The acknowledgment is empty before the first SYN; then it counts the SYN, the bytes written
to the output, and the FIN once the output has ended. -/
def AcksWritten (ops : List RecvOp) (r : TCPReceiver) : Prop :=
  r.ackno = (firstSyn ops).map fun isn =>
    wrap (1 + r.streamOut.bytesWritten + if r.streamOut.inputEnded then 1 else 0) isn

instance (ops : List RecvOp) (r : TCPReceiver) : Decidable (AcksWritten ops r) :=
  inferInstanceAs (Decidable (_ = _))

/-! ### The segments that break it -/

/-- A FIN has been seen and the bytes held close up, but not right before the recorded FIN. -/
def EndsElsewhere (r : TCPReceiver) (seg : TCPSegment) : Prop :=
  (seg.header.fin = true ∨ r.reassembler.ifEof = true) ∧
    ∃ n, r.reassembler.Gapless seg.payload ((r.noteFlags seg).streamIndex seg) n ∧
      u64 (n + 1) ≠ (r.noteFlags seg).absSeqnoFin

/-- The bytes held reach the recorded FIN, but the reassembler knows of no FIN or holds bytes
elsewhere. -/
def CountsFinEarly (r : TCPReceiver) (seg : TCPSegment) : Prop :=
  ∃ n, r.reassembler.RunTo seg.payload ((r.noteFlags seg).streamIndex seg) n ∧
    u64 (n + 1) = (r.noteFlags seg).absSeqnoFin ∧
    ¬ ((seg.header.fin = true ∨ r.reassembler.ifEof = true) ∧
      r.reassembler.Gapless seg.payload ((r.noteFlags seg).streamIndex seg) n)

/-- The segment fills the index at which the stream has ended. -/
def Extends (r : TCPReceiver) (seg : TCPSegment) : Prop :=
  0 < r.reassembler.remainingCapacity ∧
    r.reassembler.Holds seg.payload ((r.noteFlags seg).streamIndex seg) r.reassembler.nextIndex

instance (r : TCPReceiver) (seg : TCPSegment) : Decidable (r.Extends seg) :=
  inferInstanceAs (Decidable (_ ∧ _))

/-- The segment breaks none of the above. -/
def SegmentOk (r : TCPReceiver) : RecvOp → Prop
  | .segment seg => r.Pushes seg →
      if r.streamOut.inputEnded then ¬ r.Extends seg
      else ¬ r.reassembler.Overlong seg.payload ((r.noteFlags seg).streamIndex seg) ∧
        ¬ r.EndsElsewhere seg ∧ ¬ r.CountsFinEarly seg
  | .read _ => True

/-! ### The invariant -/

/-- The receiver after the operations `ops`, none of which broke the acknowledgment. -/
structure AckInv (ops : List RecvOp) (r : TCPReceiver) : Prop where
  wf : r.reassembler.WF
  syn : firstSyn ops = if r.ifSynSet then some r.isn else none
  written : r.reassembler.output.numWritten = r.reassembler.nextIndex
  ended_eof : r.reassembler.output.inputEnded = true → r.reassembler.ifEof = true
  eof_fin : r.reassembler.ifEof = true → r.ifSynSet = true ∧ r.ifFinSet = true
  fin : r.ifSynSet = true →
    (u64 (r.reassembler.nextIndex + 1) = r.absSeqnoFin ↔ r.reassembler.output.inputEnded = true)

theorem firstSyn_append (ops : List RecvOp) (op : RecvOp) :
    firstSyn (ops ++ [op]) = (firstSyn ops).or (firstSyn [op]) := by
  induction ops with
  | nil => simp [firstSyn]
  | cons o ops ih =>
    cases o with
    | segment seg =>
      by_cases hs : seg.header.syn <;> simp [firstSyn, hs, ih]
    | read len => simpa [firstSyn] using ih

/-- Flags and ISN keep step with the history. -/
theorem AckInv.syn_step {ops : List RecvOp} {r : TCPReceiver} (h : AckInv ops r)
    (seg : TCPSegment) : firstSyn (ops ++ [.segment seg]) =
      if (r.noteFlags seg).ifSynSet then some (r.noteFlags seg).isn else none := by
  rw [firstSyn_append, h.syn, noteFlags_ifSynSet, noteFlags_isn]
  cases hset : r.ifSynSet <;> cases hsyn : seg.header.syn <;> simp [firstSyn, hsyn]

theorem acksWritten_of_inv {ops : List RecvOp} {r : TCPReceiver} (h : AckInv ops r) :
    AcksWritten ops r := by
  rw [AcksWritten, ackno, h.syn]
  cases hset : r.ifSynSet with
  | false => rfl
  | true =>
    have hfin := h.fin hset
    show some _ = some _
    rw [wrap_u64, streamOut, ByteStream.bytesWritten, h.written]
    congr 1
    rw [wrap_eq_iff]
    unfold u64 at hfin ⊢
    cases hend : r.reassembler.output.inputEnded with
    | true =>
      rw [hend] at hfin
      rw [if_pos (hfin.mpr rfl), if_pos rfl]
      omega
    | false =>
      rw [hend] at hfin
      rw [if_neg fun h => absurd (hfin.mp h) (by simp), if_neg (by simp)]
      omega

/-- A segment that is not handed to the reassembler changes nothing that is acknowledged. -/
theorem AckInv.skip {ops : List RecvOp} {r : TCPReceiver} (h : AckInv ops r) {seg : TCPSegment}
    (hno : ¬ r.Pushes seg) : AckInv (ops ++ [.segment seg]) (r.segmentReceived seg) := by
  rw [segmentReceived_of_not_pushes hno]
  refine ⟨by simpa using h.wf, h.syn_step seg, by simpa using h.written,
    by simpa using h.ended_eof, ?_, ?_⟩
  · intro heof
    rw [noteFlags_reassembler] at heof
    simp [h.eof_fin heof]
  · intro hset
    have hlen : seg.lengthInSequenceSpace = 0 := by
      by_contra hlen
      exact hno ⟨hlen, by simpa using hset⟩
    obtain ⟨-, hsyn, hfin⟩ := TCPSegment.lengthInSequenceSpace_eq_zero_iff.mp hlen
    rw [noteFlags_ifSynSet, hsyn, Bool.or_false] at hset
    rw [noteFlags_absSeqnoFin, noteFlags_reassembler, if_neg (by simp [hfin])]
    exact h.fin hset

section Push

variable {ops : List RecvOp} {r : TCPReceiver} {seg : TCPSegment} {w : List UInt8}

/-- Once an eof has been handed to the reassembler, SYN and FIN are on record. -/
theorem AckInv.eof_fin_step (h : AckInv ops r) (hpush : r.Pushes seg)
    (hseen : (seg.header.fin || r.reassembler.ifEof) = true) :
    (r.noteFlags seg).ifSynSet = true ∧ (r.noteFlags seg).ifFinSet = true := by
  refine ⟨by rw [noteFlags_ifSynSet, hpush.2], ?_⟩
  rw [noteFlags_ifFinSet]
  rcases Bool.or_eq_true_iff.mp hseen with hf | he
  · simp [hf]
  · simp [(h.eof_fin he).2]

/-- An output that has ended takes nothing, and no byte is there to be assembled. -/
theorem AckInv.push_ended (h : AckInv ops r) (hpush : r.Pushes seg)
    (hok : r.SegmentOk (.segment seg)) (hend : r.reassembler.output.inputEnded = true)
    (hp : StreamReassembler.Pushed r.reassembler seg.payload ((r.noteFlags seg).streamIndex seg)
      seg.header.fin w (r.reassembler.pushSubstring seg.payload
        ((r.noteFlags seg).streamIndex seg) seg.header.fin)) :
    AckInv (ops ++ [.segment seg]) (r.segmentReceived seg) := by
  have hok := hok hpush
  rw [streamOut, hend, if_pos rfl] at hok
  have hnil : w = [] := by
    by_contra hne
    have hpos : 0 < w.length := List.length_pos_iff.mpr hne
    have hfits := hp.fits
    refine hok ⟨?_, hp.holds_of_lt (le_refl _) (by omega)⟩
    rw [StreamReassembler.remainingCapacity_eq h.wf]
    omega
  subst hnil
  have hfin : (r.noteFlags seg).absSeqnoFin = r.absSeqnoFin := by
    rw [noteFlags_absSeqnoFin, if_neg (by simp [(h.eof_fin (h.ended_eof hend)).2])]
  have hnext := hp.nextIndex
  rw [List.length_nil, Nat.add_zero, u64_of_lt h.wf.next] at hnext
  rw [segmentReceived_of_pushes hpush]
  refine ⟨h.wf.pushSubstring _ _ _, h.syn_step seg, ?_, ?_, ?_, ?_⟩
  · rw [hp.output_numWritten, ByteStream.write_numWritten (by rw [h.written]; exact h.wf.next),
      ByteStream.accepted_of_ended hend, hnext, h.written, List.length_nil, Nat.add_zero,
      u64_of_lt h.wf.next]
  · intro _
    rw [hp.ifEof, h.ended_eof hend, Bool.or_true]
  · intro hseen
    exact h.eof_fin_step hpush (by rwa [hp.ifEof] at hseen)
  · intro _
    simp only [hnext, hfin]
    have hiff := h.fin (h.eof_fin (h.ended_eof hend)).1
    rw [hend] at hiff
    exact iff_of_true (hiff.mpr rfl) (hp.inputEnded_iff.mpr (Or.inl hend))

/-- While the output is open, the run that is assembled reaches the recorded FIN exactly when it
ends the output. -/
theorem AckInv.push_open (h : AckInv ops r) (hpush : r.Pushes seg)
    (hok : r.SegmentOk (.segment seg)) (hopen : r.reassembler.output.inputEnded = false)
    (hp : StreamReassembler.Pushed r.reassembler seg.payload ((r.noteFlags seg).streamIndex seg)
      seg.header.fin w (r.reassembler.pushSubstring seg.payload
        ((r.noteFlags seg).streamIndex seg) seg.header.fin)) :
    AckInv (ops ++ [.segment seg]) (r.segmentReceived seg) := by
  have hok := hok hpush
  rw [streamOut, hopen, if_neg (by simp)] at hok
  obtain ⟨hshort, helse, hcount⟩ := hok
  have hnext : u64 ((r.reassembler.pushSubstring seg.payload
      ((r.noteFlags seg).streamIndex seg) seg.header.fin).nextIndex + 1) =
      u64 (r.reassembler.nextIndex + w.length + 1) := by
    rw [hp.nextIndex, u64_add]
  rw [segmentReceived_of_pushes hpush]
  refine ⟨h.wf.pushSubstring _ _ _, h.syn_step seg, ?_, ?_, ?_, ?_⟩
  · rw [hp.output_numWritten, ByteStream.write_numWritten (by rw [h.written]; exact h.wf.next),
      hp.accepted_eq h.wf hshort hopen, h.written, hp.nextIndex]
  · intro hended
    rcases hp.inputEnded_iff.mp hended with hold | ⟨hseen, _⟩
    · rw [hopen] at hold
      cases hold
    · rw [hp.ifEof]
      exact Bool.or_eq_true_iff.mpr hseen
  · intro hseen
    exact h.eof_fin_step hpush (by rwa [hp.ifEof] at hseen)
  · intro _
    simp only [hnext, hp.inputEnded_iff, hopen]
    constructor
    · intro hfin
      by_contra hgap
      refine hcount ⟨_, (hp.runTo_iff h.wf).mpr rfl, hfin, fun hg => ?_⟩
      exact hgap (Or.inr ⟨hg.1, ((hp.gapless_iff h.wf).mp hg.2).2⟩)
    · intro hor
      rcases hor with hold | ⟨hseen, hleft⟩
      · cases hold
      · by_contra hfin
        exact helse ⟨hseen, _, (hp.gapless_iff h.wf).mpr ⟨rfl, hleft⟩, hfin⟩

/-- **One segment.**  Unless it is one of those above, it keeps the invariant. -/
theorem AckInv.push (h : AckInv ops r) (hpush : r.Pushes seg)
    (hok : r.SegmentOk (.segment seg)) :
    AckInv (ops ++ [.segment seg]) (r.segmentReceived seg) := by
  obtain ⟨w, hp⟩ := StreamReassembler.pushSubstring_spec h.wf seg.payload
    ((r.noteFlags seg).streamIndex seg) seg.header.fin
  cases hend : r.reassembler.output.inputEnded with
  | true => exact h.push_ended hpush hok hend hp
  | false => exact h.push_open hpush hok hend hp

end Push

theorem AckInv.new {capacity : ℕ} (h : capacity < 2 ^ 64) : AckInv [] (new capacity) :=
  ⟨StreamReassembler.new_WF h, rfl, rfl, (by intro h; cases h), (by intro h; cases h),
    (by intro h; cases h)⟩

theorem AckInv.step {ops : List RecvOp} {r : TCPReceiver} (h : AckInv ops r) {op : RecvOp}
    (hok : r.SegmentOk op) : AckInv (ops ++ [op]) (recvStep r op) := by
  cases op with
  | segment seg =>
    by_cases hpush : r.Pushes seg
    · exact h.push hpush hok
    · exact h.skip hpush
  | read len =>
    refine ⟨h.wf.readOut len, ?_, h.written, h.ended_eof, h.eof_fin, h.fin⟩
    rw [firstSyn_append, h.syn, firstSyn, firstSyn, Option.or_none]
    rfl

/-- **Acknowledgment soundness.**  Along every sequence of segments, in any order, and reads:
if no segment is one of those above, then after every step the acknowledgment is empty exactly
before the first SYN, and from then on counts the SYN, the bytes written to the output and, once
the output has ended, the FIN. -/
theorem acksWritten_of_segmentOk (capacity : ℕ) (hcap : capacity < 2 ^ 64) (ops : List RecvOp)
    (hok : Along recvStep SegmentOk (new capacity) ops) :
    AcksWritten ops (run recvStep (new capacity) ops) :=
  acksWritten_of_inv
    (run_history (I := AckInv) (AckInv.new hcap) (fun _ _ _ h he => h.step he) ops hok)

/-- A SYN, then the second of two bytes with the FIN, then the first byte. -/
def swappedRun : List RecvOp :=
  [.segment { header := { syn := true } },
    .segment { header := { seqno := ⟨2⟩, fin := true }, payload := [98] }, .read 1,
    .segment { header := { seqno := ⟨1⟩ }, payload := [97] }]

theorem acksWritten_of_segmentOk_swapped :
    AcksWritten swappedRun (run recvStep (new 8) swappedRun) := by
  refine acksWritten_of_segmentOk 8 (by decide) swappedRun ⟨?_, ?_, trivial, ?_, trivial⟩
  · -- the SYN: no FIN is known yet
    refine fun _ => ⟨fun h => absurd h.1 (by decide), fun h => absurd h.1 (by decide), ?_⟩
    intro hall
    obtain ⟨n, ⟨_, hle, _, _⟩, hfin, _⟩ := hall
    have hle : n ≤ 8 := hle
    have hfin : u64 (n + 1) = 0 := hfin
    rw [u64_of_lt (by omega)] at hfin
    omega
  · -- the second byte with the FIN: the first byte is missing
    refine fun _ => ⟨fun h => absurd h.1 (by decide), ?_, ?_⟩
    · intro hall
      obtain ⟨_, n, ⟨_, _, hrun⟩, _⟩ := hall
      have h1 := ((hrun 1).mp (by decide)).2
      exact absurd ((hrun 0).mpr ⟨le_refl _, by omega⟩) (by decide)
    · intro hall
      obtain ⟨n, ⟨_, _, hrun, _⟩, hfin, _⟩ := hall
      have hzero : n = 0 := by
        by_contra hne
        exact absurd (hrun 0 (le_refl _) (by omega)) (by decide)
      subst hzero
      exact absurd hfin (by decide)
  · -- the first byte: the two bytes close up right before the FIN
    refine fun _ => ⟨fun h => absurd h.1 (by decide), ?_, ?_⟩
    · intro hall
      obtain ⟨_, n, ⟨_, _, hrun⟩, hfin⟩ := hall
      have h1 := ((hrun 1).mp (by decide)).2
      have h2 : n = 2 := by
        by_contra hne
        exact absurd ((hrun 2).mpr ⟨by decide, by omega⟩) (by decide)
      subst h2
      exact hfin (by decide)
    · intro hall
      obtain ⟨n, ⟨_, hle, hrun, hstop⟩, hfin, hno⟩ := hall
      have hle : n ≤ 8 := hle
      have hfin : u64 (n + 1) = 3 := hfin
      rw [u64_of_lt (by omega)] at hfin
      obtain rfl : n = 2 := by omega
      refine hno ⟨by decide, by decide, by decide, fun k => ?_⟩
      rw [← StreamReassembler.mem_keys_intake]
      show k ∈ [0, 1] ↔ 0 ≤ k ∧ k < 2
      simp
      omega

/-- A SYN, then the FIN of a two-byte stream before its bytes. -/
def earlyFinRun : List RecvOp :=
  [.segment { header := { syn := true } }, .segment { header := { seqno := ⟨3⟩, fin := true } }]

/-- The FIN that overtakes the data ends the output, but is not acknowledged. -/
theorem acksWritten_fails_on_early_fin :
    ¬ AcksWritten earlyFinRun (run recvStep (new 8) earlyFinRun) := by
  decide

end TCPReceiver

end Sponge
