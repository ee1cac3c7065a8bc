import Sponge.ReceiverAck

/-!
# Segments that arrive before the SYN

`segment_received` drops a segment that comes before the SYN, but it has then already recorded
the position of a FIN, counted from an ISN that is not known yet.  The record stays: the FIN of
the real stream is not recorded any more, and the position of the stray one is acknowledged
twice.  What arrived before the SYN is without effect on everything that follows exactly when it
held no FIN.
-/

namespace Sponge

open MachineInt Run

namespace TCPReceiver

/-- What the owner of a receiver sees of it. -/
structure ReceiverView where
  ackno : Option WrappingInt32
  windowSize : ℕ
  unassembledBytes : ℕ
  contents : List UInt8
  inputEnded : Bool
deriving DecidableEq

def view (r : TCPReceiver) : ReceiverView :=
  { ackno := r.ackno, windowSize := r.windowSize, unassembledBytes := r.unassembledBytes
    contents := r.streamOut.buffer, inputEnded := r.streamOut.inputEnded }

def carriesSyn : RecvOp → Bool
  | .segment seg => seg.header.syn
  | .read _ => false

def carriesFin : RecvOp → Bool
  | .segment seg => seg.header.fin
  | .read _ => false

/-- Whatever sequence beginning with a SYN follows `early`, the receiver looks the same as if
`early` had never happened. -/
def Ignored (capacity : ℕ) (early : List RecvOp) : Prop :=
  ∀ (syn : TCPSegment) (ops : List RecvOp), syn.header.syn = true →
    (run recvStep (new capacity) (early ++ .segment syn :: ops)).view =
      (run recvStep (new capacity) (.segment syn :: ops)).view

/-! ### The receiver before the SYN -/

/-- Before the first SYN nothing but the record of a FIN can differ from a new receiver. -/
structure Listens (capacity : ℕ) (early : List RecvOp) (r : TCPReceiver) : Prop where
  reassembler : r.reassembler = StreamReassembler.new capacity
  syn : r.ifSynSet = false
  checkpoint : r.absCheckpoint = 0
  fin : r.ifFinSet = early.any carriesFin
  untouched : early.any carriesFin = false → r = new capacity

variable {capacity : ℕ} {early : List RecvOp} {r : TCPReceiver}

theorem Listens.new (capacity : ℕ) : Listens capacity [] (new capacity) :=
  ⟨rfl, rfl, rfl, rfl, fun _ => rfl⟩

/-- A segment with neither SYN nor FIN leaves a new receiver as it is. -/
theorem noteFlags_new (capacity : ℕ) {seg : TCPSegment} (hsyn : seg.header.syn = false)
    (hfin : seg.header.fin = false) : (TCPReceiver.new capacity).noteFlags seg = .new capacity := by
  simp [noteFlags, noteSyn, noteFin, readFlags, TCPReceiver.new, hsyn, hfin]

/-- There is nothing to read from a new receiver. -/
theorem readOut_new (capacity len : ℕ) :
    (TCPReceiver.new capacity).readOut len = TCPReceiver.new capacity := by
  simp [TCPReceiver.readOut, TCPReceiver.new, StreamReassembler.readOut, StreamReassembler.new,
    ByteStream.new, ByteStream.popOutput, ByteStream.bufferSize, intCount, int32, u64]

theorem Listens.step (h : Listens capacity early r) {op : RecvOp}
    (hop : carriesSyn op = false) : Listens capacity (early ++ [op]) (recvStep r op) := by
  cases op with
  | segment seg =>
    have hsyn : seg.header.syn = false := hop
    have hno : ¬ r.Pushes seg := by
      intro hpush
      have hset := hpush.2
      rw [h.syn, hsyn] at hset
      cases hset
    have hany : (early ++ [RecvOp.segment seg]).any carriesFin =
        (early.any carriesFin || seg.header.fin) := by
      rw [List.any_append, List.any_cons, List.any_nil, Bool.or_false]
      rfl
    show Listens capacity _ (r.segmentReceived seg)
    rw [segmentReceived_of_not_pushes hno]
    refine ⟨by rw [noteFlags_reassembler, h.reassembler], ?_, ?_, ?_, ?_⟩
    · rw [noteFlags_ifSynSet, h.syn, hsyn]
      rfl
    · rw [noteFlags_absCheckpoint, h.checkpoint]
    · rw [noteFlags_ifFinSet, h.fin, hany]
    · intro hnone
      rw [hany, Bool.or_eq_false_iff] at hnone
      rw [h.untouched hnone.1]
      exact noteFlags_new capacity hsyn hnone.2
  | read len =>
    have hany : (early ++ [RecvOp.read len]).any carriesFin = early.any carriesFin := by
      rw [List.any_append, List.any_cons, List.any_nil, Bool.or_false]
      exact Bool.or_false _
    have hread : r.readOut len = r := by
      have hout := congrArg TCPReceiver.reassembler (readOut_new capacity len)
      show { r with reassembler := r.reassembler.readOut len } = r
      rw [h.reassembler, show (StreamReassembler.new capacity).readOut len =
        StreamReassembler.new capacity from hout, ← h.reassembler]
    show Listens capacity _ (r.readOut len)
    rw [hread]
    exact ⟨h.reassembler, h.syn, h.checkpoint, by rw [hany, h.fin], by rw [hany]; exact h.untouched⟩

theorem Listens.of_run (capacity : ℕ) (early : List RecvOp)
    (hearly : ∀ op ∈ early, carriesSyn op = false) :
    Listens capacity early (run recvStep (TCPReceiver.new capacity) early) :=
  run_history (I := Listens capacity) (Listens.new capacity) (fun _ _ _ h hop => h.step hop)
    early (along_of_events (p := fun op => carriesSyn op = false) hearly _)

/-! ### The first SYN -/

/-- A SYN from sequence number zero without a payload, with or without a FIN. -/
def bareSyn (fin : Bool) : TCPSegment := { header := { syn := true, fin := fin } }

/-- An empty push to an empty reassembler leaves `next_index` where it is. -/
theorem pushSubstring_nil_nextIndex {s : StreamReassembler} (h : s.unassembled.entries = [])
    (index : ℕ) (eof : Bool) : (s.pushSubstring [] index eof).nextIndex = s.nextIndex := by
  have hstored : (s.stored [] index).1.entries = [] := by
    rw [StreamReassembler.stored, StreamReassembler.slice_nil]
    exact h
  simp only [StreamReassembler.pushSubstring, StreamReassembler.assembly,
    StreamReassembler.assemble, hstored, List.foldl_nil]

/-- The acknowledgment of a bare SYN counts the FIN if it is recorded at position one. -/
theorem Listens.ackno_bareSyn (h : Listens capacity early r) (fin : Bool) :
    (r.segmentReceived (bareSyn fin)).ackno =
      some (wrap (1 + if 1 = (r.noteFlags (bareSyn fin)).absSeqnoFin then 1 else 0) ⟨0⟩) := by
  have hpush : r.Pushes (bareSyn fin) := by
    refine ⟨?_, by simp [bareSyn]⟩
    simp [bareSyn, TCPSegment.lengthInSequenceSpace]
  have hisn : (r.noteFlags (bareSyn fin)).isn = ⟨0⟩ := by
    rw [noteFlags_isn, if_pos ⟨h.syn, rfl⟩]
    rfl
  have hindex : (r.noteFlags (bareSyn fin)).streamIndex (bareSyn fin) = 0 := by
    unfold streamIndex
    rw [hisn, noteFlags_absCheckpoint, h.checkpoint]
    exact (by decide : unwrap ⟨0⟩ ⟨0⟩ 0 = 0)
  have hnext : (r.reassembler.pushSubstring (bareSyn fin).payload 0
      (bareSyn fin).header.fin).nextIndex = 0 := by
    rw [h.reassembler]
    exact pushSubstring_nil_nextIndex (s := .new capacity) rfl 0 fin
  rw [segmentReceived_of_pushes hpush]
  unfold ackno
  simp only [hindex, hnext, hisn, noteFlags_ifSynSet, h.syn, wrap_u64]
  rw [show u64 (0 + 1) = 1 from by decide]
  simp only [bareSyn, Bool.or_true, Bool.not_true, Bool.false_eq_true, if_false]

/-- **Exactly a FIN before the SYN has an effect afterwards.**  For every receiver and every
sequence of segments without SYN, and reads: the sequence is without effect on all that follows
if and only if none of its segments carries a FIN. -/
theorem ignored_iff_no_fin (capacity : ℕ) (early : List RecvOp)
    (hearly : ∀ op ∈ early, carriesSyn op = false) :
    Ignored capacity early ↔ ∀ op ∈ early, carriesFin op = false := by
  have hlisten := Listens.of_run capacity early hearly
  constructor
  · intro hsame
    by_contra hfin
    have hset : (run recvStep (new capacity) early).ifFinSet = true := by
      rw [hlisten.fin, List.any_eq_true]
      simpa using hfin
    -- a bare SYN tells the record from none, a SYN with FIN from the real one
    have hackno : ∀ fin,
        ((run recvStep (new capacity) early).segmentReceived (bareSyn fin)).ackno =
          ((new capacity).segmentReceived (bareSyn fin)).ackno := by
      intro fin
      have hview := congrArg ReceiverView.ackno (hsame (bareSyn fin) [] rfl)
      rw [run_append] at hview
      exact hview
    have hrecord : ∀ fin, (1 = (run recvStep (new capacity) early).absSeqnoFin ↔ fin = true) := by
      intro fin
      have hboth := hackno fin
      have hkept : ((run recvStep (new capacity) early).noteFlags (bareSyn fin)).absSeqnoFin =
          (run recvStep (new capacity) early).absSeqnoFin := by
        rw [noteFlags_absSeqnoFin, if_neg (by simp [hset])]
      have hnew : ((new capacity).noteFlags (bareSyn fin)).absSeqnoFin = if fin then 1 else 0 := by
        rw [noteFlags_absSeqnoFin]
        cases fin with
        | true => exact (by decide : unwrap (((⟨0⟩ : WrappingInt32).add 2).sub 1) ⟨0⟩ 0 = 1)
        | false => rfl
      rw [hlisten.ackno_bareSyn, (Listens.new capacity).ackno_bareSyn, hkept, hnew,
        Option.some.injEq, wrap_eq_iff] at hboth
      cases fin with
      | true =>
        simp only [if_true] at hboth
        refine iff_of_true ?_ rfl
        by_contra hne
        rw [if_neg hne] at hboth
        omega
      | false =>
        refine iff_of_false (fun heq => ?_) (by simp)
        rw [if_pos heq] at hboth
        simp at hboth
    exact absurd ((hrecord true).mpr rfl) (fun heq => by simpa using (hrecord false).mp heq)
  · intro hnone syn ops _
    have hany : early.any carriesFin = false := by
      rw [List.any_eq_false]
      intro op hop
      simp [hnone op hop]
    rw [run_append, hlisten.untouched hany]

/-- A stray byte before the SYN. -/
theorem ignored_iff_no_fin_stray_byte :
    Ignored 8 [.segment { header := { seqno := ⟨7⟩ }, payload := [97] }, .read 1] :=
  (ignored_iff_no_fin 8 _ (by decide)).mpr (by decide)

/-- A FIN at sequence number one, then a SYN from zero: the acknowledgment number is two. -/
theorem ignored_fails_on_stray_fin :
    ¬ Ignored 8 [.segment { header := { seqno := ⟨1⟩, fin := true } }] := by
  intro h
  exact absurd (h (bareSyn false) [] rfl) (by decide)

end TCPReceiver

end Sponge
