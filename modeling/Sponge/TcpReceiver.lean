import Sponge.Reassembly
import Sponge.TcpSegment

/-!
# The TCP receiver

The receiver unwraps the sequence number of each segment against the previous one, hands the
payload to the reassembler, and acknowledges `nextIndex + 1`, one more at the recorded
position of the FIN.
-/

namespace Sponge

open MachineInt Run

structure TCPReceiver where
  reassembler : StreamReassembler
  capacity : ℕ
  isn : WrappingInt32
  ifSynSet : Bool
  ifFinSet : Bool
  synFlag : Bool
  finFlag : Bool
  absCheckpoint : ℕ
  absSeqnoFin : ℕ
deriving DecidableEq

namespace TCPReceiver

def new (capacity : ℕ) : TCPReceiver :=
  { reassembler := StreamReassembler.new capacity, capacity := capacity, isn := ⟨0⟩
    ifSynSet := false, ifFinSet := false, synFlag := false, finFlag := false
    absCheckpoint := 0, absSeqnoFin := 0 }

def streamOut (r : TCPReceiver) : ByteStream := r.reassembler.output

def unassembledBytes (r : TCPReceiver) : ℕ := r.reassembler.unassembledBytes

/-- The flags that `segment_received` copies from the header. -/
def readFlags (r : TCPReceiver) (seg : TCPSegment) : TCPReceiver :=
  { r with synFlag := seg.header.syn, finFlag := seg.header.fin }

/-- `segment_received`, first part: the flags, and the ISN at the first SYN. -/
def noteSyn (r : TCPReceiver) (seg : TCPSegment) : TCPReceiver :=
  if r.ifSynSet = false ∧ (r.readFlags seg).synFlag = true then
    { r.readFlags seg with isn := seg.header.seqno, ifSynSet := true }
  else r.readFlags seg

/-- `segment_received`, second part: the position of the first FIN.  It is recorded whether or
not a SYN has been seen. -/
def noteFin (r : TCPReceiver) (seg : TCPSegment) : TCPReceiver :=
  if r.ifFinSet = false ∧ r.finFlag = true then
    { r with
      absSeqnoFin :=
        unwrap ((seg.header.seqno.add seg.lengthInSequenceSpace).sub 1) r.isn r.absCheckpoint
      ifFinSet := true }
  else r

/-- What `segment_received` does before it looks at the payload. -/
def noteFlags (r : TCPReceiver) (seg : TCPSegment) : TCPReceiver := (r.noteSyn seg).noteFin seg

/-- The stream index of the first payload byte. -/
def streamIndex (r : TCPReceiver) (seg : TCPSegment) : ℕ :=
  let absSeqno := unwrap seg.header.seqno r.isn r.absCheckpoint
  if !seg.header.syn then sub64 absSeqno 1 else absSeqno

def segmentReceived (r : TCPReceiver) (seg : TCPSegment) : TCPReceiver :=
  let r := r.noteFlags seg
  if seg.lengthInSequenceSpace = 0 ∨ r.ifSynSet = false then r
  else
    { r with
      reassembler := r.reassembler.pushSubstring seg.payload (r.streamIndex seg) r.finFlag
      absCheckpoint := unwrap seg.header.seqno r.isn r.absCheckpoint }

def ackno (r : TCPReceiver) : Option WrappingInt32 :=
  if !r.ifSynSet then none
  else
    let ackno := u64 (r.reassembler.nextIndex + 1)
    let ackno := u64 (ackno + if ackno = r.absSeqnoFin then 1 else 0)
    some (wrap ackno r.isn)

def windowSize (r : TCPReceiver) : ℕ := sub64 r.capacity r.reassembler.output.bufferSize

/-- A read of the application from `stream_out()`. -/
def readOut (r : TCPReceiver) (len : ℕ) : TCPReceiver :=
  { r with reassembler := r.reassembler.readOut len }

/-! ### What one segment does -/

theorem noteSyn_eq (r : TCPReceiver) (seg : TCPSegment) :
    r.noteSyn seg =
      { r with
        isn := if r.ifSynSet = false ∧ seg.header.syn = true then seg.header.seqno else r.isn
        ifSynSet := r.ifSynSet || seg.header.syn
        synFlag := seg.header.syn
        finFlag := seg.header.fin } := by
  rw [noteSyn, readFlags]
  cases hset : r.ifSynSet <;> cases hsyn : seg.header.syn <;> simp

theorem noteFin_eq (r : TCPReceiver) (seg : TCPSegment) :
    r.noteFin seg =
      { r with
        ifFinSet := r.ifFinSet || r.finFlag
        absSeqnoFin :=
          if r.ifFinSet = false ∧ r.finFlag = true then
            unwrap ((seg.header.seqno.add seg.lengthInSequenceSpace).sub 1) r.isn r.absCheckpoint
          else r.absSeqnoFin } := by
  rw [noteFin]
  by_cases hfirst : r.ifFinSet = false ∧ r.finFlag = true
  · rw [if_pos hfirst, if_pos hfirst, hfirst.2, Bool.or_true]
  · have hset : (r.ifFinSet || r.finFlag) = r.ifFinSet := by
      cases hset : r.ifFinSet with
      | true => rfl
      | false => exact Bool.eq_false_of_not_eq_true fun hfin => hfirst ⟨hset, hfin⟩
    rw [if_neg hfirst, if_neg hfirst, hset]

section

variable (r : TCPReceiver) (seg : TCPSegment)

@[simp] theorem noteFlags_reassembler : (r.noteFlags seg).reassembler = r.reassembler := by
  rw [noteFlags, noteFin_eq, noteSyn_eq]

@[simp] theorem noteFlags_capacity : (r.noteFlags seg).capacity = r.capacity := by
  rw [noteFlags, noteFin_eq, noteSyn_eq]

@[simp] theorem noteFlags_finFlag : (r.noteFlags seg).finFlag = seg.header.fin := by
  rw [noteFlags, noteFin_eq, noteSyn_eq]

@[simp] theorem noteFlags_absCheckpoint :
    (r.noteFlags seg).absCheckpoint = r.absCheckpoint := by
  rw [noteFlags, noteFin_eq, noteSyn_eq]

theorem noteFlags_isn : (r.noteFlags seg).isn =
    if r.ifSynSet = false ∧ seg.header.syn = true then seg.header.seqno else r.isn := by
  rw [noteFlags, noteFin_eq, noteSyn_eq]

@[simp] theorem noteFlags_ifSynSet :
    (r.noteFlags seg).ifSynSet = (r.ifSynSet || seg.header.syn) := by
  rw [noteFlags, noteFin_eq, noteSyn_eq]

@[simp] theorem noteFlags_ifFinSet :
    (r.noteFlags seg).ifFinSet = (r.ifFinSet || seg.header.fin) := by
  rw [noteFlags, noteFin_eq, noteSyn_eq]

/-- The recorded position of the FIN, with this segment's FIN counted. -/
theorem noteFlags_absSeqnoFin :
    (r.noteFlags seg).absSeqnoFin =
      if r.ifFinSet = false ∧ seg.header.fin = true then
        unwrap ((seg.header.seqno.add seg.lengthInSequenceSpace).sub 1) (r.noteFlags seg).isn
          r.absCheckpoint
      else r.absSeqnoFin := by
  rw [noteFlags_isn, noteFlags, noteFin_eq, noteSyn_eq]

end

/-- The segment is handed to the reassembler. -/
def Pushes (r : TCPReceiver) (seg : TCPSegment) : Prop :=
  seg.lengthInSequenceSpace ≠ 0 ∧ (r.ifSynSet || seg.header.syn) = true

instance (r : TCPReceiver) (seg : TCPSegment) : Decidable (r.Pushes seg) :=
  inferInstanceAs (Decidable (_ ∧ _))

theorem segmentReceived_of_pushes {r : TCPReceiver} {seg : TCPSegment} (h : r.Pushes seg) :
    r.segmentReceived seg =
      { r.noteFlags seg with
        reassembler := r.reassembler.pushSubstring seg.payload ((r.noteFlags seg).streamIndex seg)
          seg.header.fin
        absCheckpoint := unwrap seg.header.seqno (r.noteFlags seg).isn r.absCheckpoint } := by
  have hno : ¬ (seg.lengthInSequenceSpace = 0 ∨ (r.noteFlags seg).ifSynSet = false) := by
    rw [noteFlags_ifSynSet, h.2]
    simp [h.1]
  unfold segmentReceived
  simp only [if_neg hno, noteFlags_reassembler, noteFlags_finFlag, noteFlags_absCheckpoint]

theorem segmentReceived_of_not_pushes {r : TCPReceiver} {seg : TCPSegment} (h : ¬ r.Pushes seg) :
    r.segmentReceived seg = r.noteFlags seg := by
  have hyes : seg.lengthInSequenceSpace = 0 ∨ (r.noteFlags seg).ifSynSet = false := by
    by_contra hno
    rw [noteFlags_ifSynSet] at hno
    exact h ⟨fun h0 => hno (Or.inl h0),
      Bool.eq_true_of_not_eq_false fun h0 => hno (Or.inr h0)⟩
  unfold segmentReceived
  simp only [if_pos hyes]

/-- A SYN is always handed to the reassembler. -/
theorem syn_of_not_pushes {r : TCPReceiver} {seg : TCPSegment} (h : ¬ r.Pushes seg) :
    seg.header.syn = false := by
  by_contra hne
  have hsyn : seg.header.syn = true := by simpa using hne
  refine h ⟨?_, by simp [hsyn]⟩
  simp [TCPSegment.lengthInSequenceSpace, hsyn]

/-! What is not the payload is settled by `noteFlags`. -/

section

variable (r : TCPReceiver) (seg : TCPSegment)

theorem segmentReceived_frame : ∃ reassembler absCheckpoint,
    r.segmentReceived seg = { r.noteFlags seg with reassembler, absCheckpoint } := by
  by_cases hpush : r.Pushes seg
  · exact ⟨_, _, segmentReceived_of_pushes hpush⟩
  · exact ⟨_, _, segmentReceived_of_not_pushes hpush⟩

@[simp] theorem segmentReceived_capacity : (r.segmentReceived seg).capacity = r.capacity := by
  obtain ⟨_, _, h⟩ := r.segmentReceived_frame seg
  rw [h, noteFlags_capacity]

@[simp] theorem segmentReceived_isn : (r.segmentReceived seg).isn = (r.noteFlags seg).isn := by
  obtain ⟨_, _, h⟩ := r.segmentReceived_frame seg
  rw [h]

@[simp] theorem segmentReceived_ifSynSet :
    (r.segmentReceived seg).ifSynSet = (r.ifSynSet || seg.header.syn) := by
  obtain ⟨_, _, h⟩ := r.segmentReceived_frame seg
  rw [h, noteFlags_ifSynSet]

@[simp] theorem segmentReceived_ifFinSet :
    (r.segmentReceived seg).ifFinSet = (r.ifFinSet || seg.header.fin) := by
  obtain ⟨_, _, h⟩ := r.segmentReceived_frame seg
  rw [h, noteFlags_ifFinSet]

@[simp] theorem segmentReceived_absSeqnoFin :
    (r.segmentReceived seg).absSeqnoFin = (r.noteFlags seg).absSeqnoFin := by
  obtain ⟨_, _, h⟩ := r.segmentReceived_frame seg
  rw [h]

end

end TCPReceiver

end Sponge
