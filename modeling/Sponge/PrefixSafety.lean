import Sponge.SenderRun
import Sponge.TcpReceiver

/-!
# From a sender to a receiver over a bad channel

The sender's segments travel through a channel that may lose, duplicate, delay and reorder
them: a delivery hands the receiver any segment emitted so far.  `StreamSlice` is what the
receiver needs to know of such a segment, and `RecvInv` is the receiver's side of the
correspondence: it works on the sender's stream, from the sender's ISN, with a checkpoint that is
near enough for `unwrap`.  Acknowledgments play no part, so they are arbitrary here.
-/

namespace Sponge

open MachineInt Run

/-- The segment carries the bytes of `accepted` from stream index `index` on. -/
structure StreamSlice (isn : WrappingInt32) (accepted : List UInt8) (seg : TCPSegment)
    (index : ℕ) : Prop where
  seqno : seg.header.seqno = wrap (if seg.header.syn then 0 else index + 1) isn
  syn : seg.header.syn = true → index = 0
  payload : seg.payload <+: accepted.drop index
  fits : index + seg.payload.length ≤ accepted.length

/-- A created segment is the slice behind the payloads created before it. -/
theorem Sent.slice {isn : WrappingInt32} {accepted : List UInt8} {pre post : List TCPSegment}
    {seg : TCPSegment} (h : Sent isn accepted (pre ++ seg :: post)) :
    StreamSlice isn accepted seg (payloads pre).length := by
  have hp := h pre seg post rfl
  obtain ⟨rest, hrest⟩ := hp.payload
  rw [List.append_assoc] at hrest
  refine ⟨?_, ?_, ?_, ?_⟩
  · rw [hp.seqno, hp.seqLen_pre h, hp.syn]
    cases pre with
    | nil => rfl
    | cons s pre => simp [Nat.add_comm]
  · intro hsyn
    rw [hp.syn, List.isEmpty_iff] at hsyn
    rw [hsyn]
    rfl
  · rw [← hrest, List.drop_left]
    exact List.prefix_append ..
  · have := hp.payload.length_le
    rwa [List.length_append] at this

namespace TCPReceiver

/-- The receiver works on the stream `accepted` of a sender with initial number `isn`, and has
written `written` to its output. -/
structure RecvInv (isn : WrappingInt32) (accepted written : List UInt8) (r : TCPReceiver) :
    Prop where
  content : r.reassembler.Content accepted written
  isn : r.ifSynSet = true → r.isn = isn
  checkpoint : r.absCheckpoint < 2 ^ 31

variable {isn : WrappingInt32} {accepted written : List UInt8} {r : TCPReceiver}
  {seg : TCPSegment} {index : ℕ}

theorem RecvInv.new {capacity : ℕ} (h : capacity < 2 ^ 64) (isn : WrappingInt32) :
    RecvInv isn [] [] (TCPReceiver.new capacity) :=
  ⟨StreamReassembler.Content.new h [], (by intro h; cases h), by simp [TCPReceiver.new]⟩

theorem RecvInv.mono (h : RecvInv isn accepted written r) {accepted' : List UInt8}
    (ha : accepted <+: accepted') : RecvInv isn accepted' written r :=
  { h with content := h.content.mono ha }

theorem RecvInv.readOut (h : RecvInv isn accepted written r) (len : ℕ) :
    RecvInv isn accepted written (r.readOut len) :=
  { h with content := h.content.readOut len }

/-- Once the segment is noted, the receiver counts from the sender's ISN. -/
theorem RecvInv.noteFlags_isn_eq (h : RecvInv isn accepted written r)
    (hs : StreamSlice isn accepted seg index) (hset : (r.ifSynSet || seg.header.syn) = true) :
    (r.noteFlags seg).isn = isn := by
  rw [noteFlags_isn]
  cases hr : r.ifSynSet with
  | true =>
    rw [if_neg (by simp)]
    exact h.isn hr
  | false =>
    rw [hr, Bool.false_or] at hset
    rw [if_pos ⟨rfl, hset⟩, hs.seqno, if_pos hset]
    apply eq_of_offset_eq isn
    rw [offset_wrap]
    unfold offset
    omega

/-- The sequence number of a slice is unwrapped to its position. -/
theorem RecvInv.unwrap_seqno (h : RecvInv isn accepted written r)
    (hs : StreamSlice isn accepted seg index) (hlen : accepted.length < 2 ^ 31 - 2) :
    unwrap seg.header.seqno isn r.absCheckpoint = if seg.header.syn then 0 else index + 1 := by
  have hck := h.checkpoint
  have hfits := hs.fits
  rw [hs.seqno]
  split
  · exact unwrap_wrap isn (by omega) (by omega) (by omega) (by omega)
  · exact unwrap_wrap isn (by omega) (by omega) (by omega) (by omega)

/-- The receiver finds the stream index of a slice. -/
theorem RecvInv.streamIndex_eq (h : RecvInv isn accepted written r)
    (hs : StreamSlice isn accepted seg index) (hlen : accepted.length < 2 ^ 31 - 2)
    (hset : (r.ifSynSet || seg.header.syn) = true) :
    (r.noteFlags seg).streamIndex seg = index := by
  have hfits := hs.fits
  unfold streamIndex
  rw [noteFlags_absCheckpoint, h.noteFlags_isn_eq hs hset, h.unwrap_seqno hs hlen]
  cases hsyn : seg.header.syn with
  | true => simp [hs.syn hsyn]
  | false =>
    simp only [Bool.not_false, if_true, Bool.false_eq_true, if_false]
    rw [sub64_of_le (by omega) (by omega)]
    omega

/-- **A slice that is delivered keeps the correspondence**, with the bytes it adds to the
output. -/
theorem RecvInv.push (h : RecvInv isn accepted written r)
    (hs : StreamSlice isn accepted seg index) (hlen : accepted.length < 2 ^ 31 - 2)
    (hpush : r.Pushes seg) :
    RecvInv isn accepted
      (written ++ ByteStream.appended r.streamOut (r.segmentReceived seg).streamOut)
      (r.segmentReceived seg) := by
  have hindex := h.streamIndex_eq hs hlen hpush.2
  have hisn := h.noteFlags_isn_eq hs hpush.2
  have hfits := hs.fits
  rw [segmentReceived_of_pushes hpush]
  refine ⟨?_, fun _ => hisn, ?_⟩
  · simp only [hindex]
    exact h.content.push (by omega) hs.payload (h.content.not_overlong (by omega) hs.payload) _
  · simp only [hisn, h.unwrap_seqno hs hlen]
    split <;> omega

/-- A segment that is not handed to the reassembler writes nothing. -/
theorem RecvInv.skip (h : RecvInv isn accepted written r) (hno : ¬ r.Pushes seg) :
    RecvInv isn accepted
      (written ++ ByteStream.appended r.streamOut (r.segmentReceived seg).streamOut)
      (r.segmentReceived seg) := by
  have hsyn := syn_of_not_pushes hno
  rw [segmentReceived_of_not_pushes hno]
  have hout : (r.noteFlags seg).streamOut = r.streamOut := by simp [streamOut]
  refine ⟨?_, ?_, by simpa using h.checkpoint⟩
  · rw [hout, ByteStream.appended, List.drop_length, List.append_nil, noteFlags_reassembler]
    exact h.content
  · rw [noteFlags_ifSynSet, noteFlags_isn, hsyn, if_neg (by simp), Bool.or_false]
    exact h.isn

/-- The position recorded for a FIN is the one behind the last byte. -/
theorem RecvInv.absSeqnoFin_eq (h : RecvInv isn accepted written r)
    (hs : StreamSlice isn accepted seg index) (hlen : accepted.length < 2 ^ 31 - 2)
    (hset : (r.ifSynSet || seg.header.syn) = true) (hfin : seg.header.fin = true)
    (hclose : index + seg.payload.length = accepted.length) (hunseen : r.ifFinSet = false) :
    (r.noteFlags seg).absSeqnoFin = accepted.length + 1 := by
  have hck := h.checkpoint
  rw [noteFlags_absSeqnoFin, if_pos ⟨hunseen, hfin⟩, h.noteFlags_isn_eq hs hset, hs.seqno,
    wrap_add_sub_one]
  · have hpos : (if seg.header.syn then 0 else index + 1) + seg.lengthInSequenceSpace - 1 =
        accepted.length + 1 := by
      unfold TCPSegment.lengthInSequenceSpace
      rw [if_pos hfin]
      cases hsyn : seg.header.syn with
      | true =>
        have := hs.syn hsyn
        simp only [if_true]
        omega
      | false =>
        simp only [Bool.false_eq_true, if_false]
        omega
    rw [hpos]
    exact unwrap_wrap _ (by omega) (by omega) (by omega) (by omega)
  · unfold TCPSegment.lengthInSequenceSpace
    rw [if_pos hfin]
    omega

end TCPReceiver

/-! ### The system -/

/-- A sender, a receiver and the channel between them, with the bytes that went in and came
out. -/
structure StreamLink where
  sender : TCPSender
  receiver : TCPReceiver
  accepted : List UInt8
  emitted : List TCPSegment
  written : List UInt8

namespace StreamLink

inductive LinkOp where
  | sender (op : TCPSender.SenderOp)
  | deliver (i : ℕ)
  | read (len : ℕ)
deriving DecidableEq

def start (sender : TCPSender) (receiver : TCPReceiver) : StreamLink :=
  { sender := sender, receiver := receiver, accepted := [], emitted := [], written := [] }

/-- The receiver gets a segment. -/
def receive (l : StreamLink) (seg : TCPSegment) : StreamLink :=
  { l with
    receiver := l.receiver.segmentReceived seg
    written := l.written ++
      ByteStream.appended l.receiver.streamOut (l.receiver.segmentReceived seg).streamOut }

/-- The channel hands over the `i`-th segment emitted so far, if there is one. -/
def deliver (l : StreamLink) (i : ℕ) : StreamLink :=
  match l.emitted[i]? with
  | some seg => l.receive seg
  | none => l

def linkStep (l : StreamLink) : LinkOp → StreamLink
  | .sender op =>
    { l with
      sender := TCPSender.senderStep l.sender op
      accepted := l.accepted ++ l.sender.acceptedBy op
      emitted := l.emitted ++ l.sender.putBy op }
  | .deliver i => l.deliver i
  | .read len => { l with receiver := l.receiver.readOut len }

/-- Everything emitted is a created segment or empty, and the receiver follows the sender's
stream. -/
structure LinkInv (isn : WrappingInt32) (l : StreamLink) : Prop where
  trace : ∃ acked t, TCPSender.SenderTrace.TraceInv isn acked t ∧ t.sender = l.sender ∧
    t.accepted = l.accepted ∧
    ∀ seg ∈ l.emitted, seg ∈ t.created ∨ seg.lengthInSequenceSpace = 0
  recv : l.receiver.RecvInv isn l.accepted l.written

variable {isn : WrappingInt32} {l : StreamLink}

open TCPSender.SenderTrace in
/-- A sender operation emits created segments, old or new, and empty ones. -/
theorem LinkInv.sender (h : LinkInv isn l) (op : TCPSender.SenderOp) :
    LinkInv isn (linkStep l (.sender op)) := by
  obtain ⟨acked, t, ht, hsender, haccepted, hemitted⟩ := h.trace
  obtain ⟨popped, ht'⟩ := ht.step op
  refine ⟨⟨_, _, ht', by simp [traceStep, linkStep, hsender],
    by simp [traceStep, linkStep, hsender, haccepted], ?_⟩, h.recv.mono (List.prefix_append ..)⟩
  intro seg hseg
  rcases List.mem_append.mp hseg with hold | hnew
  · exact (hemitted seg hold).imp_left (List.mem_append_left _)
  · rw [← hsender] at hnew
    by_cases hop : op = .fillWindow
    · refine Or.inl (List.mem_append_right _ ?_)
      rwa [if_pos hop]
    · have hmem : (seg, (TCPSender.senderStep t.sender op).outstandingSegments) ∈
          (traceStep t op).others := by
        refine List.mem_append_right _ ?_
        rw [if_neg hop]
        exact List.mem_map_of_mem hnew
      exact (ht'.others _ hmem).imp_left And.right

/-- A delivered segment is a slice of the stream. -/
theorem LinkInv.receive (h : LinkInv isn l) (hlen : l.accepted.length < 2 ^ 31 - 2)
    {seg : TCPSegment} (hseg : seg ∈ l.emitted) : LinkInv isn (l.receive seg) := by
  refine ⟨h.trace, ?_⟩
  obtain ⟨acked, t, ht, hsender, haccepted, hemitted⟩ := h.trace
  by_cases hpush : l.receiver.Pushes seg
  · have hmem : seg ∈ t.created := (hemitted seg hseg).resolve_right hpush.1
    rw [ht.created] at hmem
    obtain ⟨pre, post, hsplit⟩ := List.append_of_mem hmem
    have hsent := ht.inv.sent
    rw [hsplit, ht.isn, haccepted] at hsent
    exact h.recv.push hsent.slice hlen hpush
  · exact h.recv.skip hpush

theorem accepted_prefix_step (l : StreamLink) (op : LinkOp) :
    l.accepted <+: (linkStep l op).accepted := by
  cases op with
  | sender op => exact List.prefix_append ..
  | deliver i =>
    show l.accepted <+: (l.deliver i).accepted
    unfold deliver
    split <;> exact List.prefix_rfl
  | read len => exact List.prefix_rfl

theorem LinkInv.step (h : LinkInv isn l) (op : LinkOp)
    (hlen : (linkStep l op).accepted.length < 2 ^ 31 - 2) : LinkInv isn (linkStep l op) := by
  cases op with
  | sender op => exact h.sender op
  | deliver i =>
    have hle := (accepted_prefix_step l (.deliver i)).length_le
    show LinkInv isn (l.deliver i)
    unfold deliver
    split
    · rename_i seg hget
      exact h.receive (by omega) (List.mem_of_getElem? hget)
    · exact h
  | read len => exact ⟨h.trace, h.recv.readOut len⟩

theorem LinkInv.run (h : LinkInv isn l) (ops : List LinkOp)
    (hlen : (run linkStep l ops).accepted.length < 2 ^ 31 - 2) :
    LinkInv isn (run linkStep l ops) := by
  induction ops using List.reverseRecOn with
  | nil => exact h
  | append_singleton ops op ih =>
    rw [run_concat] at hlen ⊢
    have hle := (accepted_prefix_step (Run.run linkStep l ops) op).length_le
    exact (ih (by omega)).step op hlen

/-- **Prefix safety.**  Whatever the channel does, and whatever acknowledgments the sender is
given, the bytes written to the receiver's output are a prefix of the bytes accepted by the
sender's stream. -/
theorem written_prefix_accepted (sendCapacity recvCapacity : ℕ) (retxTimeout : UInt16)
    (fixedIsn : Option WrappingInt32) (random : WrappingInt32) (ops : List LinkOp)
    (hcap : recvCapacity < 2 ^ 64) :
    let l := Run.run linkStep (start (TCPSender.new sendCapacity retxTimeout fixedIsn random)
      (TCPReceiver.new recvCapacity)) ops
    l.accepted.length < 2 ^ 31 - 2 → l.written <+: l.accepted := by
  intro l hlen
  have hinit : LinkInv (fixedIsn.getD random)
      (start (TCPSender.new sendCapacity retxTimeout fixedIsn random)
        (TCPReceiver.new recvCapacity)) := by
    obtain ⟨acked, ht⟩ :=
      TCPSender.SenderTrace.TraceInv.of_run sendCapacity retxTimeout fixedIsn random []
    exact ⟨⟨acked, _, ht, rfl, rfl, by simp [start]⟩, TCPReceiver.RecvInv.new hcap _⟩
  exact (hinit.run ops hlen).recv.content.written_prefix

/-- Three bytes in two segments, the second one also arriving before the SYN and twice. -/
def reorderedRun : List LinkOp :=
  [.sender (.write [97, 98, 99]), .sender .fillWindow, .sender (.ackReceived ⟨9⟩ 2),
    .sender .fillWindow, .deliver 1, .deliver 0, .deliver 1, .read 2, .deliver 1]

theorem written_prefix_accepted_reordered :
    let l := Run.run linkStep (start (TCPSender.new 8 1000 (some ⟨7⟩) ⟨0⟩) (TCPReceiver.new 8))
      reorderedRun
    l.written = [97, 98, 99] ∧ l.written <+: l.accepted :=
  ⟨by decide, written_prefix_accepted 8 8 1000 (some ⟨7⟩) ⟨0⟩ reorderedRun (by decide) (by decide)⟩

end StreamLink

end Sponge
