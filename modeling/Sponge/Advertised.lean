import Sponge.ConnectionCalls

/-!
# Advertised acknowledgments and windows

Every segment a connection sends after the SYN has arrived is stamped with the receiver's
acknowledgment number and window.  While the peer's segments are slices of one stream, neither
the acknowledgment number nor the right edge of the window ever goes back: a byte that is
assembled moves from the window to the acknowledged part, a read opens the window, and the FIN
only adds to both.
-/

namespace Sponge

open MachineInt Run StreamReassembler

namespace TCPReceiver

/-- The segment is empty, or a slice of the peer's stream `s`, with the FIN at its end, that does
not come before the SYN. -/
def FromPeer (isn : WrappingInt32) (s : List UInt8) (r : TCPReceiver) (seg : TCPSegment) : Prop :=
  seg.lengthInSequenceSpace = 0 ∨ ∃ index, StreamSlice isn s seg index ∧
    (seg.header.fin = true → index + seg.payload.length = s.length) ∧
    (r.ifSynSet || seg.header.syn) = true

/-- The receiver works on the peer's stream `s`. -/
structure PeerInv (isn : WrappingInt32) (s : List UInt8) (r : TCPReceiver) : Prop where
  recv : ∃ written, RecvInv isn s written r
  capacity : r.capacity = r.reassembler.capacity
  finSeen : r.ifFinSet = true → r.absSeqnoFin = s.length + 1
  finUnseen : r.ifFinSet = false → r.absSeqnoFin = 0

/-- The receiver acknowledges no less, and its window ends no earlier. -/
structure Grows (r r' : TCPReceiver) : Prop where
  syn : r.ifSynSet = true → r'.ifSynSet = true
  level : r.ackLevel ≤ r'.ackLevel
  edge : r.ackLevel + r.windowSize ≤ r'.ackLevel + r'.windowSize

variable {isn : WrappingInt32} {s : List UInt8} {r r' r'' : TCPReceiver} {seg : TCPSegment}

theorem Grows.refl (r : TCPReceiver) : Grows r r := ⟨id, le_rfl, le_rfl⟩

theorem Grows.trans (h : Grows r r') (h' : Grows r' r'') : Grows r r'' :=
  ⟨h'.syn ∘ h.syn, h.level.trans h'.level, h.edge.trans h'.edge⟩

theorem PeerInv.new {capacity : ℕ} (h : capacity < 2 ^ 64) (isn : WrappingInt32) (s : List UInt8) :
    PeerInv isn s (TCPReceiver.new capacity) :=
  ⟨⟨[], (RecvInv.new h isn).mono List.nil_prefix⟩, rfl, (by intro h; cases h), fun _ => rfl⟩

theorem PeerInv.windowSize_eq (h : PeerInv isn s r) :
    r.windowSize = r.capacity - r.reassembler.output.buffer.length := by
  obtain ⟨_, hrecv⟩ := h.recv
  have hwf := hrecv.content.wf
  have hfits := hwf.out.fits
  have hsize := hwf.out.size
  rw [hwf.sameCapacity, ← h.capacity] at hfits hsize
  exact sub64_of_le hsize hfits

theorem PeerInv.nextIndex_le (h : PeerInv isn s r) : r.reassembler.nextIndex ≤ s.length := by
  obtain ⟨_, hrecv⟩ := h.recv
  exact hrecv.content.next_le

theorem PeerInv.ackLevel_le (h : PeerInv isn s r) : r.ackLevel ≤ s.length + 2 := by
  have hnext := h.nextIndex_le
  unfold ackLevel
  split
  · split <;> omega
  · omega

/-! ### What the receiver meets -/

theorem PeerInv.readOut (h : PeerInv isn s r) (len : ℕ) :
    PeerInv isn s (r.readOut len) ∧ Grows r (r.readOut len) := by
  obtain ⟨written, hrecv⟩ := h.recv
  have h' : PeerInv isn s (r.readOut len) :=
    ⟨⟨written, hrecv.readOut len⟩, h.capacity, h.finSeen, h.finUnseen⟩
  refine ⟨h', id, le_rfl, Nat.add_le_add_left ?_ _⟩
  have hlen : (r.readOut len).reassembler.output.buffer.length ≤
      r.reassembler.output.buffer.length := ByteStream.popOutput_length_le _ len
  rw [h.windowSize_eq, h'.windowSize_eq, show (r.readOut len).capacity = r.capacity from rfl]
  omega

theorem PeerInv.errorStream (h : PeerInv isn s r) :
    PeerInv isn s r.errorStream ∧ Grows r r.errorStream := by
  obtain ⟨written, hrecv⟩ := h.recv
  have hc := hrecv.content
  have hwf : r.errorStream.reassembler.WF :=
    ⟨hc.wf.out.setError, hc.wf.sameCapacity, hc.wf.count, hc.wf.keys, hc.wf.next⟩
  exact ⟨⟨⟨written, ⟨hwf, hc.next_le, hc.held, hc.written_prefix, hc.written_open⟩, hrecv.isn,
    hrecv.checkpoint⟩, h.capacity, h.finSeen, h.finUnseen⟩, id, le_rfl, le_rfl⟩

/-- An empty segment changes nothing that is advertised. -/
theorem PeerInv.skip (h : PeerInv isn s r) (hseg : seg.lengthInSequenceSpace = 0) :
    PeerInv isn s (r.segmentReceived seg) ∧ Grows r (r.segmentReceived seg) := by
  have hno : ¬ r.Pushes seg := fun hpush => hpush.1 hseg
  obtain ⟨-, hsyn, hfin⟩ := TCPSegment.lengthInSequenceSpace_eq_zero_iff.mp hseg
  obtain ⟨written, hrecv⟩ := h.recv
  have hrecv' := hrecv.skip hno
  rw [segmentReceived_of_not_pushes hno] at hrecv' ⊢
  have hset : (r.noteFlags seg).ifSynSet = r.ifSynSet := by
    rw [noteFlags_ifSynSet, hsyn, Bool.or_false]
  have hfinSet : (r.noteFlags seg).ifFinSet = r.ifFinSet := by
    rw [noteFlags_ifFinSet, hfin, Bool.or_false]
  have habs : (r.noteFlags seg).absSeqnoFin = r.absSeqnoFin := by
    rw [noteFlags_absSeqnoFin, if_neg (by simp [hfin])]
  have hlevel : (r.noteFlags seg).ackLevel = r.ackLevel := by
    rw [ackLevel, ackLevel, hset, habs, noteFlags_reassembler]
  have hwindow : (r.noteFlags seg).windowSize = r.windowSize := by
    rw [windowSize, windowSize, noteFlags_capacity, noteFlags_reassembler]
  refine ⟨⟨⟨_, hrecv'⟩, ?_, ?_, ?_⟩, hset.symm ▸ id, hlevel.ge, by rw [hlevel, hwindow]⟩
  · rw [noteFlags_capacity, noteFlags_reassembler, h.capacity]
  · rw [hfinSet, habs]
    exact h.finSeen
  · rw [hfinSet, habs]
    exact h.finUnseen

/-- The record of the FIN after a slice. -/
theorem PeerInv.noteFlags_fin (h : PeerInv isn s r) (hlen : s.length < 2 ^ 31 - 2) {index : ℕ}
    (hs : StreamSlice isn s seg index)
    (hclose : seg.header.fin = true → index + seg.payload.length = s.length)
    (hset : (r.ifSynSet || seg.header.syn) = true) :
    ((r.noteFlags seg).ifFinSet = true → (r.noteFlags seg).absSeqnoFin = s.length + 1) ∧
      ((r.noteFlags seg).ifFinSet = false → (r.noteFlags seg).absSeqnoFin = 0) := by
  obtain ⟨written, hrecv⟩ := h.recv
  rw [noteFlags_ifFinSet]
  cases hold : r.ifFinSet with
  | true =>
    have hsame : (r.noteFlags seg).absSeqnoFin = r.absSeqnoFin := by
      rw [noteFlags_absSeqnoFin, if_neg (by simp [hold])]
    exact ⟨fun _ => hsame.trans (h.finSeen hold), fun hno => by simp at hno⟩
  | false =>
    rw [Bool.false_or]
    refine ⟨fun hfin => hrecv.absSeqnoFin_eq hs hlen hset hfin (hclose hfin) hold, fun hfin => ?_⟩
    rw [noteFlags_absSeqnoFin, if_neg (by simp [hfin])]
    exact h.finUnseen hold

/-- **A slice moves the acknowledgment forward and takes from the window no more than it adds
to it.** -/
theorem PeerInv.push (h : PeerInv isn s r) (hlen : s.length < 2 ^ 31 - 2) {index : ℕ}
    (hs : StreamSlice isn s seg index)
    (hclose : seg.header.fin = true → index + seg.payload.length = s.length)
    (hpush : r.Pushes seg) :
    PeerInv isn s (r.segmentReceived seg) ∧ Grows r (r.segmentReceived seg) := by
  obtain ⟨written, hrecv⟩ := h.recv
  have hindex := hrecv.streamIndex_eq hs hlen hpush.2
  have hrecv' := hrecv.push hs hlen hpush
  obtain ⟨hseen, hunseen⟩ := h.noteFlags_fin hlen hs hclose hpush.2
  obtain ⟨w, hp⟩ := pushSubstring_spec hrecv.content.wf seg.payload index seg.header.fin
  have hnext := hrecv.content.pushed_next (by omega) hs.payload hp
  have habs : r.absSeqnoFin = 0 ∨ r.absSeqnoFin = s.length + 1 ∧
      (r.noteFlags seg).absSeqnoFin = r.absSeqnoFin := by
    cases hold : r.ifFinSet with
    | false => exact Or.inl (h.finUnseen hold)
    | true =>
      exact Or.inr ⟨h.finSeen hold, by rw [noteFlags_absSeqnoFin, if_neg (by simp [hold])]⟩
  rw [segmentReceived_of_pushes hpush, hindex] at hrecv' ⊢
  generalize hr' : TCPReceiver.mk (r.reassembler.pushSubstring seg.payload index seg.header.fin)
    _ _ _ _ _ _ _ _ = r' at hrecv' ⊢
  have hsyn : r'.ifSynSet = true := by
    rw [← hr']
    exact (noteFlags_ifSynSet r seg).trans hpush.2
  have hcapacity : r'.capacity = r.capacity := by
    rw [← hr']
    exact noteFlags_capacity r seg
  have hreassembler : r'.reassembler =
      r.reassembler.pushSubstring seg.payload index seg.header.fin := by
    rw [← hr']
  have h' : PeerInv isn s r' := by
    refine ⟨⟨_, hrecv'⟩, ?_, ?_, ?_⟩
    · rw [hcapacity, h.capacity, hreassembler]
      exact hp.capacity.symm
    · rw [← hr']
      exact hseen
    · rw [← hr']
      exact hunseen
  have hlevel : r.ackLevel + w.length ≤ r'.ackLevel := by
    refine ackLevel_add_le hsyn ?_ h'.nextIndex_le ?_
    · rw [hreassembler, hnext]
    · rw [← hr']
      exact habs
  -- the buffer grows at most by what was assembled
  have hbuffer : r'.reassembler.output.buffer.length ≤
      r.reassembler.output.buffer.length + w.length := by
    rw [hreassembler, hp.output_buffer, List.length_append]
    exact Nat.add_le_add_left (ByteStream.accepted_prefix _ w).length_le _
  refine ⟨h', fun _ => hsyn, by omega, ?_⟩
  rw [h.windowSize_eq, h'.windowSize_eq, hcapacity]
  omega

theorem PeerInv.receive (h : PeerInv isn s r) (hlen : s.length < 2 ^ 31 - 2)
    (hseg : FromPeer isn s r seg) :
    PeerInv isn s (r.segmentReceived seg) ∧ Grows r (r.segmentReceived seg) := by
  by_cases hzero : seg.lengthInSequenceSpace = 0
  · exact h.skip hzero
  · obtain ⟨index, hs, hclose, hset⟩ := hseg.resolve_left hzero
    exact h.push hlen hs hclose ⟨hzero, hset⟩

/-- The acknowledgment number is that of the level. -/
theorem PeerInv.ackno_eq (h : PeerInv isn s r) (hlen : s.length < 2 ^ 31 - 2)
    (hsyn : r.ifSynSet = true) :
    r.ackno = some (wrap r.ackLevel isn) ∧ offset (wrap r.ackLevel isn) isn = r.ackLevel := by
  obtain ⟨written, hrecv⟩ := h.recv
  have hnext := h.nextIndex_le
  have hlevel := h.ackLevel_le
  cases hack : r.ackno with
  | none => simp [ackno, hsyn] at hack
  | some ackno =>
    obtain ⟨_, heq⟩ := ackno_eq_wrap_ackLevel (by omega) hack
    rw [heq, hrecv.isn hsyn, offset_wrap]
    exact ⟨rfl, Nat.mod_eq_of_lt (by omega)⟩

end TCPReceiver

namespace TCPConnection

open TCPReceiver

/-- A segment that arrives is one of the peer's. -/
def HearsPeer (isn : WrappingInt32) (s : List UInt8) (c : TCPConnection) : ConnOp → Prop
  | .segment seg => c.receiver.FromPeer isn s seg
  | _ => True

/-- The absolute acknowledgment number of a segment; the stream is too short for it to wrap. -/
def absAckno (isn : WrappingInt32) (seg : TCPSegment) : ℕ := offset seg.header.ackno isn

/-- The first absolute number beyond the window of a segment. -/
def rightEdge (isn : WrappingInt32) (seg : TCPSegment) : ℕ :=
  absAckno isn seg + seg.header.win.toNat

/-- The segment carries what the receiver advertises. -/
structure Advertises (r : TCPReceiver) (seg : TCPSegment) : Prop where
  ack : seg.header.ack = true
  ackno : r.ackno = some seg.header.ackno
  win : seg.header.win.toNat = min r.windowSize 65535

/-- A connection and the segments it has enqueued since the SYN arrived, each with the receiver
at that time. -/
structure AdvertTrace where
  conn : TCPConnection
  adverts : List (TCPSegment × TCPReceiver) := []

def AdvertTrace.step (t : AdvertTrace) (op : ConnOp) : AdvertTrace :=
  { conn := connStep t.conn op
    adverts := t.adverts ++
      if (connStep t.conn op).receiver.ifSynSet then
        (enqueued t.conn op).map fun seg => (seg, (connStep t.conn op).receiver)
      else [] }

/-- Neither the acknowledgment number nor the right edge is smaller in the later segment. -/
def NoRetreat (isn : WrappingInt32) (e e' : TCPSegment × TCPReceiver) : Prop :=
  absAckno isn e.1 ≤ absAckno isn e'.1 ∧ rightEdge isn e.1 ≤ rightEdge isn e'.1

variable {isn : WrappingInt32} {s : List UInt8} {c : TCPConnection} {op : ConnOp}

/-- The receiver of a connection only grows. -/
theorem connStep_grows (h : PeerInv isn s c.receiver) (hlen : s.length < 2 ^ 31 - 2)
    (hok : HearsPeer isn s c op) :
    PeerInv isn s (connStep c op).receiver ∧ Grows c.receiver (connStep c op).receiver := by
  rcases connStep_receiver c op with hsame | herror | ⟨len, -, hread⟩ | ⟨seg, rfl, hsegment⟩
  · rw [hsame]
    exact ⟨h, Grows.refl _⟩
  · rw [herror]
    exact h.errorStream
  · rw [hread]
    exact h.readOut len
  · have hok : c.receiver.FromPeer isn s seg := hok
    rw [hsegment]
    rcases c.noteReset_cases seg with ⟨-, heq⟩ | ⟨-, heq⟩
    · rw [heq]
      obtain ⟨herr, hgrow⟩ := h.errorStream
      obtain ⟨hrecv, hgrow'⟩ := herr.receive hlen hok
      exact ⟨hrecv, hgrow.trans hgrow'⟩
    · rw [heq]
      exact h.receive hlen hok

/-- A stamped segment carries what the receiver advertises. -/
theorem stamp_advertises {r : TCPReceiver} {ackno : WrappingInt32} (hack : r.ackno = some ackno)
    (seg : TCPSegment) : Advertises r (stamp r seg) := by
  have hwin : (UInt16.ofNat (min r.windowSize 65535)).toNat = min r.windowSize 65535 :=
    UInt16.toNat_ofNat_of_lt' (by simp only [UInt16.size]; omega)
  refine ⟨?_, ?_, ?_⟩ <;> rw [stamp, hack]
  exact hwin

theorem enqueued_advertises (h : PeerInv isn s (connStep c op).receiver)
    (hlen : s.length < 2 ^ 31 - 2) (hsyn : (connStep c op).receiver.ifSynSet = true)
    {seg : TCPSegment} (hseg : seg ∈ enqueued c op) :
    Advertises (connStep c op).receiver seg ∧
      absAckno isn seg = (connStep c op).receiver.ackLevel := by
  obtain ⟨mid, hmid⟩ := handover c op
  obtain ⟨_, _, s', _, rfl⟩ := hmid.stamped seg hseg
  obtain ⟨hack, hoffset⟩ := h.ackno_eq hlen hsyn
  have hadv := stamp_advertises hack s'
  refine ⟨hadv, ?_⟩
  rw [absAckno, ← hoffset]
  exact congrArg (offset · isn) (Option.some.inj (hadv.ackno.symm.trans hack))

/-- What has been advertised is correct, in order, and not beyond what the receiver advertises
now. -/
structure AdvertInv (isn : WrappingInt32) (s : List UInt8) (t : AdvertTrace) : Prop where
  peer : PeerInv isn s t.conn.receiver
  advertises : ∀ e ∈ t.adverts, Advertises e.2 e.1
  bound : ∀ e ∈ t.adverts, absAckno isn e.1 ≤ t.conn.receiver.ackLevel ∧
    rightEdge isn e.1 ≤ t.conn.receiver.ackLevel + min t.conn.receiver.windowSize 65535
  ordered : t.adverts.Pairwise (NoRetreat isn)

theorem AdvertInv.step {t : AdvertTrace} (h : AdvertInv isn s t) (hlen : s.length < 2 ^ 31 - 2)
    {op : ConnOp} (hok : HearsPeer isn s t.conn op) : AdvertInv isn s (t.step op) := by
  obtain ⟨hpeer, hgrow⟩ := connStep_grows h.peer hlen hok
  have hlevel := hgrow.level
  have hedge := hgrow.edge
  -- the old segments stay below what is advertised now
  have hold : ∀ e ∈ t.adverts, absAckno isn e.1 ≤ (connStep t.conn op).receiver.ackLevel ∧
      rightEdge isn e.1 ≤ (connStep t.conn op).receiver.ackLevel +
        min (connStep t.conn op).receiver.windowSize 65535 := by
    intro e he
    have := h.bound e he
    omega
  -- and the new ones carry exactly that
  have hnew : ∀ e ∈ (if (connStep t.conn op).receiver.ifSynSet then
        (enqueued t.conn op).map fun seg => (seg, (connStep t.conn op).receiver) else []),
      Advertises e.2 e.1 ∧ absAckno isn e.1 = (connStep t.conn op).receiver.ackLevel ∧
      rightEdge isn e.1 = (connStep t.conn op).receiver.ackLevel +
        min (connStep t.conn op).receiver.windowSize 65535 := by
    intro e he
    split at he
    · rename_i hsyn
      obtain ⟨seg, hseg, rfl⟩ := List.mem_map.mp he
      obtain ⟨hadv, habs⟩ := enqueued_advertises hpeer hlen hsyn hseg
      exact ⟨hadv, habs, by rw [rightEdge, habs, hadv.win]⟩
    · cases he
  refine ⟨hpeer, ?_, ?_, ?_⟩
  · intro e he
    rcases List.mem_append.mp he with hmem | hmem
    · exact h.advertises e hmem
    · exact (hnew e hmem).1
  · intro e he
    rcases List.mem_append.mp he with hmem | hmem
    · exact hold e hmem
    · exact ⟨(hnew e hmem).2.1.le, (hnew e hmem).2.2.le⟩
  · refine List.pairwise_append.mpr ⟨h.ordered, List.pairwise_of_forall_mem_list ?_, ?_⟩
    · intro e he e' he'
      obtain ⟨-, habs, hright⟩ := hnew e he
      obtain ⟨-, habs', hright'⟩ := hnew e' he'
      exact ⟨(habs.trans habs'.symm).le, (hright.trans hright'.symm).le⟩
    · intro e he e' he'
      obtain ⟨-, habs', hright'⟩ := hnew e' he'
      exact ⟨(hold e he).1.trans habs'.ge, (hold e he).2.trans hright'.ge⟩

/-- **What is advertised never retreats.**  While a connection hears slices of one stream, from
the SYN on and in any order, every segment it enqueues after the SYN carries the receiver's
acknowledgment number and window at that time, and over all of them neither the acknowledgment
number nor the right edge of the window goes back. -/
theorem adverts_never_retreat (cfg : TCPConfig) (random isn : WrappingInt32) (s : List UInt8)
    (hcapacity : cfg.recvCapacity < 2 ^ 64) (hlen : s.length < 2 ^ 31 - 2) (ops : List ConnOp)
    (hpeer : Along AdvertTrace.step (fun t op => HearsPeer isn s t.conn op)
      { conn := TCPConnection.new cfg random } ops) :
    let t := run AdvertTrace.step { conn := TCPConnection.new cfg random } ops
    (∀ e ∈ t.adverts, Advertises e.2 e.1) ∧ t.adverts.Pairwise (NoRetreat isn) := by
  intro t
  have hinv : AdvertInv isn s t := run_invariant (I := AdvertInv isn s)
    (fun _ _ h hok => h.step hlen hok)
    ⟨PeerInv.new hcapacity isn s, by simp, by simp, List.Pairwise.nil⟩ hpeer
  exact ⟨hinv.advertises, hinv.ordered⟩

/-- The SYN, then one byte that the application reads before it arrives again. -/
def readBetween : List ConnOp :=
  [.segment { header := { syn := true, seqno := ⟨7⟩ } },
    .segment { header := { seqno := ⟨8⟩ }, payload := [97] }, .read 1,
    .segment { header := { seqno := ⟨8⟩ }, payload := [97] }]

/-- The window shrinks by the byte, and the read gives it back. -/
theorem adverts_never_retreat_byte :
    let t := run AdvertTrace.step { conn := TCPConnection.new {} ⟨0⟩ } readBetween
    (∀ e ∈ t.adverts, Advertises e.2 e.1) ∧ t.adverts.Pairwise (NoRetreat ⟨7⟩) ∧
      t.adverts.map (fun e => (e.1.header.ackno, e.1.header.win)) =
        [(⟨8⟩, 64000), (⟨9⟩, 63999), (⟨9⟩, 64000)] := by
  have hpeer : Along AdvertTrace.step (fun t op => HearsPeer ⟨7⟩ [97] t.conn op)
      { conn := TCPConnection.new {} ⟨0⟩ } readBetween := by
    refine ⟨Or.inr ⟨0, ⟨?_, fun _ => rfl, List.nil_prefix, ?_⟩, ?_⟩,
      Or.inr ⟨0, ⟨?_, fun _ => rfl, List.prefix_refl _, ?_⟩, ?_⟩, trivial,
      Or.inr ⟨0, ⟨?_, fun _ => rfl, List.prefix_refl _, ?_⟩, ?_⟩, trivial⟩
    all_goals decide
  obtain ⟨hadvertises, hordered⟩ :=
    adverts_never_retreat {} ⟨0⟩ ⟨7⟩ [97] (by decide) (by decide) readBetween hpeer
  exact ⟨hadvertises, hordered, by decide +kernel⟩

end TCPConnection

end Sponge
