import Sponge.StreamSafety
import Sponge.TcpWire

/-!
# Every segment that is sent can be read

A header with a data offset below five is refused by the serializer, one above fifteen is not read
back, and the checksum is only exact for segments that fit a datagram.  None of this ever happens:
the segments of a connection are `Compact` (twenty bytes of header, at most a thousand bytes of
payload), whatever it is given, so that serializing never throws and the peer's parser reads
exactly what was sent.
-/

namespace Sponge

open MachineInt Run

/-- No options, and a payload of at most `MAX_PAYLOAD_SIZE` bytes. -/
structure TCPSegment.Compact (seg : TCPSegment) : Prop where
  doff : seg.header.doff = 5
  payload : seg.payload.length ≤ maxPayloadSize

/-! ### What a sender creates -/

namespace TCPSender

/-- All segments that the sender still has are compact. -/
def Compact (st : TCPSender) : Prop :=
  ∀ seg ∈ st.segmentsOut ++ st.outstandingSegments, seg.Compact

variable {st : TCPSender}

theorem nextSegment_compact (st : TCPSender) : st.nextSegment.1.Compact := by
  refine ⟨rfl, ?_⟩
  rw [nextSegment_payload, List.length_take]
  omega

/-- Fewer segments, or some more that are compact. -/
theorem Compact.of_subset (h : st.Compact) {st' : TCPSender} (new : List TCPSegment)
    (hnew : ∀ seg ∈ new, seg.Compact)
    (hqueue : st'.segmentsOut ⊆ st.segmentsOut ++ st.outstandingSegments ++ new)
    (houtstanding : st'.outstandingSegments ⊆ st.segmentsOut ++ st.outstandingSegments ++ new) :
    st'.Compact := by
  intro seg hseg
  rcases List.mem_append.mp (List.append_subset.mpr ⟨hqueue, houtstanding⟩ hseg) with hold | hseg
  · exact h seg hold
  · exact hnew seg hseg

theorem Compact.fillWindow (h : st.Compact) : st.fillWindow.Compact := by
  revert h
  refine fillWindow_induct (P := fun st st' => st.Compact → st'.Compact) ?_ ?_ ?_ st
  · intro st _ h
    exact h
  · intro st _ _ h
    exact h
  · intro st _ _ ih h
    refine ih (h.of_subset [st.nextSegment.1] ?_ ?_ ?_)
    · intro seg hseg
      rw [List.mem_singleton.mp hseg]
      exact nextSegment_compact st
    · show st.segmentsOut ++ [_] ⊆ _
      simp
    · show st.outstandingSegments ++ [_] ⊆ _
      simp

/-- **Every operation keeps it**, any acknowledgment and any timeout included. -/
theorem Compact.operation (h : st.Compact) (op : SenderOp) : (senderStep st op).Compact := by
  have hsame : ∀ st' : TCPSender, st'.segmentsOut ⊆ st.segmentsOut →
      st'.outstandingSegments ⊆ st.outstandingSegments → st'.Compact := by
    intro st' hqueue houtstanding
    refine h.of_subset [] (List.forall_mem_nil _) ?_ ?_
    · exact fun seg hseg => List.mem_append_left _ (List.mem_append_left _ (hqueue hseg))
    · exact fun seg hseg => List.mem_append_left _ (List.mem_append_right _ (houtstanding hseg))
  cases op with
  | write data => exact h
  | endInput => exact h
  | setError => exact h
  | fillWindow => exact h.fillWindow
  | ackReceived ackno window =>
    obtain ⟨popped, ha⟩ := ackReceived_acked st ackno window
    refine hsame _ (by rw [senderStep, ha.segmentsOut]; exact List.Subset.refl _) ?_
    rw [ha.outstanding]
    exact List.subset_append_right _ _
  | tick ms =>
    have ht := tick_ticked st ms
    refine h.of_subset [] (List.forall_mem_nil _) ?_ ?_
    · rcases ht.segmentsOut with hsame | ⟨oldest, hmem, hout⟩
      · rw [senderStep, hsame]
        simp
      · rw [senderStep, hout]
        simp [hmem]
    · rw [senderStep, ht.outstanding]
      simp
  | sendEmptySegment =>
    refine h.of_subset [{ header := { seqno := wrap st.nextSeqno st.isn } }] ?_ ?_ ?_
    · intro seg hseg
      rw [List.mem_singleton.mp hseg]
      exact ⟨rfl, Nat.zero_le _⟩
    · show st.segmentsOut ++ [_] ⊆ _
      simp
    · show st.outstandingSegments ⊆ _
      simp
  | popSegment => exact hsame _ (List.drop_subset _ _) (List.Subset.refl _)

end TCPSender

/-! ### What a connection enqueues -/

namespace TCPConnection

open TCPSender

/-- All segments that the connection still has are compact. -/
structure Compact (c : TCPConnection) : Prop where
  sender : c.sender.Compact
  queue : ∀ seg ∈ c.segmentsOut, seg.Compact

variable {c : TCPConnection}

theorem stamp_compact (r : TCPReceiver) {seg : TCPSegment} (h : seg.Compact) :
    (stamp r seg).Compact := by
  unfold stamp
  split
  · exact h
  · exact ⟨h.doff, h.payload⟩

theorem Compact.sendSegments (h : c.Compact) : c.sendSegments.Compact where
  sender := h.sender.of_subset [] (List.forall_mem_nil _) (List.nil_subset _)
    (by rw [List.append_nil]; exact List.subset_append_right _ _)
  queue := by
    intro seg hseg
    rcases List.mem_append.mp hseg with hold | hnew
    · exact h.queue seg hold
    · obtain ⟨s, hs, rfl⟩ := List.mem_map.mp hnew
      exact stamp_compact _ (h.sender s (List.mem_append_left _ hs))

theorem Compact.tick (h : c.Compact) (ms : ℕ) : (c.tick ms).Compact := by
  have hpass : (c.passTime ms).Compact := ⟨h.sender.operation (.tick ms), h.queue⟩
  rcases c.tick_cases ms with ⟨-, hstep⟩ | ⟨-, active, -, hstep⟩
  · -- the RST segment is the front of the sender's queue
    have habort : (c.passTime ms).abort.sender.Compact :=
      (hpass.sender.operation .setError).operation .sendEmptySegment
    obtain ⟨front, rest, hq, hreset⟩ := (c.passTime ms).sendReset_abort
    have hfront : front.Compact := habort front (by rw [hq]; exact List.mem_cons_self)
    rw [hstep, hreset]
    refine ⟨?_, ?_⟩
    · intro seg hseg
      refine habort seg ?_
      rw [hq]
      exact List.mem_cons_of_mem _ hseg
    · intro seg hseg
      rcases List.mem_append.mp hseg with hold | hnew
      · exact hpass.queue seg hold
      · rw [List.mem_singleton.mp hnew]
        exact stamp_compact _ ⟨hfront.doff, hfront.payload⟩
  · rw [hstep]
    exact Compact.sendSegments ⟨hpass.sender, hpass.queue⟩

/-- **Every call keeps it.** -/
theorem Compact.step (h : c.Compact) (op : ConnOp) : (connStep c op).Compact := by
  cases op with
  | segment seg =>
    have hsender : (c.processSegment seg).sender.Compact :=
      processSegment_keeps (fun st op _ h => h.operation op) c seg h.sender
    refine Compact.sendSegments ⟨hsender, ?_⟩
    rw [(processSegment_frame c seg).2.1]
    exact h.queue
  | write data =>
    rcases c.write_cases data with hstep | hstep
    · rw [connStep, hstep]
      exact h
    · rw [connStep, hstep]
      exact Compact.sendSegments ⟨(h.sender.operation (.write data)).fillWindow, h.queue⟩
  | endInput => exact Compact.sendSegments ⟨(h.sender.operation .endInput).fillWindow, h.queue⟩
  | connect =>
    rcases c.connect_cases with hstep | hstep
    · rw [connStep, hstep]
      exact h
    · rw [connStep, hstep]
      exact Compact.sendSegments ⟨h.sender.fillWindow, h.queue⟩
  | tick ms => exact h.tick ms
  | read len => exact ⟨h.sender, h.queue⟩
  | popOut => exact ⟨h.sender, fun seg hseg => h.queue seg (List.mem_of_mem_drop hseg)⟩

theorem Compact.new (cfg : TCPConfig) (random : WrappingInt32) :
    (TCPConnection.new cfg random).Compact :=
  ⟨List.forall_mem_nil _, List.forall_mem_nil _⟩

end TCPConnection

/-! ### What the peer reads -/

namespace TCPSegment

variable {seg : TCPSegment}

theorem Compact.encodable (h : seg.Compact) : seg.header.Encodable := by
  constructor <;> rw [h.doff] <;> decide

theorem Compact.size_le (h : seg.Compact) :
    4 * seg.header.doff.toNat + seg.payload.length ≤ 1020 := by
  have hpayload := h.payload
  have hdoff : seg.header.doff.toNat = 5 := by rw [h.doff]; rfl
  rw [maxPayloadSize] at hpayload
  omega

/-- What the parser of the peer makes of a segment: the segment, with the checksum it was sent
with. -/
theorem Compact.read_back (h : seg.Compact) {start : UInt32} (hstart : start.toNat < 2 ^ 20)
    (old : TCPSegment) : ∃ out cksum, seg.serialize start = .ok out ∧
      out.concatenate.length ≤ 1020 ∧ old.parse out.concatenate start =
        .ok (.noError, { seg with header := seg.header.setCksum cksum }) := by
  obtain ⟨cksum, hser, hparse⟩ :=
    parse_serialize h.encodable (h.size_le.trans (by decide)) hstart old
  have hlength := length_bytesWith h.encodable cksum
  have hjoin : BufferList.concatenate [(seg.header.setCksum cksum).bytes, seg.payload] =
      seg.bytesWith cksum := by
    simp [BufferList.concatenate, bytesWith]
  refine ⟨_, cksum, hser, ?_, ?_⟩
  · rw [hjoin, hlength]
    exact h.size_le
  · rw [hjoin]
    exact hparse

end TCPSegment

namespace Endpoint

open TCPConnection

/-- **What a connection sends, its peer can read.**  In every run, whatever arrives, every segment
that is enqueued is serialized without an exception to at most 1020 bytes, and the parser returns
it from these bytes as it was, up to the checksum that was filled in.  The checksum of the layer
below is that of a pseudo header, or 0 over UDP. -/
theorem sent_read_back (cfg : TCPConfig) (random : WrappingInt32) (ops : List ConnOp)
    {seg : TCPSegment} (hseg : seg ∈ (ofRun cfg random ops).sent)
    {datagramLayerChecksum : UInt32} (hlayer : datagramLayerChecksum.toNat < 2 ^ 20) :
    ∃ out cksum, seg.serialize datagramLayerChecksum = .ok out ∧
      out.concatenate.length ≤ 1020 ∧
      TCPSegment.parse {} out.concatenate datagramLayerChecksum =
        .ok (.noError, { seg with header := seg.header.setCksum cksum }) := by
  have hrun : (ofRun cfg random ops).conn.Compact ∧
      ∀ seg ∈ (ofRun cfg random ops).sent, seg.Compact := by
    refine run_invariant_of_step
      (I := fun e : Endpoint => e.conn.Compact ∧ ∀ seg ∈ e.sent, seg.Compact)
      ?_ ⟨Compact.new cfg random, List.forall_mem_nil _⟩ ops
    rintro e op ⟨hconn, hsent⟩
    refine ⟨hconn.step op, ?_⟩
    intro seg hseg
    rcases List.mem_append.mp hseg with hold | hnew
    · exact hsent seg hold
    · exact (hconn.step op).queue seg (List.mem_of_mem_drop hnew)
  exact (hrun.2 seg hseg).read_back hlayer {}

theorem sent_read_back_forged :
    ∃ out cksum, TCPSegment.serialize { header := { seqno := ⟨8⟩ }, payload := [97, 98] } 0 =
        .ok out ∧ out.concatenate.length ≤ 1020 ∧
      TCPSegment.parse {} out.concatenate 0 = .ok (.noError,
        { header := { seqno := ⟨8⟩, cksum := cksum }, payload := [97, 98] }) :=
  sent_read_back {} ⟨7⟩ forgedAckRun (by decide) (by decide)

end Endpoint

end Sponge
