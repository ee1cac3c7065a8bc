import Sponge.EndToEnd

/-!
# What the calls of a connection do

Every call of a connection runs operations of its sender and then hands segments of the sender's
queue over to `segments_out`, stamped with the receiver's acknowledgment.  `handover` says this
once for all calls, so that what holds in every run of a sender carries over to the sender of a
connection.  The receiver only meets segments, reads and the error mark; the linger flag is
cleared in one place.
-/

namespace Sponge

open Run

namespace TCPConnection

open TCPSender

/-- A call brings the sender to the state `mid` and then hands segments of its queue over. -/
structure Handover (c : TCPConnection) (op : ConnOp) (mid : TCPSender) : Prop where
  operated : Operated c.sender mid
  left : ∃ rest ⊆ mid.segmentsOut, (connStep c op).sender = { mid with segmentsOut := rest }
  /-- On the way out a segment may get the RST flag; then it is stamped. -/
  stamped : ∀ seg ∈ enqueued c op, ∃ s ∈ mid.segmentsOut, ∃ s', SameData s' s ∧
    seg = stamp (connStep c op).receiver s'

variable {c c' : TCPConnection} {op : ConnOp} {mid : TCPSender} {seg : TCPSegment}

theorem Handover.sameData (h : Handover c op mid) (hseg : seg ∈ enqueued c op) :
    ∃ s ∈ mid.segmentsOut, SameData seg s := by
  obtain ⟨s, hs, s', hdata, rfl⟩ := h.stamped seg hseg
  exact ⟨s, hs, (Endpoint.stamp_sameData _ _).trans hdata⟩

/-- The calls that end with `send_segments`. -/
theorem Handover.of_sendSegments (hstep : connStep c op = c'.sendSegments)
    (hout : c'.segmentsOut = c.segmentsOut) (h : Operated c.sender c'.sender) :
    Handover c op c'.sender where
  operated := h
  left := ⟨[], List.nil_subset _, by rw [hstep]; rfl⟩
  stamped := by
    intro seg hseg
    rw [enqueued, hstep, sendSegments, hout, List.drop_left] at hseg
    obtain ⟨s, hs, rfl⟩ := List.mem_map.mp hseg
    exact ⟨s, hs, s, SameData.refl s, by rw [hstep]; rfl⟩

/-- A call that leaves the sender and the queue alone. -/
theorem Handover.of_idle (hsender : (connStep c op).sender = c.sender)
    (hout : enqueued c op = []) : Handover c op c.sender where
  operated := Operated.refl _
  left := ⟨c.sender.segmentsOut, List.Subset.refl _, hsender⟩
  stamped := by
    intro seg hseg
    rw [hout] at hseg
    cases hseg

theorem Handover.of_idle_step (h : connStep c op = c) : Handover c op c.sender :=
  .of_idle (by rw [h]) (by rw [enqueued, h, List.drop_length])

/-! ### The calls -/

theorem handover_tick (c : TCPConnection) (ms : ℕ) : ∃ mid, Handover c (.tick ms) mid := by
  have htick : Operated c.sender (c.passTime ms).sender :=
    (Operated.refl c.sender).then (.tick ms)
  rcases c.tick_cases ms with ⟨-, hstep⟩ | ⟨-, active, -, hstep⟩
  · -- the unclean shutdown: the front of the queue leaves as the RST segment
    have hmid : Operated c.sender (c.passTime ms).abort.sender :=
      (htick.then .setError).then .sendEmptySegment
    have hout : (c.passTime ms).segmentsOut = c.segmentsOut := rfl
    obtain ⟨front, rest, hq, hreset⟩ := (c.passTime ms).sendReset_abort
    have hstep : connStep c (.tick ms) = _ := hstep.trans hreset
    refine ⟨_, hmid, ⟨rest, ?_, by rw [hstep]⟩, ?_⟩
    · rw [hq]
      exact List.subset_cons_self _ _
    · intro seg hseg
      rw [enqueued, hstep, hout, List.drop_left, List.mem_singleton] at hseg
      refine ⟨front, by rw [hq]; exact List.mem_cons_self, _, ?_, by rw [hseg, hstep]⟩
      exact ⟨rfl, rfl, rfl, rfl⟩
  · exact ⟨_, Handover.of_sendSegments hstep rfl htick⟩

/-- **Every call** runs operations of the sender and hands over stamped segments of its queue. -/
theorem handover (c : TCPConnection) (op : ConnOp) : ∃ mid, Handover c op mid := by
  have hrefl := Operated.refl c.sender
  cases op with
  | segment seg =>
    have hstep : connStep c (.segment seg) = (c.processSegment seg).sendSegments := rfl
    exact ⟨_, Handover.of_sendSegments hstep (processSegment_frame c seg).2.1
      (operated_processSegment c seg)⟩
  | write data =>
    rcases c.write_cases data with hstep | hstep
    · exact ⟨_, Handover.of_idle_step hstep⟩
    · exact ⟨_, Handover.of_sendSegments hstep rfl
        ((hrefl.then (.write data)).then .fillWindow)⟩
  | endInput =>
    have hstep : connStep c .endInput =
        { c with sender := c.sender.endStream.fillWindow }.sendSegments := rfl
    exact ⟨_, Handover.of_sendSegments hstep rfl ((hrefl.then .endInput).then .fillWindow)⟩
  | connect =>
    rcases c.connect_cases with hstep | hstep
    · exact ⟨_, Handover.of_idle_step hstep⟩
    · exact ⟨_, Handover.of_sendSegments hstep rfl (hrefl.then .fillWindow)⟩
  | tick ms => exact handover_tick c ms
  | read len =>
    exact ⟨_, Handover.of_idle rfl List.drop_length⟩
  | popOut =>
    refine ⟨_, Handover.of_idle rfl ?_⟩
    show (c.segmentsOut.drop 1).drop _ = []
    rw [List.drop_drop, List.drop_eq_nil_iff]
    omega

/-- The receiver at the end of a call: it has met the segment or the read, or at most the error
mark. -/
theorem connStep_receiver (c : TCPConnection) (op : ConnOp) :
    (connStep c op).receiver = c.receiver ∨ (connStep c op).receiver = c.receiver.errorStream ∨
      (∃ len, op = .read len ∧ (connStep c op).receiver = c.receiver.readOut len) ∨
      ∃ seg, op = .segment seg ∧
        (connStep c op).receiver = (c.noteReset seg).receiver.segmentReceived seg := by
  cases op with
  | segment seg => exact Or.inr (Or.inr (Or.inr ⟨seg, rfl, (processSegment_frame c seg).1⟩))
  | write data =>
    refine Or.inl ?_
    show (c.write data).1.receiver = _
    rcases c.write_cases data with heq | heq <;> rw [heq]
    rfl
  | endInput => exact Or.inl rfl
  | connect =>
    refine Or.inl ?_
    show c.connect.receiver = _
    rcases c.connect_cases with heq | heq <;> rw [heq]
    rfl
  | tick ms =>
    show (c.tick ms).receiver = _ ∨ (c.tick ms).receiver = _ ∨ _
    rcases c.tick_cases ms with ⟨-, heq⟩ | ⟨-, active, -, heq⟩ <;> rw [heq]
    · exact Or.inr (Or.inl (Endpoint.sendReset_receiver _))
    · exact Or.inl rfl
  | read len => exact Or.inr (Or.inr (Or.inl ⟨len, rfl, rfl⟩))
  | popOut => exact Or.inl rfl

end TCPConnection

end Sponge
