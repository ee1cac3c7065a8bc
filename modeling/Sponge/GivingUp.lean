import Sponge.ConnectionCalls
import Sponge.Retransmission

/-!
# Giving up on a silent peer

A connection that counts more than `maxRetxAttempts` retransmissions in a row aborts.  As long as
no acknowledgment has advertised a window of zero, every expiry is counted, and a peer that
falls silent is given up on: `expiries` counts the ticks of a run in which the timer runs out, and
`inactive_of_expiries` says that more than `maxRetxAttempts` of them end the connection.

The abort itself should leave with one empty RST segment.  The tick that aborts has just queued a
retransmission, and the source marks the front of that queue: what leaves is the retransmitted
segment, and the empty one stays behind.
-/

namespace Sponge

open MachineInt Run

namespace TCPSender

theorem SameTiming.refl (st : TCPSender) : SameTiming st st := ⟨rfl, rfl, rfl, rfl⟩

theorem SameTiming.trans {st st' st'' : TCPSender} (h : SameTiming st st')
    (h' : SameTiming st' st'') : SameTiming st st'' :=
  ⟨h'.initial.trans h.initial, h'.zeroWindow.trans h.zeroWindow,
    h'.retransmissions.trans h.retransmissions, h'.rto.trans h.rto⟩

/-- What a segment does to the timing: it may set the flag, and the counter does not grow. -/
structure Eased (zero : Bool) (st st' : TCPSender) : Prop where
  zeroWindow : st'.isWindowSize0 = (st.isWindowSize0 || zero)
  retransmissions : st'.consecutiveRetransmissions ≤ st.consecutiveRetransmissions

variable {zero : Bool} {st st' st'' : TCPSender}

theorem SameTiming.eased (h : SameTiming st st') : Eased false st st' :=
  ⟨by rw [h.zeroWindow, Bool.or_false], h.retransmissions.le⟩

theorem Eased.same (h : Eased zero st st') (hsame : SameTiming st' st'') : Eased zero st st'' :=
  ⟨hsame.zeroWindow.trans h.zeroWindow, hsame.retransmissions.le.trans h.retransmissions⟩

theorem Eased.after (hsame : SameTiming st st') (h : Eased zero st' st'') : Eased zero st st'' :=
  ⟨by rw [h.zeroWindow, hsame.zeroWindow], h.retransmissions.trans hsame.retransmissions.le⟩

theorem ackReceived_eased (st : TCPSender) (ackno : WrappingInt32) (window : UInt16) :
    Eased (decide (window = 0)) st (st.ackReceived ackno window) := by
  obtain ⟨zero, hwindow⟩ := takeWindow_eq st window
  have htiming := ackReceived_timing st ackno window
  refine ⟨RetxTrace.ackReceived_zeroWindow st ackno window, ?_⟩
  rw [hwindow] at htiming
  rcases htiming.counter with ⟨-, hcount, -⟩ | ⟨-, hcount, -⟩
  · exact hcount.le
  · rw [hcount]
    exact Nat.zero_le _

end TCPSender

namespace TCPConnection

open TCPSender

/-! ### The timing of each call -/

/-- The call processes an acknowledgment with a window of zero. -/
def advertisesZero : ConnOp → Bool
  | .segment seg => seg.header.ack && decide (seg.header.win = 0)
  | _ => false

def isSegment : ConnOp → Bool
  | .segment _ => true
  | _ => false

/-- Only segments and ticks change the timing. -/
def timed : ConnOp → Bool
  | .segment _ | .tick _ => true
  | _ => false

/-- The timer runs out in this call. -/
def expiresIn (c : TCPConnection) : ConnOp → Bool
  | .tick ms => decide (c.sender.Expires ms)
  | _ => false

section

variable {c : TCPConnection}

theorem takeAck_eased (c : TCPConnection) (seg : TCPSegment) :
    Eased (seg.header.ack && decide (seg.header.win = 0)) c.sender (c.takeAck seg).sender := by
  have hreceived := ackReceived_eased c.sender seg.header.ackno seg.header.win
  rcases c.takeAck_cases seg with ⟨hack, heq⟩ | ⟨hack, _, rfl, ⟨-, heq⟩ | ⟨-, heq⟩⟩
  · rw [heq, hack]
    exact (SameTiming.refl _).eased
  · rw [heq, hack, Bool.true_and]
    exact hreceived.same (fillWindow_sameTiming _)
  · rw [heq, hack, Bool.true_and]
    exact hreceived

theorem replyToData_sameTiming (c : TCPConnection) (seg : TCPSegment) :
    SameTiming c.sender (c.replyToData seg).sender := by
  rcases c.replyToData_cases seg with ⟨-, heq⟩ | ⟨-, ⟨-, heq⟩ | heq⟩
  · rw [heq]
    exact .refl _
  · rw [heq]
    exact fillWindow_sameTiming _
  · rw [heq]
    exact ⟨rfl, rfl, rfl, rfl⟩

theorem replyToKeepAlive_sameTiming (c : TCPConnection) (seg : TCPSegment) :
    SameTiming c.sender (c.replyToKeepAlive seg).sender := by
  rcases c.replyToKeepAlive_cases seg with ⟨-, heq⟩ | ⟨-, heq⟩
  · rw [heq]
    exact ⟨rfl, rfl, rfl, rfl⟩
  · rw [heq]
    exact .refl _

theorem noteReset_sameTiming (c : TCPConnection) (seg : TCPSegment) :
    SameTiming c.sender (c.noteReset seg).sender := by
  obtain ⟨_, _, _, heq⟩ := c.noteReset_frame seg
  rw [heq]
  exact ⟨rfl, rfl, rfl, rfl⟩

theorem segmentReceived_eased (c : TCPConnection) (seg : TCPSegment) :
    Eased (advertisesZero (.segment seg)) c.sender (c.segmentReceived seg).sender := by
  have hprocess : Eased (advertisesZero (.segment seg)) c.sender (c.processSegment seg).sender := by
    unfold processSegment
    simp only [noteInboundEnd_sender]
    refine Eased.same (Eased.same ?_ (replyToData_sameTiming _ seg))
      (replyToKeepAlive_sameTiming _ seg)
    have hack := takeAck_eased
      { c.noteReset seg with receiver := (c.noteReset seg).receiver.segmentReceived seg } seg
    exact Eased.after (noteReset_sameTiming c seg) hack
  exact hprocess.same ⟨rfl, rfl, rfl, rfl⟩

/-- A tick of the connection is one of its sender, as far as the timing goes. -/
theorem tick_sameTiming (c : TCPConnection) (ms : ℕ) :
    SameTiming (c.sender.tick ms) (c.tick ms).sender := by
  rcases c.tick_cases ms with ⟨-, heq⟩ | ⟨-, active, -, heq⟩
  · obtain ⟨front, rest, -, hreset⟩ := (c.passTime ms).sendReset_abort
    rw [heq, hreset]
    exact ⟨rfl, rfl, rfl, rfl⟩
  · rw [heq]
    exact ⟨rfl, rfl, rfl, rfl⟩

theorem connStep_sameTiming (c : TCPConnection) {op : ConnOp} (h : timed op = false) :
    SameTiming c.sender (connStep c op).sender := by
  cases op with
  | segment seg => cases h
  | tick ms => cases h
  | write data =>
    show SameTiming c.sender (c.write data).1.sender
    rcases c.write_cases data with heq | heq <;> rw [heq]
    · exact .refl _
    · have hwrite : SameTiming c.sender (c.sender.writeStream data) := ⟨rfl, rfl, rfl, rfl⟩
      exact (hwrite.trans (fillWindow_sameTiming _)).trans ⟨rfl, rfl, rfl, rfl⟩
  | endInput =>
    have hend : SameTiming c.sender c.sender.endStream := ⟨rfl, rfl, rfl, rfl⟩
    exact (hend.trans (fillWindow_sameTiming _)).trans ⟨rfl, rfl, rfl, rfl⟩
  | connect =>
    show SameTiming c.sender c.connect.sender
    rcases c.connect_cases with heq | heq <;> rw [heq]
    · exact .refl _
    · exact (fillWindow_sameTiming c.sender).trans ⟨rfl, rfl, rfl, rfl⟩
  | read len => exact .refl _
  | popOut => exact .refl _

theorem connStep_zeroWindow (c : TCPConnection) (op : ConnOp) :
    (connStep c op).sender.isWindowSize0 = (c.sender.isWindowSize0 || advertisesZero op) := by
  cases op with
  | segment seg => exact (segmentReceived_eased c seg).zeroWindow
  | tick ms =>
    rw [show advertisesZero (.tick ms) = false from rfl, Bool.or_false]
    exact (tick_sameTiming c ms).zeroWindow.trans (RetxTrace.tick_zeroWindow c.sender ms)
  | _ => exact (connStep_sameTiming c rfl).eased.zeroWindow

/-- A call without a segment counts an expiry, unless a window of zero was seen. -/
theorem connStep_retransmissions (hzero : c.sender.isWindowSize0 = false)
    (hroom : c.sender.consecutiveRetransmissions + 1 < 2 ^ 32) {op : ConnOp}
    (hseg : isSegment op = false) :
    (connStep c op).sender.consecutiveRetransmissions =
      c.sender.consecutiveRetransmissions + (expiresIn c op).toNat := by
  cases op with
  | segment seg => cases hseg
  | tick ms =>
    refine (tick_sameTiming c ms).retransmissions.trans ?_
    by_cases hexp : c.sender.Expires ms
    · have hcount : expiresIn c (.tick ms) = true := decide_eq_true hexp
      rw [tick_of_expires hexp, hcount, hzero]
      exact Nat.mod_eq_of_lt hroom
    · have hcount : expiresIn c (.tick ms) = false := decide_eq_false hexp
      rw [tick_retransmissions hexp, hcount]
      rfl
  | _ => exact (connStep_sameTiming c rfl).retransmissions

/-! ### While the connection is active -/

/-- While it is active, a connection has not counted too many retransmissions, and the queue of
its sender has been emptied. -/
structure Live (c : TCPConnection) : Prop where
  counted : c.active = true → c.sender.consecutiveRetransmissions ≤ maxRetxAttempts
  flushed : c.active = true → c.sender.segmentsOut = []

theorem active_of_connStep {op : ConnOp} (h : (connStep c op).active = true) :
    c.active = true := by
  cases hactive : c.active with
  | true => rfl
  | false =>
    rw [connStep_active c op (Or.inl hactive)] at h
    cases h

theorem Live.tick (ms : ℕ) : Live (c.tick ms) := by
  rcases c.tick_cases ms with ⟨-, heq⟩ | ⟨hle, active, -, heq⟩
  · obtain ⟨front, rest, -, hreset⟩ := (c.passTime ms).sendReset_abort
    rw [heq, hreset]
    exact ⟨fun hactive => absurd hactive Bool.false_ne_true,
      fun hactive => absurd hactive Bool.false_ne_true⟩
  · rw [heq]
    exact ⟨fun _ => hle, fun _ => rfl⟩

theorem Live.step (h : Live c) (op : ConnOp) : Live (connStep c op) := by
  -- every call but a tick keeps the counter where it is or lowers it
  have hcounted (hle : (connStep c op).sender.consecutiveRetransmissions ≤
      c.sender.consecutiveRetransmissions) (hactive : (connStep c op).active = true) :
      (connStep c op).sender.consecutiveRetransmissions ≤ maxRetxAttempts :=
    hle.trans (h.counted (active_of_connStep hactive))
  have hflushed : c.active = true → c.sender.segmentsOut = [] := h.flushed
  cases op with
  | segment seg => exact ⟨hcounted (segmentReceived_eased c seg).retransmissions, fun _ => rfl⟩
  | tick ms => exact Live.tick ms
  | write data =>
    refine ⟨hcounted (connStep_sameTiming c rfl).retransmissions.le, ?_⟩
    show (c.write data).1.active = true → (c.write data).1.sender.segmentsOut = []
    rcases c.write_cases data with heq | heq <;> rw [heq]
    · exact hflushed
    · exact fun _ => rfl
  | endInput =>
    exact ⟨hcounted (connStep_sameTiming c rfl).retransmissions.le, fun _ => rfl⟩
  | connect =>
    refine ⟨hcounted (connStep_sameTiming c rfl).retransmissions.le, ?_⟩
    show c.connect.active = true → c.connect.sender.segmentsOut = []
    rcases c.connect_cases with heq | heq <;> rw [heq]
    · exact hflushed
    · exact fun _ => rfl
  | read len => exact ⟨h.counted, h.flushed⟩
  | popOut => exact ⟨h.counted, h.flushed⟩

theorem Live.of_run (cfg : TCPConfig) (random : WrappingInt32) (ops : List ConnOp) :
    Live (run connStep (TCPConnection.new cfg random) ops) :=
  run_invariant_of_step (fun _ op h => h.step op) ⟨fun _ => Nat.zero_le _, fun _ => rfl⟩ ops

/-- Without a window of zero the flag stays as it is. -/
theorem zeroWindow_of_run {ops : List ConnOp} (h : ∀ op ∈ ops, advertisesZero op = false) :
    (run connStep c ops).sender.isWindowSize0 = c.sender.isWindowSize0 := by
  induction ops generalizing c with
  | nil => rfl
  | cons op ops ih =>
    rw [run_cons, ih (fun op hop => h op (List.mem_cons_of_mem _ hop)), connStep_zeroWindow,
      h op List.mem_cons_self, Bool.or_false]

/-- How many calls of the run let the timer run out. -/
def expiries (c : TCPConnection) : List ConnOp → ℕ
  | [] => 0
  | op :: ops => (expiresIn c op).toNat + expiries (connStep c op) ops

/-- **Enough counted expiries end the connection.** -/
theorem inactive_of_expiries {ops : List ConnOp} (hlive : Live c)
    (hzero : c.sender.isWindowSize0 = false) (hquiet : ∀ op ∈ ops, isSegment op = false)
    (hmany : maxRetxAttempts < c.sender.consecutiveRetransmissions + expiries c ops) :
    (run connStep c ops).active = false := by
  induction ops generalizing c with
  | nil =>
    cases hactive : c.active with
    | false => exact hactive
    | true => exact absurd (hlive.counted hactive) (not_le.mpr hmany)
  | cons op ops ih =>
    cases hactive : c.active with
    | false =>
      exact run_invariant_of_step (I := fun c => c.active = false)
        (fun c op h => connStep_active c op (Or.inl h)) hactive (op :: ops)
    | true =>
      have hop : isSegment op = false := hquiet op List.mem_cons_self
      have hroom : c.sender.consecutiveRetransmissions + 1 < 2 ^ 32 := by
        have := hlive.counted hactive
        unfold maxRetxAttempts at this
        omega
      refine ih (hlive.step op) ?_ (fun op hmem => hquiet op (List.mem_cons_of_mem _ hmem)) ?_
      · have hnozero : advertisesZero op = false := by
          cases op with
          | segment seg => cases hop
          | _ => rfl
        rw [connStep_zeroWindow, hzero, hnozero, Bool.or_false]
      · rw [connStep_retransmissions hzero hroom hop, add_assoc]
        exact hmany

end

/-- **The backoff follows the window where the flag does.**  Every expiry of a sender's run sends
the oldest outstanding segment again, restarts the timer, and counts according to the last window
advertised, exactly when the flag agrees with that window (and the counters have room) at every
expiry.  A connection none of whose acknowledgments advertised a window of zero gives up on its
peer after `maxRetxAttempts + 1` expiries without a segment. -/
theorem backoff_follows_window (capacity : ℕ) (retxTimeout : UInt16)
    (fixedIsn : Option WrappingInt32) (random : WrappingInt32) (ops : List SenderOp)
    (cfg : TCPConfig) (calls silence : List ConnOp) :
    (Along RetxTrace.retxStep RetxTrace.FollowsWindow
        (.start (TCPSender.new capacity retxTimeout fixedIsn random)) ops ↔
      Along RetxTrace.retxStep RetxTrace.FlagAgrees
        (.start (TCPSender.new capacity retxTimeout fixedIsn random)) ops) ∧
    ((∀ op ∈ calls, advertisesZero op = false) → (∀ op ∈ silence, isSegment op = false) →
      maxRetxAttempts + 1 ≤ expiries (run connStep (TCPConnection.new cfg random) calls) silence →
      (run connStep (TCPConnection.new cfg random) (calls ++ silence)).active = false) := by
  refine ⟨RetxTrace.followsWindow_iff_flagAgrees .., fun hnozero hquiet hmany => ?_⟩
  rw [run_append]
  refine inactive_of_expiries (Live.of_run cfg random calls) ?_ hquiet ?_
  · rw [zeroWindow_of_run hnozero]
    rfl
  · omega

/-- The ISN is fixed at zero. -/
def zeroCfg : TCPConfig := { fixedIsn := some ⟨0⟩ }

/-- An acknowledgment of the SYN, with the given window; the peer's own SYN is at `7`. -/
def synAck (win : UInt16) : TCPSegment :=
  { header := { seqno := ⟨7⟩, syn := true, ack := true, ackno := ⟨1⟩, win := win } }

/-- A SYN sent twice before it is acknowledged; and the handshake, and one byte written to a peer
that then falls silent. -/
theorem backoff_follows_window_silent :
    Along RetxTrace.retxStep RetxTrace.FollowsWindow
        (.start (TCPSender.new 64000 1000 (some ⟨0⟩) ⟨0⟩))
        [.fillWindow, .tick 1000, .ackReceived ⟨1⟩ 10] ∧
      expiries (run connStep (TCPConnection.new zeroCfg ⟨0⟩)
        [.connect, .segment (synAck 10), .write [97]]) (List.replicate 9 (.tick 512000)) = 9 ∧
      (run connStep (TCPConnection.new zeroCfg ⟨0⟩)
        ([.connect, .segment (synAck 10), .write [97]] ++ List.replicate 9 (.tick 512000))).active
          = false := by
  have h := backoff_follows_window 64000 1000 (some ⟨0⟩) ⟨0⟩
    [.fillWindow, .tick 1000, .ackReceived ⟨1⟩ 10] zeroCfg
    [.connect, .segment (synAck 10), .write [97]] (List.replicate 9 (.tick 512000))
  have hmany : expiries (run connStep (TCPConnection.new zeroCfg ⟨0⟩)
      [.connect, .segment (synAck 10), .write [97]]) (List.replicate 9 (.tick 512000)) = 9 := by
    decide +kernel
  exact ⟨h.1.mpr (by decide +kernel), hmany, h.2 (by decide) (by decide) hmany.ge⟩

/-- A window of zero and then one of ten: the sender's expiry is not counted, and the connection
survives twenty of them. -/
theorem backoff_fails_after_zero_window :
    ¬ Along RetxTrace.retxStep RetxTrace.FollowsWindow
        (.start (TCPSender.new 64000 1000 (some ⟨0⟩) ⟨0⟩))
        [.fillWindow, .ackReceived ⟨1⟩ 0, .ackReceived ⟨1⟩ 10, .write [97], .fillWindow,
          .tick 1000] ∧
      expiries (run connStep (TCPConnection.new zeroCfg ⟨0⟩)
        [.connect, .segment (synAck 0), .segment (synAck 10), .write [97]])
          (List.replicate 20 (.tick 1000)) = 20 ∧
      (run connStep (TCPConnection.new zeroCfg ⟨0⟩)
        ([.connect, .segment (synAck 0), .segment (synAck 10), .write [97]] ++
          List.replicate 20 (.tick 1000))).active = true := by
  refine ⟨?_, by decide +kernel, by decide +kernel⟩
  rw [RetxTrace.followsWindow_iff_flagAgrees]
  decide +kernel

/-! ### The abort -/

/-- The abort of a tick as its description has it: one empty RST segment leaves, nothing stays
behind, and the state is RESET. -/
structure AbortsCleanly (c : TCPConnection) (ms : ℕ) : Prop where
  enqueues : ∃ seg, enqueued c (.tick ms) = [seg] ∧ seg.header.rst = true ∧
    seg.lengthInSequenceSpace = 0 ∧
    seg.header.seqno = wrap (c.tick ms).sender.nextSeqno (c.tick ms).sender.isn ∧
    ∀ ackno, (c.tick ms).receiver.ackno = some ackno → seg.header.ack = true ∧
      seg.header.ackno = ackno ∧
      seg.header.win = UInt16.ofNat (min (c.tick ms).receiver.windowSize 65535)
  empties : (c.tick ms).sender.segmentsOut = []
  resets : (c.tick ms).state = .ofState .reset

/-- What `send_empty_segment` enqueues. -/
def emptySegment (st : TCPSender) : TCPSegment :=
  { header := { seqno := wrap st.nextSeqno st.isn } }

/-- The abort as it is: the retransmission leaves with the RST flag, and the empty segment stays
in the sender's queue. -/
structure AbortsWithData (c : TCPConnection) (ms : ℕ) : Prop where
  enqueues : ∃ oldest rest, c.sender.outstandingSegments = oldest :: rest ∧
    oldest.lengthInSequenceSpace ≠ 0 ∧
    enqueued c (.tick ms) = [stamp (c.tick ms).receiver
      { oldest with header := { oldest.header with rst := true } }]
  keeps : (c.tick ms).sender.segmentsOut = [emptySegment (c.tick ms).sender]
  resets : (c.tick ms).state = .ofState .reset

section Abort

variable {c : TCPConnection} {ms : ℕ}

/-- The tick that aborts an active connection is one in which the timer runs out. -/
theorem Live.expires (h : Live c) (hactive : c.active = true)
    (hexceeds : (c.sender.tick ms).consecutiveRetransmissions > maxRetxAttempts) :
    c.sender.Expires ms := by
  by_contra hexp
  rw [tick_retransmissions hexp] at hexceeds
  exact absurd (h.counted hactive) (not_le.mpr hexceeds)

/-- What the abort leaves of the connection, from the oldest segment outstanding. -/
theorem tick_abort {oldest : TCPSegment} {rest : List TCPSegment} (h : Live c)
    (hactive : c.active = true)
    (hexceeds : (c.sender.tick ms).consecutiveRetransmissions > maxRetxAttempts)
    (hcons : c.sender.outstandingSegments = oldest :: rest) :
    c.tick ms =
      { (c.passTime ms).shutdown with
        segmentsOut := c.segmentsOut ++ [stamp c.receiver.errorStream
          { oldest with header := { oldest.header with rst := true } }]
        sender :=
          { (c.sender.tick ms).errorStream with
            segmentsOut := [emptySegment (c.sender.tick ms)] } } := by
  have hqueue : (c.passTime ms).abort.sender.segmentsOut =
      [oldest, emptySegment (c.sender.tick ms)] := by
    show (c.sender.tick ms).segmentsOut ++ [emptySegment (c.sender.tick ms)] = _
    have hsent : (c.sender.tick ms).segmentsOut = [oldest] := by
      rw [tick_of_expires (h.expires hactive hexceeds), h.flushed hactive, hcons]
      rfl
    rw [hsent]
    rfl
  rcases c.tick_cases ms with ⟨-, heq⟩ | ⟨hle, -⟩
  · obtain ⟨front, queue, hcons', hreset⟩ := (c.passTime ms).sendReset_abort
    rw [hqueue] at hcons'
    obtain ⟨rfl, rfl⟩ := List.cons.inj hcons'
    rw [heq, hreset]
    rfl
  · exact absurd hexceeds (not_lt.mpr hle)

theorem Live.abortsWithData (h : Live c) (hok : SenderOk c.sender) (hactive : c.active = true)
    (hexceeds : (c.sender.tick ms).consecutiveRetransmissions > maxRetxAttempts) :
    AbortsWithData c ms := by
  obtain ⟨accepted, acked, hinv⟩ := hok
  have hrun := (h.expires hactive hexceeds).1
  obtain ⟨oldest, rest, hcons⟩ := List.exists_cons_of_ne_nil (hinv.timer.mp hrun)
  have htick := tick_abort h hactive hexceeds hcons
  refine ⟨⟨oldest, rest, hcons, ?_, ?_⟩, ?_, ?_⟩
  · exact (hinv.sent acked oldest rest (by rw [hcons])).nonempty
  · show (c.tick ms).segmentsOut.drop c.segmentsOut.length = _
    rw [htick]
    exact List.drop_left
  · rw [htick]
    rfl
  · rw [htick]
    rfl

end Abort

/-- **No abort leaves with an empty segment.**  Whenever a tick makes an active connection count
too many retransmissions, the segment that leaves with the RST flag is the retransmission, and the
empty segment made for the purpose stays in the sender's queue. -/
theorem not_abortsCleanly (cfg : TCPConfig) (random : WrappingInt32) (ops : List ConnOp) (ms : ℕ)
    (hactive : (run connStep (TCPConnection.new cfg random) ops).active = true)
    (hexceeds : ((run connStep (TCPConnection.new cfg random) ops).sender.tick
      ms).consecutiveRetransmissions > maxRetxAttempts) :
    ¬ AbortsCleanly (run connStep (TCPConnection.new cfg random) ops) ms ∧
      AbortsWithData (run connStep (TCPConnection.new cfg random) ops) ms := by
  have hok : SenderOk (run connStep (TCPConnection.new cfg random) ops).sender :=
    run_invariant_of_step (I := fun c : TCPConnection => SenderOk c.sender)
      (fun _ op h => h.step op) ⟨[], [], TCPSender.new_inv ..⟩ ops
  have habort := (Live.of_run cfg random ops).abortsWithData hok hactive hexceeds
  refine ⟨fun hclean => ?_, habort⟩
  have hempty := hclean.empties
  rw [habort.keeps] at hempty
  cases hempty

/-- A connection whose SYN is never answered: eight expiries are survived, the ninth aborts. -/
theorem not_abortsCleanly_connect :
    ¬ AbortsCleanly (run connStep (TCPConnection.new zeroCfg ⟨0⟩)
        (.connect :: List.replicate 8 (.tick 512000))) 512000 ∧
      AbortsWithData (run connStep (TCPConnection.new zeroCfg ⟨0⟩)
        (.connect :: List.replicate 8 (.tick 512000))) 512000 :=
  not_abortsCleanly zeroCfg ⟨0⟩ _ 512000 (by decide +kernel) (by decide +kernel)

/-- The handshake, and one byte that is never acknowledged: the RST segment carries the byte and
its sequence number, and an empty segment is left in the queue. -/
theorem abort_sends_data :
    enqueued (run connStep (TCPConnection.new zeroCfg ⟨0⟩)
        ([.connect, .segment (synAck 10), .write [97]] ++ List.replicate 8 (.tick 512000)))
        (.tick 512000) =
      [{ header := { seqno := ⟨1⟩, ack := true, ackno := ⟨8⟩, rst := true, win := 64000 }
         payload := [97] }] ∧
      (run connStep (TCPConnection.new zeroCfg ⟨0⟩)
        ([.connect, .segment (synAck 10), .write [97]] ++
          List.replicate 9 (.tick 512000))).sender.segmentsOut =
        [{ header := { seqno := ⟨2⟩ } }] ∧
      ¬ AbortsCleanly (run connStep (TCPConnection.new zeroCfg ⟨0⟩)
        ([.connect, .segment (synAck 10), .write [97]] ++ List.replicate 8 (.tick 512000)))
        512000 := by
  refine ⟨by decide +kernel, by decide +kernel, ?_⟩
  intro hclean
  exact absurd hclean.empties (by decide +kernel)

end TCPConnection

end Sponge
