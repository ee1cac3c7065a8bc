import Sponge.DeadConnection

/-!
# Retransmission

A tick that lets the timer run out sends the oldest outstanding segment again, counts this and
doubles the timeout, unless an acknowledgment has advertised a window of zero.  An acknowledgment
that pops a segment resets both.  Counter and timeout are 32-bit, so after `2 ^ 32` counted
expiries without a reset the counter is back at zero while the timeout has long become zero:
`RetxTrace` therefore keeps the number of counted expiries apart from the counter, and
`SenderRep` states the invariant of the sender in terms of it.

The flag for a window of zero is never cleared.  A trace also keeps the window of the last
acknowledgment, and `FlagAgrees` says when the two agree.
-/

namespace Sponge

open MachineInt Run Slices

namespace TCPSender

/-! ### The timing of each operation -/

instance (st : TCPSender) (ms : ℕ) : Decidable (st.Expires ms) :=
  inferInstanceAs (Decidable (_ ∧ _))

section

variable {st : TCPSender} {ms : ℕ}

/-- The timing fields of two senders agree. -/
structure SameTiming (st st' : TCPSender) : Prop where
  initial : st'.initialRetransmissionTimeout = st.initialRetransmissionTimeout
  zeroWindow : st'.isWindowSize0 = st.isWindowSize0
  retransmissions : st'.consecutiveRetransmissions = st.consecutiveRetransmissions
  rto : st'.rto = st.rto

theorem fillWindow_sameTiming (st : TCPSender) : SameTiming st st.fillWindow := by
  refine fillWindow_induct (P := SameTiming) ?_ ?_ ?_ st
  · exact fun st _ => ⟨rfl, rfl, rfl, rfl⟩
  · exact fun st _ _ => ⟨rfl, rfl, rfl, rfl⟩
  · intro st _ _ ih
    exact ⟨ih.initial, ih.zeroWindow, ih.retransmissions, ih.rto⟩

/-- What the pop loop does to the timing: nothing, or it pops a segment and resets the counter and
the timeout. -/
structure PopTiming (st st' : TCPSender) : Prop where
  initial : st'.initialRetransmissionTimeout = st.initialRetransmissionTimeout
  zeroWindow : st'.isWindowSize0 = st.isWindowSize0
  counter : (st'.outstandingSegments.length = st.outstandingSegments.length ∧
      st'.consecutiveRetransmissions = st.consecutiveRetransmissions ∧ st'.rto = st.rto) ∨
    (st'.outstandingSegments.length < st.outstandingSegments.length ∧
      st'.consecutiveRetransmissions = 0 ∧ st'.rto = st.initialRetransmissionTimeout)

theorem PopTiming.refl (st : TCPSender) : PopTiming st st := ⟨rfl, rfl, Or.inl ⟨rfl, rfl, rfl⟩⟩

/-- What the pop loop does to one segment. -/
def popFront (st : TCPSender) (segment : TCPSegment) (rest : List TCPSegment) : TCPSender :=
  { st with
    outstandingSegments := rest
    bytesInFlight := sub64 st.bytesInFlight segment.lengthInSequenceSpace
    rto := st.initialRetransmissionTimeout
    consecutiveRetransmissions := 0
    timer := st.timer.start }

/-- The pop loop stops at this segment. -/
def StopsAt (absAckno : ℕ) (st : TCPSender) (segment : TCPSegment) : Prop :=
  absAckno < u64 (unwrap segment.header.seqno st.isn st.recentAbsAckno +
    segment.lengthInSequenceSpace) ∨ absAckno > st.nextSeqno

instance (absAckno : ℕ) (st : TCPSender) (segment : TCPSegment) :
    Decidable (StopsAt absAckno st segment) := inferInstanceAs (Decidable (_ ∨ _))

theorem popAcked_cons (absAckno : ℕ) (segment : TCPSegment) (rest : List TCPSegment)
    (st : TCPSender) :
    popAcked absAckno (segment :: rest) st =
      if StopsAt absAckno st segment then st
      else popAcked absAckno rest (st.popFront segment rest) := rfl

theorem PopTiming.cons {st' : TCPSender} {segment : TCPSegment} {rest : List TCPSegment}
    (hqueue : st.outstandingSegments = segment :: rest)
    (h : PopTiming (st.popFront segment rest) st') : PopTiming st st' := by
  have hrest : (st.popFront segment rest).outstandingSegments.length = rest.length := rfl
  refine ⟨h.initial, h.zeroWindow, Or.inr ?_⟩
  rw [hqueue, List.length_cons]
  rcases h.counter with ⟨hlen, hcount, hrto⟩ | ⟨hlen, hcount, hrto⟩
  · exact ⟨by omega, hcount, hrto⟩
  · exact ⟨by omega, hcount, hrto⟩

theorem popAcked_timing (absAckno : ℕ) (queue : List TCPSegment) (st : TCPSender)
    (hqueue : st.outstandingSegments = queue) : PopTiming st (popAcked absAckno queue st) := by
  induction queue generalizing st with
  | nil => exact .refl st
  | cons segment rest ih =>
    rw [popAcked_cons]
    split
    · exact .refl st
    · exact (ih _ rfl).cons hqueue

theorem takeWindow_zeroWindow (st : TCPSender) (window : UInt16) :
    (st.takeWindow window).isWindowSize0 = (st.isWindowSize0 || decide (window = 0)) := by
  rw [takeWindow]
  split
  · rename_i hzero
    simp [hzero]
  · rename_i hzero
    simp [hzero]

/-- An acknowledgment also remembers that its window was zero. -/
theorem ackReceived_timing (st : TCPSender) (ackno : WrappingInt32) (window : UInt16) :
    PopTiming (st.takeWindow window) (st.ackReceived ackno window) := by
  have hpop := popAcked_timing (unwrap ackno (st.takeWindow window).isn
    (st.takeWindow window).recentAbsAckno) _ (st.takeWindow window) rfl
  rw [ackReceived]
  dsimp only
  split
  · exact ⟨hpop.initial, hpop.zeroWindow, hpop.counter⟩
  · exact ⟨hpop.initial, hpop.zeroWindow, hpop.counter⟩

/-- The operations that can change the timing. -/
def SenderOp.timed : SenderOp → Bool
  | .ackReceived _ _ => true
  | .tick _ => true
  | _ => false

theorem senderStep_sameTiming (st : TCPSender) {op : SenderOp} (h : op.timed = false) :
    SameTiming st (senderStep st op) := by
  cases op with
  | fillWindow => exact fillWindow_sameTiming st
  | ackReceived ackno window => cases h
  | tick ms => cases h
  | _ => exact ⟨rfl, rfl, rfl, rfl⟩

end

/-! ### The subtractions of the pop loop -/

/-- Every segment that the pop loop takes is at most as long as what is in flight then. -/
def PopsSafely (absAckno : ℕ) : List TCPSegment → TCPSender → Prop
  | [], _ => True
  | segment :: rest, st => ¬ StopsAt absAckno st segment →
      segment.lengthInSequenceSpace ≤ st.bytesInFlight ∧
        PopsSafely absAckno rest (st.popFront segment rest)

theorem popsSafely_of_flight {absAckno : ℕ} {queue : List TCPSegment} {st : TCPSender}
    (hflight : seqLen queue ≤ st.bytesInFlight) (hlt : st.bytesInFlight < 2 ^ 64) :
    PopsSafely absAckno queue st := by
  induction queue generalizing st with
  | nil => trivial
  | cons segment rest ih =>
    intro _
    rw [seqLen_cons] at hflight
    have hsub : (st.popFront segment rest).bytesInFlight =
        st.bytesInFlight - segment.lengthInSequenceSpace := sub64_of_le hlt (by omega)
    exact ⟨by omega, ih (by omega) (by omega)⟩

/-! ### Traces with the counted expiries -/

/-- A sender, the expiries that it has counted since the last reset, and the window of the last
acknowledgment. -/
structure RetxTrace where
  sender : TCPSender
  counted : ℕ := 0
  lastWindow : Option UInt16 := none

namespace RetxTrace

def countedAfter (t : RetxTrace) : SenderOp → ℕ
  | .tick ms =>
    if t.sender.Expires ms ∧ t.sender.isWindowSize0 = false then t.counted + 1 else t.counted
  | .ackReceived ackno window =>
    if (t.sender.ackReceived ackno window).outstandingSegments.length <
        t.sender.outstandingSegments.length then 0
    else t.counted
  | _ => t.counted

def lastWindowAfter (t : RetxTrace) : SenderOp → Option UInt16
  | .ackReceived _ window => some window
  | _ => t.lastWindow

def retxStep (t : RetxTrace) (op : SenderOp) : RetxTrace where
  sender := senderStep t.sender op
  counted := t.countedAfter op
  lastWindow := t.lastWindowAfter op

def start (st : TCPSender) : RetxTrace := { sender := st }

/-- The counter and the timeout, from the number of counted expiries. -/
structure Counts (initial : ℕ) (t : RetxTrace) : Prop where
  timeout : t.sender.initialRetransmissionTimeout = initial
  counter : t.sender.consecutiveRetransmissions = u32 t.counted
  rto : t.sender.rto = u32 (initial * 2 ^ t.counted)

variable {initial : ℕ} {t : RetxTrace}

theorem Counts.start {st : TCPSender} (hcounter : st.consecutiveRetransmissions = 0)
    (hrto : st.rto = st.initialRetransmissionTimeout)
    (hlt : st.initialRetransmissionTimeout < 2 ^ 32) :
    Counts st.initialRetransmissionTimeout (start st) where
  timeout := rfl
  counter := hcounter
  rto := by
    show st.rto = u32 (st.initialRetransmissionTimeout * 2 ^ 0)
    rw [hrto, pow_zero, Nat.mul_one]
    exact (Nat.mod_eq_of_lt hlt).symm

theorem Counts.same (h : Counts initial t) {st' : TCPSender} (hsame : SameTiming t.sender st')
    {lastWindow : Option UInt16} : Counts initial ⟨st', t.counted, lastWindow⟩ :=
  ⟨hsame.initial.trans h.timeout, hsame.retransmissions.trans h.counter, hsame.rto.trans h.rto⟩

theorem Counts.tick (h : Counts initial t) (ms : ℕ) : Counts initial (t.retxStep (.tick ms)) := by
  by_cases hexp : t.sender.Expires ms
  · cases hzero : t.sender.isWindowSize0 with
    | true =>
      have hcounted : t.countedAfter (.tick ms) = t.counted :=
        if_neg fun hall => by rw [hzero] at hall; cases hall.2
      rw [retxStep, hcounted]
      refine h.same ?_
      show SameTiming t.sender (t.sender.tick ms)
      rw [tick_of_expires hexp, hzero]
      exact ⟨rfl, hzero.symm, rfl, rfl⟩
    | false =>
      have hcounted : t.countedAfter (.tick ms) = t.counted + 1 := if_pos ⟨hexp, hzero⟩
      have hsender : senderStep t.sender (.tick ms) = t.sender.tick ms := rfl
      rw [retxStep, hcounted, hsender, tick_of_expires hexp, hzero]
      refine ⟨h.timeout, ?_, ?_⟩
      · show u32 (t.sender.consecutiveRetransmissions + 1) = u32 (t.counted + 1)
        rw [h.counter]
        exact Nat.mod_add_mod ..
      · show u32 (t.sender.rto * 2) = u32 (initial * 2 ^ (t.counted + 1))
        rw [h.rto, pow_succ, ← Nat.mul_assoc]
        exact (Nat.mod_mul_mod ..)
  · have hcounted : t.countedAfter (.tick ms) = t.counted := if_neg fun hall => hexp hall.1
    rw [retxStep, hcounted]
    refine h.same ?_
    show SameTiming t.sender (t.sender.tick ms)
    rw [tick_of_not_expires hexp]
    exact ⟨rfl, rfl, rfl, rfl⟩

theorem Counts.ack (h : Counts initial t) (hlt : initial < 2 ^ 32) (ackno : WrappingInt32)
    (window : UInt16) : Counts initial (t.retxStep (.ackReceived ackno window)) := by
  have ht := ackReceived_timing t.sender ackno window
  obtain ⟨zero, hwindow⟩ := takeWindow_eq t.sender window
  rw [hwindow] at ht
  have hsender : senderStep t.sender (.ackReceived ackno window) =
      t.sender.ackReceived ackno window := rfl
  rcases ht.counter with ⟨hlen, hcount, hrto⟩ | ⟨hlen, hcount, hrto⟩
  · have hcounted : t.countedAfter (.ackReceived ackno window) = t.counted :=
      if_neg (show ¬ _ < t.sender.outstandingSegments.length from hlen.not_lt)
    rw [retxStep, hcounted, hsender]
    exact ⟨ht.initial.trans h.timeout, hcount.trans h.counter, hrto.trans h.rto⟩
  · have hcounted : t.countedAfter (.ackReceived ackno window) = 0 := if_pos hlen
    rw [retxStep, hcounted, hsender]
    refine ⟨ht.initial.trans h.timeout, hcount, ?_⟩
    show (t.sender.ackReceived ackno window).rto = u32 (initial * 2 ^ 0)
    rw [hrto, pow_zero, Nat.mul_one, u32, Nat.mod_eq_of_lt hlt]
    exact h.timeout

/-- **Step.** -/
theorem Counts.step (h : Counts initial t) (hlt : initial < 2 ^ 32) (op : SenderOp) :
    Counts initial (t.retxStep op) := by
  cases op with
  | tick ms => exact h.tick ms
  | ackReceived ackno window => exact h.ack hlt ackno window
  | _ =>
    exact h.same (senderStep_sameTiming t.sender rfl)

theorem run_sender (st : TCPSender) (ops : List SenderOp) :
    (run retxStep (start st) ops).sender = run senderStep st ops :=
  run_map (f := sender) (fun _ _ => rfl) (start st) ops

theorem Counts.of_run (capacity : ℕ) (retxTimeout : UInt16) (fixedIsn : Option WrappingInt32)
    (random : WrappingInt32) (ops : List SenderOp) :
    Counts retxTimeout.toNat
      (run retxStep (.start (TCPSender.new capacity retxTimeout fixedIsn random)) ops) := by
  have hlt : retxTimeout.toNat < 2 ^ 32 := retxTimeout.toNat_lt.trans (by decide)
  have hstart : Counts (TCPSender.new capacity retxTimeout fixedIsn
      random).initialRetransmissionTimeout (RetxTrace.start _) := Counts.start rfl rfl hlt
  exact run_invariant_of_step (fun t op h => h.step hlt op) hstart ops

end RetxTrace

theorem SenderTrace.run_sender (st : TCPSender) (ops : List SenderOp) :
    (run SenderTrace.traceStep (SenderTrace.start st) ops).sender = run senderStep st ops :=
  run_map (f := SenderTrace.sender) (fun _ _ => rfl) (SenderTrace.start st) ops

/-- The invariant of the sender's queues and counters holds in every run. -/
theorem senderInv_of_run (capacity : ℕ) (retxTimeout : UInt16) (fixedIsn : Option WrappingInt32)
    (random : WrappingInt32) (ops : List SenderOp) :
    ∃ accepted acked,
      SenderInv accepted acked
        (run senderStep (TCPSender.new capacity retxTimeout fixedIsn random) ops) ∧
      (run senderStep (TCPSender.new capacity retxTimeout fixedIsn random) ops).isn =
        fixedIsn.getD random := by
  obtain ⟨acked, h⟩ := SenderTrace.TraceInv.of_run capacity retxTimeout fixedIsn random ops
  have hinv := h.inv
  have hisn := h.isn
  rw [SenderTrace.run_sender] at hinv hisn
  exact ⟨_, acked, hinv, hisn⟩

/-! ### The representation invariant -/

/-- The invariant of the sender's representation, with the number of expiries counted since the
last reset. -/
structure SenderRep (isn : WrappingInt32) (initial counted : ℕ) (st : TCPSender) : Prop where
  /-- The outstanding segments follow one another in sequence space. -/
  seqno : ∀ i (hi : i < st.outstandingSegments.length), st.outstandingSegments[i].header.seqno =
    wrap (st.nextSeqno - st.bytesInFlight + seqLen (st.outstandingSegments.take i)) isn
  ends : st.nextSeqno - st.bytesInFlight + seqLen st.outstandingSegments = st.nextSeqno
  flight : st.bytesInFlight = seqLen st.outstandingSegments
  /-- No acknowledgment whatsoever takes more out of flight than there is. -/
  pops : ∀ ackno window, PopsSafely (st.absAckno ackno) st.outstandingSegments
    (st.takeWindow window)
  timer : st.timer.ifRun = true ↔ st.outstandingSegments ≠ []
  retransmissions : st.consecutiveRetransmissions = u32 counted
  rto : st.rto = u32 (initial * 2 ^ counted)

/-- **The representation invariant of the sender** holds in every state of every run. -/
theorem senderRep_of_run (capacity : ℕ) (retxTimeout : UInt16) (fixedIsn : Option WrappingInt32)
    (random : WrappingInt32) (ops : List SenderOp) :
    let t := run RetxTrace.retxStep
      (RetxTrace.start (TCPSender.new capacity retxTimeout fixedIsn random)) ops
    SenderRep (fixedIsn.getD random) retxTimeout.toNat t.counted t.sender := by
  intro t
  have hcounts : RetxTrace.Counts retxTimeout.toNat t := .of_run ..
  obtain ⟨accepted, acked, hinv, hisn⟩ :=
    senderInv_of_run capacity retxTimeout fixedIsn random ops
  rw [← RetxTrace.run_sender] at hinv hisn
  have hnext := hinv.next
  have hle := hinv.flight_le
  rw [seqLen_append] at hnext
  have hbase : t.sender.nextSeqno - t.sender.bytesInFlight = seqLen acked := by
    rw [hinv.flight, hnext]
    omega
  refine ⟨fun i hi => ?_, ?_, hinv.flight, fun ackno window => ?_, hinv.timer, hcounts.counter,
    hcounts.rto⟩
  · have hplaced := hinv.sent (acked ++ t.sender.outstandingSegments.take i) _ _
      (by rw [List.append_assoc, ← split_at t.sender.outstandingSegments hi])
    rw [hplaced.seqno, hbase, seqLen_append, hisn]
  · rw [hbase]
    exact hnext.symm
  · obtain ⟨zero, hwindow⟩ := takeWindow_eq t.sender window
    rw [hwindow]
    exact popsSafely_of_flight hinv.flight.ge (hle.trans_lt hinv.next_lt)

/-- A tick that lets any timer run out that has just been started. -/
def longTick : SenderOp := .tick (2 ^ 32 - 1)

/-- Long ticks are all counted while no window of zero has been seen. -/
theorem RetxTrace.counted_longTicks {initial : ℕ} {t : RetxTrace}
    (h : RetxTrace.Counts initial t) (htimer : t.sender.timer = { elapsedTime := 0, ifRun := true })
    (hzero : t.sender.isWindowSize0 = false) (n : ℕ) :
    (run retxStep t (List.replicate n longTick)).counted = t.counted + n ∧
      (run retxStep t (List.replicate n longTick)).sender.nextSeqno = t.sender.nextSeqno := by
  induction n generalizing t with
  | zero => exact ⟨rfl, rfl⟩
  | succ n ih =>
    have hexp : t.sender.Expires (2 ^ 32 - 1) := by
      have hrto : t.sender.rto < 2 ^ 32 := by
        rw [h.rto]
        exact Nat.mod_lt _ (by decide)
      refine ⟨by rw [htimer], ?_⟩
      rw [htimer]
      show u32 (0 + (2 ^ 32 - 1)) ≥ t.sender.rto
      rw [u32]
      omega
    have hsender : (t.retxStep longTick).sender = t.sender.tick (2 ^ 32 - 1) := rfl
    have hcounted : (t.retxStep longTick).counted = t.counted + 1 := if_pos ⟨hexp, hzero⟩
    obtain ⟨hcount, hnext⟩ := ih (h.tick (2 ^ 32 - 1))
      (by rw [← longTick, hsender, tick_of_expires hexp])
      (by rw [← longTick, hsender, tick_of_expires hexp]; exact hzero)
    rw [List.replicate_succ, run_cons]
    refine ⟨hcount.trans ?_, hnext.trans ?_⟩
    · rw [← longTick, hcounted]
      omega
    · rw [← longTick, hsender, tick_of_expires hexp]

theorem u32_mul_two_pow (a : ℕ) {n : ℕ} (h : 32 ≤ n) : u32 (a * 2 ^ n) = 0 :=
  Nat.mod_eq_zero_of_dvd ((pow_dvd_pow 2 h).trans (Nat.dvd_mul_left ..))

/-- After `2 ^ 32` expiries of the SYN's timer the counter is zero again, but the timeout is not
the initial one. -/
theorem rto_fails_on_wrapped_counter :
    let st := run senderStep (TCPSender.new 8 1000 (some ⟨0⟩) ⟨0⟩)
      (.fillWindow :: List.replicate (2 ^ 32) longTick)
    st.nextSeqno < 2 ^ 63 ∧ st.consecutiveRetransmissions = 0 ∧
      st.rto ≠ u32 (1000 * 2 ^ st.consecutiveRetransmissions) := by
  intro st
  have hsyn : RetxTrace.Counts 1000
      (RetxTrace.retxStep (RetxTrace.start (TCPSender.new 8 1000 (some ⟨0⟩) ⟨0⟩)) .fillWindow) :=
    RetxTrace.Counts.of_run 8 1000 (some ⟨0⟩) ⟨0⟩ [.fillWindow]
  have hall : ∀ n, 32 ≤ n → u32 n = 0 → ∀ st : TCPSender,
      st = run senderStep (TCPSender.new 8 1000 (some ⟨0⟩) ⟨0⟩)
        (.fillWindow :: List.replicate n longTick) →
      st.nextSeqno = 1 ∧ st.consecutiveRetransmissions = 0 ∧ st.rto = 0 := by
    intro n hn hwrap st hst
    obtain ⟨hcount, hnext⟩ := RetxTrace.counted_longTicks hsyn (by decide) (by decide) n
    have hc := RetxTrace.Counts.of_run 8 1000 (some ⟨0⟩) ⟨0⟩
      (.fillWindow :: List.replicate n longTick)
    rw [← RetxTrace.run_sender] at hst
    rw [run_cons] at hc hst
    have hcounter := hc.counter
    have hrto := hc.rto
    rw [← hst] at hcounter hrto hnext
    rw [hcount] at hcounter hrto
    refine ⟨hnext, ?_, ?_⟩
    · rw [hcounter, ← hwrap]
      exact congrArg u32 (Nat.zero_add n)
    · rw [hrto]
      exact u32_mul_two_pow _ (by omega)
  obtain ⟨hnext, hcounter, hrto⟩ := hall (2 ^ 32) (by decide) (by decide) st rfl
  rw [hnext, hcounter, hrto]
  decide

/-! ### Backoff and the window -/

namespace RetxTrace

/-- What a tick that lets the timer run out should do: send the oldest outstanding segment and
start the timer anew, and back off unless the last acknowledgment advertised a window of zero. -/
structure BacksOff (t : RetxTrace) (ms : ℕ) : Prop where
  sends : ∃ oldest rest, t.sender.outstandingSegments = oldest :: rest ∧
    (t.sender.tick ms).segmentsOut = t.sender.segmentsOut ++ [oldest]
  restarts : (t.sender.tick ms).timer = { elapsedTime := 0, ifRun := true }
  counts : if t.lastWindow = some 0
    then (t.sender.tick ms).consecutiveRetransmissions = t.sender.consecutiveRetransmissions ∧
      (t.sender.tick ms).rto = t.sender.rto
    else (t.sender.tick ms).consecutiveRetransmissions = t.sender.consecutiveRetransmissions + 1 ∧
      (t.sender.tick ms).rto = t.sender.rto * 2

/-- An expiry backs off as the last window says. -/
def FollowsWindow (t : RetxTrace) : SenderOp → Prop
  | .tick ms => t.sender.Expires ms → BacksOff t ms
  | _ => True

/-- At an expiry the flag agrees with the last window, and there is room to count. -/
def FlagAgrees (t : RetxTrace) : SenderOp → Prop
  | .tick ms => t.sender.Expires ms →
      (t.sender.isWindowSize0 = true ↔ t.lastWindow = some 0) ∧
        (t.lastWindow ≠ some 0 → t.sender.consecutiveRetransmissions + 1 < 2 ^ 32 ∧
          t.sender.rto * 2 < 2 ^ 32)
  | _ => True

instance (t : RetxTrace) : ∀ op : SenderOp, Decidable (t.FlagAgrees op)
  | .tick ms => inferInstanceAs (Decidable (t.sender.Expires ms → _ ∧ (_ ≠ _ → _ < _ ∧ _ < _)))
  | .write _ | .endInput | .setError | .fillWindow | .ackReceived _ _ | .sendEmptySegment
  | .popSegment =>
    inferInstanceAs (Decidable True)

/-- A window of zero sets the flag, and nothing clears it. -/
structure Flagged (t : RetxTrace) : Prop where
  inv : ∃ accepted acked, SenderInv accepted acked t.sender
  flag : t.lastWindow = some 0 → t.sender.isWindowSize0 = true

variable {t : RetxTrace}

/-- At an expiry the oldest segment is sent and the timer restarts in any case. -/
theorem Flagged.backsOff_iff (h : Flagged t) {ms : ℕ} (hexp : t.sender.Expires ms) :
    BacksOff t ms ↔ if t.lastWindow = some 0
      then (t.sender.tick ms).consecutiveRetransmissions = t.sender.consecutiveRetransmissions ∧
        (t.sender.tick ms).rto = t.sender.rto
      else (t.sender.tick ms).consecutiveRetransmissions =
          t.sender.consecutiveRetransmissions + 1 ∧
        (t.sender.tick ms).rto = t.sender.rto * 2 := by
  constructor
  · intro hback
    exact hback.counts
  · intro hcounts
    obtain ⟨accepted, acked, hinv⟩ := h.inv
    obtain ⟨oldest, rest, hqueue⟩ := List.exists_cons_of_ne_nil (hinv.timer.mp hexp.1)
    refine ⟨⟨oldest, rest, hqueue, ?_⟩, ?_, hcounts⟩
    · rw [tick_of_expires hexp, hqueue]
      rfl
    · rw [tick_of_expires hexp]

/-- An expiry counts and doubles if the flag is not set and there is room. -/
theorem tick_counts_iff {st : TCPSender} {ms : ℕ} (hexp : st.Expires ms) :
    ((st.tick ms).consecutiveRetransmissions = st.consecutiveRetransmissions + 1 ∧
      (st.tick ms).rto = st.rto * 2) ↔
    st.isWindowSize0 = false ∧ st.consecutiveRetransmissions + 1 < 2 ^ 32 ∧
      st.rto * 2 < 2 ^ 32 := by
  rw [tick_of_expires hexp]
  cases st.isWindowSize0 with
  | true =>
    refine iff_of_false (fun hall => ?_) fun hall => Bool.noConfusion hall.1
    exact absurd hall.1 (Nat.ne_of_lt (Nat.lt_succ_self _))
  | false =>
    have hmod (n : ℕ) : u32 n = n ↔ n < 2 ^ 32 :=
      ⟨fun h => h ▸ Nat.mod_lt _ (by decide), Nat.mod_eq_of_lt⟩
    exact (and_congr (hmod _) (hmod _)).trans (and_iff_right rfl).symm

theorem Flagged.followsWindow_iff (h : Flagged t) (op : SenderOp) :
    FollowsWindow t op ↔ FlagAgrees t op := by
  cases op with
  | tick ms =>
    refine forall_congr' fun hexp => ?_
    rw [h.backsOff_iff hexp]
    by_cases hlast : t.lastWindow = some 0
    · -- the flag is set, and nothing is counted
      have hset := h.flag hlast
      rw [if_pos hlast, tick_of_expires hexp, hset]
      exact iff_of_true ⟨rfl, rfl⟩ ⟨iff_of_true rfl hlast, fun hne => absurd hlast hne⟩
    · rw [if_neg hlast, tick_counts_iff hexp]
      simp [hlast]
  | _ => exact Iff.rfl

theorem ackReceived_zeroWindow (st : TCPSender) (ackno : WrappingInt32) (window : UInt16) :
    (st.ackReceived ackno window).isWindowSize0 = (st.isWindowSize0 || decide (window = 0)) :=
  (ackReceived_timing st ackno window).zeroWindow.trans (takeWindow_zeroWindow st window)

theorem tick_zeroWindow (st : TCPSender) (ms : ℕ) :
    (st.tick ms).isWindowSize0 = st.isWindowSize0 := by
  by_cases hexp : st.Expires ms
  · rw [tick_of_expires hexp]
  · rw [tick_of_not_expires hexp]

theorem Flagged.step (h : Flagged t) (op : SenderOp) : Flagged (t.retxStep op) := by
  have hother : op.timed = false → SameTiming t.sender (senderStep t.sender op) :=
    senderStep_sameTiming t.sender
  refine ⟨TCPConnection.SenderOk.operation h.inv op, ?_⟩
  cases op with
  | ackReceived ackno window =>
    intro hlast
    have hzero : window = 0 := Option.some.inj hlast
    show (t.sender.ackReceived ackno window).isWindowSize0 = true
    rw [ackReceived_zeroWindow, hzero]
    simp
  | tick ms =>
    intro hlast
    exact (tick_zeroWindow t.sender ms).trans (h.flag hlast)
  | _ =>
    intro hlast
    exact (hother rfl).zeroWindow.trans (h.flag hlast)

/-- **Backoff follows the window in exactly the runs whose flag agrees with it.** -/
theorem followsWindow_iff_flagAgrees (capacity : ℕ) (retxTimeout : UInt16)
    (fixedIsn : Option WrappingInt32) (random : WrappingInt32) (ops : List SenderOp) :
    Along retxStep FollowsWindow
        (.start (TCPSender.new capacity retxTimeout fixedIsn random)) ops ↔
      Along retxStep FlagAgrees
        (.start (TCPSender.new capacity retxTimeout fixedIsn random)) ops := by
  refine along_iff_of_invariant (I := Flagged) (fun t op h _ _ => h.step op)
    (fun t op h _ => h.followsWindow_iff op) ?_ (along_of_forall (fun _ _ => trivial) _ ops)
  exact ⟨⟨[], [], new_inv ..⟩, fun hlast => by cases hlast⟩

end RetxTrace

end TCPSender

end Sponge
