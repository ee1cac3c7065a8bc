import Sponge.SocketSafety

/-!
# From one application to the other

Two sockets over UDP, each with its own kernel, its own clock and its own events.  The network is a
relation between what one socket has sent and what the other has received: a datagram that came from
the peer's address was sent by the peer, and nothing else is assumed.  It may be lost, doubled,
delayed or reordered, and datagrams from other addresses may have any content.  Since a run of each
thread is given with its kernel's answers, this covers every interleaving of the two.
-/

namespace Sponge

open Hoare EventLoop MachineInt Run TCPSpongeSocket TcpThread TCPOverUDPSocketAdapter

/-! ### Adapters over UDP -/

/-- The adapter works over a UDP adapter and keeps to that one's peer. -/
structure OverUdp {α : Type} (A : FdAdapter α) (inner : α → TCPOverUDPSocketAdapter) : Prop where
  keeps : A.Keeps fun a taken given => UdpTracks (inner a) taken given
  configure : ∀ cfg a, inner (A.configure cfg a) = { inner a with cfg }
  setListening : ∀ l a, inner (A.setListening l a) = { inner a with listen := l }

theorem adapter_overUdp : OverUdp adapter id :=
  ⟨adapter_keeps, fun _ _ => rfl, fun _ _ => rfl⟩

namespace TCPOverUDPSocketAdapter

/-- Less taken and more given. -/
theorem UdpTracks.of_subset {a : TCPOverUDPSocketAdapter} {taken given : List TCPSegment}
    (h : UdpTracks a taken given) {taken' given' : List TCPSegment} (htaken : taken' ⊆ taken)
    (hgiven : given ⊆ given') : UdpTracks a taken' given' where
  fresh hl := by
    have hnil := h.fresh hl
    rw [hnil] at htaken
    exact List.subset_nil.mp htaken
  heard seg hseg := h.heard seg (htaken hseg)
  told d hd := by
    obtain ⟨seg, hseg, htold⟩ := h.told d hd
    exact ⟨seg, hgiven hseg, htold⟩

end TCPOverUDPSocketAdapter

theorem thinned_udpTracks :
    LossyFdAdapter.Thinned UdpTracks = fun a taken given => UdpTracks a.adapter taken given := by
  funext a taken given
  refine propext ⟨?_, fun h => ⟨taken, given, .refl _, .refl _, h⟩⟩
  rintro ⟨taken', given', htaken, hgiven, h⟩
  exact h.of_subset htaken.subset hgiven.subset

theorem lossy_overUdp : OverUdp (LossyFdAdapter.lossy adapter) LossyFdAdapter.adapter where
  keeps := by
    have hkeeps := LossyFdAdapter.lossy_keeps adapter_keeps
    rw [thinned_udpTracks] at hkeeps
    exact hkeeps
  configure _ _ := rfl
  setListening _ _ := rfl

/-! ### Opening a socket -/

/-- What a socket is opened with: the arguments of `connect` or `listen_and_accept`, the adapter and
the descriptor it was built with, what the sender draws for its ISN, and the time. -/
structure SocketSetup (α : Type) where
  cTcp : TCPConfig
  cAd : FdAdapterConfig
  random : WrappingInt32
  adapter : α
  threadData : FileDescriptor
  listens : Bool
  now : ℕ

namespace SocketSetup

variable {α : Type} {A : FdAdapter α} {J : α → List TCPSegment → List TCPSegment → Prop}
  {u : SocketSetup α}

def start (A : FdAdapter α) (u : SocketSetup α) : TcpThread α :=
  if u.listens then
    TcpThread.listenAndAccept A u.cTcp u.cAd u.random u.adapter u.threadData u.now
  else TcpThread.connect A u.cTcp u.cAd u.random u.adapter u.threadData u.now

/-- The thread after some turns. -/
def after (A : FdAdapter α) (u : SocketSetup α) (events : List LoopEvent) : TcpThread α :=
  run (threadStep A) (u.start A) events

/-- The adapter as the first turn finds it. -/
def opened (A : FdAdapter α) (u : SocketSetup α) : α :=
  if u.listens then A.setListening true (A.configure u.cAd u.adapter)
  else A.configure u.cAd u.adapter

/-- The initial sequence number. -/
def isn (u : SocketSetup α) : WrappingInt32 := u.cTcp.fixedIsn.getD u.random

/-- The descriptor is new, and the capacities are values of `size_t`. -/
structure New (u : SocketSetup α) : Prop where
  sendCapacity : u.cTcp.sendCapacity < 2 ^ 64
  recvCapacity : u.cTcp.recvCapacity < 2 ^ 64
  received : u.threadData.received = []
  sent : u.threadData.sent = []

theorem socketInv_start (hu : u.New) (hJ : J (u.opened A) [] []) :
    SocketInv J u.isn TCPSpongeSocket.rules (u.start A).socket := by
  obtain ⟨c, hc⟩ : ∃ c, c = TCPConnection.new u.cTcp u.random := ⟨_, rfl⟩
  have hnew : Histories u.isn u.threadData.received u.threadData.sent [] [] c := by
    rw [hu.received, hu.sent, hc]
    exact Histories.new u.cTcp u.random hu.sendCapacity hu.recvCapacity
  have hopen : c.sender.Outbound false := by
    refine ⟨hnew.wf, ?_⟩
    rw [hc]
    rfl
  rw [opened] at hJ
  rw [start]
  split
  · rename_i hlistens
    rw [if_pos hlistens] at hJ
    rw [TcpThread.listenAndAccept, initializeTCP, ← hc]
    exact ⟨hJ, hnew, fun _ _ => hopen.2⟩
  · rename_i hlistens
    rw [if_neg hlistens] at hJ
    rw [TcpThread.connect, initializeTCP, ← hc]
    have hout : (TCPConnection.connStep c .connect).sender.Outbound false :=
      TCPConnection.outbound_connStep hopen nofun
    exact ⟨hJ, hnew.quiet .connect (Or.inr (Or.inl rfl)), fun _ _ => hout.2⟩

theorem start_phase (A : FdAdapter α) (u : SocketSetup α) (e : SystemException) :
    (u.start A).phase ≠ .threw e := by
  rw [start]
  split
  · nofun
  · -- the state after `connect` is the expected one
    have hstate := TCPConnection.state_connect u.cTcp u.random
    obtain ⟨c, hc⟩ : ∃ c, c = (TCPConnection.new u.cTcp u.random).connect := ⟨_, rfl⟩
    rw [← hc] at hstate
    rw [TcpThread.connect, initializeTCP]
    simp only [setTcp, ← hc, hstate, ne_eq, not_true_eq_false, if_false]
    nofun

theorem start_rules (A : FdAdapter α) (u : SocketSetup α) :
    (u.start A).rules = TCPSpongeSocket.rules := by
  rw [start]
  split <;> rfl

theorem threadInv_after (hA : A.Keeps J) (hu : u.New) (hJ : J (u.opened A) [] [])
    (events : List LoopEvent) : ThreadInv J u.isn (u.after A events) := by
  refine ThreadInv.run hA (ThreadInv.of_inv ?_ (start_phase A u) ?_) events
  · rw [start_rules]
  · rw [start_rules]
    exact socketInv_start hu hJ

end SocketSetup

/-! ### Two sockets -/

namespace TCPSpongeSocket

variable {α β : Type} {J : α → List TCPSegment → List TCPSegment → Prop}
  {K : β → List TCPSegment → List TCPSegment → Prop} {isn isn' : WrappingInt32}
  {x : TCPSpongeSocket α} {y : TCPSpongeSocket β}

/-- If the segments that one socket has taken are segments that the other has given away, then the
owner of the one has got a part of what the owner of the other wrote. -/
theorem sent_of_linked (hx : SocketSafe J isn x) (hy : SocketSafe K isn' y)
    (hlink : ∀ seg ∈ y.taken, ∃ given ∈ x.given, SameData seg given)
    (hlen : x.threadData.received.length < 2 ^ 31 - 2) :
    y.threadData.sent <+: x.threadData.received := by
  obtain ⟨accepted, hacc, htransmits⟩ := hx.sends
  obtain ⟨hisn, acked, hinv, hout⟩ := htransmits
  have hcarried : ∀ seg ∈ y.taken, Carried (acked ++ x.tcp.sender.outstandingSegments) seg := by
    intro seg hseg
    obtain ⟨given, hgiven, hsame⟩ := hlink seg hseg
    refine (hout given ?_).of_sameData hsame
    exact List.mem_append_left _ (List.mem_append_left _ hgiven)
  obtain ⟨delivered, hsent, hrecv⟩ := hy.follows _ accepted _ hinv.sent
    (hacc.length_le.trans_lt hlen) hcarried
  exact (hsent.trans hrecv.content.written_prefix).trans hacc

end TCPSpongeSocket

namespace SocketSetup

variable {α β : Type} {A : FdAdapter α} {B : FdAdapter β}
  {inA : α → TCPOverUDPSocketAdapter} {inB : β → TCPOverUDPSocketAdapter}
  {u : SocketSetup α} {v : SocketSetup β}

/-- A datagram that has come from the peer's address is one that the peer has sent. -/
def Genuine (peer self : TCPOverUDPSocketAdapter) : Prop :=
  ∀ datagram ∈ self.sock.datagramsIn, datagram.sourceAddress = self.config.destination →
    ∃ out ∈ peer.sock.datagramsOut, out.2 = datagram.payload

theorem udpTracks_opened (hA : OverUdp A inA) (hu : (inA u.adapter).sock.datagramsOut = []) :
    UdpTracks (inA (u.opened A)) [] [] := by
  have hsock : (inA (u.opened A)).sock = (inA u.adapter).sock := by
    rw [opened]
    split
    · rw [hA.setListening, hA.configure]
    · rw [hA.configure]
  refine ⟨fun _ => rfl, List.forall_mem_nil _, ?_⟩
  rw [hsock, hu]
  exact List.forall_mem_nil _

/-- **Safety from one owner to the other, over UDP.**  Whatever the network loses, doubles and
reorders, whatever others send, however the rounds of the two threads interleave and whatever stops
them: the bytes that one owner has got are a prefix of the bytes that the other owner's socket has
read. -/
theorem owner_gets_only_written (hA : OverUdp A inA) (hB : OverUdp B inB) (hu : u.New) (hv : v.New)
    (hsockA : (inA u.adapter).sock.datagramsOut = [])
    (hsockB : (inB v.adapter).sock.datagramsOut = []) (events events' : List LoopEvent)
    (hnet : Genuine (inA (u.after A events).socket.datagramAdapter)
      (inB (v.after B events').socket.datagramAdapter))
    (hlen : (u.after A events).socket.threadData.received.length < 2 ^ 31 - 2) :
    (v.after B events').socket.threadData.sent <+:
      (u.after A events).socket.threadData.received := by
  have hx := (threadInv_after hA.keeps hu (udpTracks_opened hA hsockA) events).safe
  have hy := (threadInv_after hB.keeps hv (udpTracks_opened hB hsockB) events').safe
  refine sent_of_linked hx hy (fun seg hseg => ?_) hlen
  -- the datagram that held the segment was sent by the peer, who serialized one of its own
  obtain ⟨datagram, hin, hsource, hholds⟩ := hy.tracks.heard seg hseg
  obtain ⟨out, hout, hpayload⟩ := hnet datagram hin hsource
  obtain ⟨given, hgiven, hsame⟩ := hx.tracks.told out hout
  refine ⟨given, hgiven, hsame seg ?_⟩
  rw [hpayload]
  exact hholds

/-! ### A talk -/

/-- The one that connects, and its owner, who writes two bytes. -/
def caller : SocketSetup TCPOverUDPSocketAdapter where
  cTcp := { recvCapacity := 8, sendCapacity := 8, fixedIsn := some ⟨0⟩ }
  cAd := { source := { ip := 1, port := 1000 }, destination := { ip := 2, port := 2000 } }
  random := ⟨0⟩
  adapter :=
    { sock :=
      { sends := [.ok 20, .ok 20, .ok 22]
        recvs := [.ok ⟨{ ip := 2, port := 2000 },
          [7, 208, 3, 232, 0, 0, 0, 100, 0, 0, 0, 1, 80, 18, 0, 8, 163, 200, 0, 0]⟩] } }
  threadData := { reads := [.ok [104, 105]] }
  listens := false
  now := 0

/-- The one that listens.  The datagram with the bytes also comes from a stranger, before the
peer's, and with other bytes. -/
def callee : SocketSetup TCPOverUDPSocketAdapter where
  cTcp := { recvCapacity := 8, sendCapacity := 8, fixedIsn := some ⟨100⟩ }
  cAd := { source := { ip := 2, port := 2000 } }
  random := ⟨0⟩
  adapter :=
    { sock :=
      { sends := [.ok 20]
        recvs := [
          .ok ⟨{ ip := 1, port := 1000 },
            [3, 232, 7, 208, 0, 0, 0, 0, 0, 0, 0, 0, 80, 2, 0, 0, 164, 69, 0, 0]⟩,
          .ok ⟨{ ip := 3, port := 1000 },
            [3, 232, 7, 208, 0, 0, 0, 1, 0, 0, 0, 101, 80, 16, 0, 8, 59, 95, 0, 0, 104, 106]⟩,
          .ok ⟨{ ip := 1, port := 1000 },
            [3, 232, 7, 208, 0, 0, 0, 1, 0, 0, 0, 101, 80, 16, 0, 8, 163, 201, 0, 0]⟩,
          .ok ⟨{ ip := 1, port := 1000 },
            [3, 232, 7, 208, 0, 0, 0, 1, 0, 0, 0, 101, 80, 16, 0, 8, 59, 96, 0, 0, 104, 105]⟩] } }
  threadData := { writes := [.ok 2] }
  listens := true
  now := 0

/-- A round in which `poll` returns these events. -/
def turn (revents : List UInt16) : LoopEvent := { poll := .ready revents, now := 0 }

/-- Send the SYN, get the answer, leave the first loop, then read from the owner and send. -/
def callerTurns : List LoopEvent := [turn [0, 0, 0, 4], turn [1], turn [], turn [0, 1, 0, 4]]

/-- The handshake, with the stranger's datagram in it; then take the bytes and hand them over. -/
def calleeTurns : List LoopEvent :=
  [turn [1], turn [0, 0, 0, 4], turn [1], turn [1], turn [], turn [1], turn [0, 0, 4]]

theorem owner_gets_only_written_talk :
    let x := caller.after TCPOverUDPSocketAdapter.adapter callerTurns
    let y := callee.after TCPOverUDPSocketAdapter.adapter calleeTurns
    y.socket.threadData.sent = [104, 105] ∧
      y.socket.threadData.sent <+: x.socket.threadData.received :=
  ⟨by decide +kernel,
    owner_gets_only_written adapter_overUdp adapter_overUdp ⟨by decide, by decide, rfl, rfl⟩
      ⟨by decide, by decide, rfl, rfl⟩ rfl rfl callerTurns calleeTurns
      (by unfold Genuine; decide +kernel) (by decide +kernel)⟩

/-! ### What can stop a thread -/

variable {J : α → List TCPSegment → List TCPSegment → Prop}

/-- **What can stop a thread**: a system call that fails or returns a number that makes no sense, or
an error that `poll` reports.  The checks of the code itself never fail: no rule waits in a busy
loop, the connection takes what it said it would, every segment can be serialized, and `connect`
ends in the state SYN_SENT. -/
theorem thread_throws_kernel_faults (hA : A.Keeps J) (hu : u.New) (hJ : J (u.opened A) [] [])
    (events : List LoopEvent) (e : SystemException) (he : (u.after A events).phase = .threw e) :
    KernelFault e ∨ e = pollError :=
  ((threadInv_after hA hu hJ events).threw e he).1

/-- A kernel that has no room for the SYN. -/
def cutOff : SocketSetup TCPOverUDPSocketAdapter := { caller with adapter := {} }

theorem thread_throws_kernel_faults_cutOff :
    (cutOff.after TCPOverUDPSocketAdapter.adapter callerTurns).phase =
        .threw (.unixError "sendmsg" EAGAIN) ∧
      (KernelFault (.unixError "sendmsg" EAGAIN) ∨ .unixError "sendmsg" EAGAIN = pollError) :=
  ⟨by decide +kernel,
    thread_throws_kernel_faults (u := cutOff) adapter_keeps ⟨by decide, by decide, rfl, rfl⟩
      (udpTracks_opened adapter_overUdp rfl) callerTurns _ (by decide +kernel)⟩

/-! ### The end of a thread -/

/-- The wait is not interrupted, and nobody aborts the thread. -/
def Undisturbed (event : LoopEvent) : Prop := event.poll ≠ .failed EINTR ∧ event.abort = false

/-- The only rule that does something when it is cancelled does not make an earlier one
interested. -/
theorem cancel_keeps_idle (A : FdAdapter α) :
    TCPSpongeSocket.rules.Pairwise fun i j =>
      Triple (fun s => (socketRule A i).interest s = false) (socketRule A j).cancel
        (fun _ s => (socketRule A i).interest s = false) fun _ _ => True := by
  have hpure : ∀ i : SocketRule, Triple (fun s => (socketRule A i).interest s = false)
      (pure () : SysCall (TCPSpongeSocket α) Unit)
      (fun _ s => (socketRule A i).interest s = false) fun _ _ => True :=
    fun _ => triple_pure _ fun _ => id
  simp only [TCPSpongeSocket.rules, List.pairwise_cons, List.mem_cons, List.not_mem_nil, or_false,
    forall_eq_or_imp, forall_eq, List.Pairwise.nil, and_true, false_imp_iff, implies_true]
  exact ⟨⟨triple_modify _ fun _ => id, hpure _, hpure _⟩, ⟨hpure _, hpure _⟩, hpure _⟩

theorem running_of_next_ended {phase : Phase} (hgoing : ¬ phase.stopped = true)
    (hend : phase.next = .ended) : phase = .running := by
  cases phase with
  | running => rfl
  | ended => exact absurd rfl hgoing
  | connecting => cases hend
  | listening => cases hend
  | threw e => cases hend

/-- A turn that ends the thread leaves no rule that is interested. -/
theorem threadStep_ended {t : TcpThread α} {event : LoopEvent} (hevent : Undisturbed event)
    (hrules : t.rules.Sublist TCPSpongeSocket.rules) (hphase : t.phase ≠ .ended)
    (hend : (threadStep A t event).phase = .ended) :
    ∀ i ∈ (threadStep A t event).rules,
      (socketRule A i).interest (threadStep A t event).socket = false := by
  have hidle := wait_exit_idle event.poll hevent.1 t.rules ((cancel_keeps_idle A).sublist hrules)
  rw [threadStep] at hend ⊢
  split at hend
  · exact absurd hend hphase
  rename_i hgoing
  rw [if_neg hgoing]
  split at hend
  · -- only the main loop is followed by the end, and it has no condition
    rename_i hcond
    rw [running_of_next_ended hgoing hend] at hcond
    exact absurd rfl hcond
  rename_i hcond
  rw [if_neg hcond]
  rw [EStateM.run] at hend ⊢
  cases hcall : waitNextEvent (socketRule A) event.poll t.rules t.socket with
  | error e s =>
    rw [hcall] at hend
    cases hend
  | ok r s =>
    rw [hcall] at hend
    simp only at hend ⊢
    split at hend
    · rename_i hexit
      rw [if_pos hexit]
      refine hidle.ok trivial hcall (hexit.resolve_right ?_)
      rw [hevent.2]
      exact Bool.false_ne_true
    · -- the end of a turn does not end the thread
      exfalso
      rw [TcpThread.passTime] at hend
      split at hend
      · split at hend
        · cases hend
        · exact hphase hend
      · exact hphase hend

theorem threadStep_of_ended {t : TcpThread α} (hphase : t.phase = .ended) (event : LoopEvent) :
    threadStep A t event = t := by
  rw [threadStep, hphase]
  exact if_pos rfl

/-- **Run.**  A thread that was not disturbed ends when none of its rules is interested. -/
theorem idle_of_ended (hrules : ∀ events, (u.after A events).rules.Sublist TCPSpongeSocket.rules)
    (events : List LoopEvent) (hevents : ∀ event ∈ events, Undisturbed event)
    (hend : (u.after A events).phase = .ended) :
    ∀ i ∈ (u.after A events).rules,
      (socketRule A i).interest (u.after A events).socket = false := by
  induction events using List.reverseRecOn with
  | nil =>
    have hstart : (u.start A).phase = .ended := hend
    rw [start] at hstart
    split at hstart
    · cases hstart
    · rw [TcpThread.connect] at hstart
      simp only at hstart
      split at hstart
      · cases hstart
      · cases hstart
  | append_singleton events event ih =>
    have hbefore := hrules events
    have hthen := ih fun e he => hevents e (List.mem_append_left _ he)
    have hlast := hevents event (List.mem_append_right _ List.mem_cons_self)
    rw [after, run_concat, ← after] at hend ⊢
    by_cases hphase : (u.after A events).phase = .ended
    · rw [threadStep_of_ended hphase]
      exact hthen hphase
    · exact threadStep_ended hlast hbefore hphase hend

/-- Cancelling a rule leaves the descriptors alone. -/
theorem fresh_cancel (A : FdAdapter α) (i j : SocketRule) :
    Triple (Fresh (socketRule A i)) (socketRule A j).cancel (fun _ => Fresh (socketRule A i))
      fun _ _ => True := by
  cases j with
  | segment => exact triple_pure _ fun _ => id
  | outbound =>
    refine triple_modify _ fun s hfresh => ?_
    cases i <;> exact hfresh
  | inbound => exact triple_pure _ fun _ => id
  | send => exact triple_pure _ fun _ => id

theorem passTime_rules (t : TcpThread α) (now : ℕ) : (t.passTime A now).rules = t.rules := by
  rw [TcpThread.passTime]
  split
  · split <;> rfl
  · rfl

/-- A turn without a hangup keeps every rule that is fresh. -/
theorem mem_rules_threadStep {t : TcpThread α} {event : LoopEvent}
    (hevent : event.poll.hangup = false) {i : SocketRule} (hfresh : Fresh (socketRule A i) t.socket)
    (hi : i ∈ t.rules) : i ∈ (threadStep A t event).rules := by
  have hwait := wait_mem event.poll hevent t.rules (fresh_cancel A i)
  rw [threadStep]
  split
  · exact hi
  split
  · exact hi
  rw [EStateM.run]
  cases hcall : waitNextEvent (socketRule A) event.poll t.rules t.socket with
  | error e s => exact hi
  | ok r s =>
    have hleft := hwait.ok hfresh hcall hi
    simp only
    split
    · exact hleft
    · rw [passTime_rules]
      exact hleft

/-- What makes the loop drop a rule: `poll` reported a hangup in some turn, or a turn found the
descriptor of the rule closed or, if the rule reads, at its end. -/
def Dropped (A : FdAdapter α) (u : SocketSetup α) (events : List LoopEvent) (i : SocketRule) :
    Prop :=
  (∃ event ∈ events, event.poll.hangup = true) ∨
    ∃ before, before <+: events ∧ ¬ Fresh (socketRule A i) (u.after A before).socket

/-- **Run.**  A rule that is gone was dropped for a reason. -/
theorem dropped_of_not_mem (events : List LoopEvent) (i : SocketRule)
    (hgone : i ∉ (u.after A events).rules) : Dropped A u events i := by
  induction events using List.reverseRecOn with
  | nil =>
    refine absurd ?_ hgone
    rw [after, run_nil, start_rules]
    cases i <;> decide
  | append_singleton events event ih =>
    by_cases hmem : i ∈ (u.after A events).rules
    · -- it was dropped in this turn
      by_cases hfresh : Fresh (socketRule A i) (u.after A events).socket
      · left
        refine ⟨event, List.mem_append_right _ List.mem_cons_self, ?_⟩
        by_contra hno
        rw [after, run_concat, ← after] at hgone
        exact hgone (mem_rules_threadStep (Bool.not_eq_true _ ▸ hno) hfresh hmem)
      · exact Or.inr ⟨events, List.prefix_append .., hfresh⟩
    · rcases ih hmem with ⟨e, he, hup⟩ | ⟨before, hbefore, hstale⟩
      · exact Or.inl ⟨e, List.mem_append_left _ he, hup⟩
      · exact Or.inr ⟨before, hbefore.trans (List.prefix_append ..), hstale⟩

/-- **A thread that ends by itself leaves nothing behind**, as far as its rules are still there.
With the first rule the connection is no longer active and its inbound stream is stopped.  With the
third no assembled byte is still to be written to the owner, and a stopped stream has been passed on
as a shutdown.  With the last no segment waits in the queue.  A rule is gone only after a hangup, or
when its descriptor was closed or, for reading, at its end. -/
theorem ended_leaves_nothing (hA : A.Keeps J) (hu : u.New) (hJ : J (u.opened A) [] [])
    (events : List LoopEvent) (hevents : ∀ event ∈ events, Undisturbed event)
    (hend : (u.after A events).phase = .ended) :
    (.segment ∈ (u.after A events).rules →
        (u.after A events).socket.tcp.active = false ∧
          (u.after A events).socket.tcp.inboundStream.Stopped) ∧
      (.inbound ∈ (u.after A events).rules →
        (u.after A events).socket.tcp.inboundStream.buffer = [] ∧
          ((u.after A events).socket.tcp.inboundStream.Stopped →
            (u.after A events).socket.inboundShutdown = true)) ∧
      (.send ∈ (u.after A events).rules → (u.after A events).socket.tcp.segmentsOut = []) ∧
      ∀ i, i ∉ (u.after A events).rules → Dropped A u events i := by
  have hthread := threadInv_after hA hu hJ events
  have hinv := hthread.holds fun e he => by rw [hend] at he; cases he
  have hidle := idle_of_ended (fun events => (threadInv_after hA hu hJ events).rules) events
    hevents hend
  refine ⟨?_, ?_, ?_, dropped_of_not_mem events⟩
  · intro hrule
    have hdown : (u.after A events).socket.tcp.active = false := hidle _ hrule
    exact ⟨hdown, hinv.histories.stopped hdown⟩
  · intro hrule
    have hinbound : (u.after A events).socket.inboundInterest = false := hidle _ hrule
    rw [inboundInterest, Bool.or_eq_false_iff] at hinbound
    have hsize : (u.after A events).socket.tcp.inboundStream.bufferSize = 0 := by
      simpa [ByteStream.bufferEmpty] using hinbound.1
    have hbuffer := List.length_eq_zero_iff.mp hsize
    refine ⟨hbuffer, ?_⟩
    intro hstopped
    have hover : (u.after A events).socket.inboundOver = true := by
      rw [inboundOver, Bool.or_eq_true]
      exact hstopped.imp_left fun hended => (ByteStream.eof_iff _).mpr ⟨hended, hbuffer⟩
    rw [hover] at hinbound
    simpa using hinbound.2
  · intro hrule
    have hsend : (u.after A events).socket.sendInterest = false := hidle _ hrule
    simpa [sendInterest] using hsend

/-- The answer to the SYN is a RST. -/
def refused : SocketSetup TCPOverUDPSocketAdapter :=
  { caller with
    adapter :=
      { sock :=
        { sends := [.ok 20]
          recvs := [.ok ⟨{ ip := 2, port := 2000 },
            [7, 208, 3, 232, 0, 0, 0, 0, 0, 0, 0, 1, 80, 20, 0, 0, 164, 50, 0, 0]⟩] } }
    threadData := { writes := [.ok 0], shutdowns := [.ok ()] } }

def refusedTurns : List LoopEvent :=
  [turn [0, 0, 0, 4], turn [1], turn [], turn [0, 0, 4], turn []]

theorem ended_leaves_nothing_refused :
    let t := refused.after TCPOverUDPSocketAdapter.adapter refusedTurns
    t.rules = TCPSpongeSocket.rules ∧ t.socket.tcp.active = false ∧
      t.socket.tcp.inboundStream.Stopped ∧ t.socket.tcp.inboundStream.buffer = [] ∧
      t.socket.inboundShutdown = true ∧ t.socket.tcp.segmentsOut = [] := by
  have hrules : (refused.after TCPOverUDPSocketAdapter.adapter refusedTurns).rules =
      TCPSpongeSocket.rules := by decide +kernel
  obtain ⟨hsegment, hinbound, hsend, -⟩ := ended_leaves_nothing (u := refused) adapter_keeps
    ⟨by decide, by decide, rfl, rfl⟩ (udpTracks_opened adapter_overUdp rfl) refusedTurns
    (by unfold Undisturbed; decide) (by decide +kernel)
  rw [hrules] at hsegment hinbound hsend
  obtain ⟨hdown, hstopped⟩ := hsegment (by decide)
  obtain ⟨hbuffer, hshut⟩ := hinbound (by decide)
  exact ⟨hrules, hdown, hstopped, hbuffer, hshut hstopped, hsend (by decide)⟩

end SocketSetup

end Sponge
