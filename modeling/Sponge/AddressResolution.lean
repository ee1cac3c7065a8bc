import Sponge.NetworkInterface
import Sponge.Lib.Run

/-!
# No datagram is lost during address resolution

A trace is an interface together with every datagram it was asked to send.  `Accounted` says
that each of them is in exactly one of two places: in one of the IPv4 frames that were emitted,
or in the ARP queue.  `Flushed` is what an ARP message with a usable address should do to the
datagrams that wait for its sender.

The code keeps neither in general.  A datagram for a next hop whose resolution is in progress is
dropped; a reply releases only the first waiting datagram and a request none; and a reply that
carries the broadcast address erases one unsent.  `ResolutionOk` excludes exactly these steps.
-/

namespace Sponge

open Throwing Run Ipv4Order

namespace NetworkInterface

inductive InterfaceOp where
  | sendDatagram (dgram : InternetDatagram) (nextHop : Address)
  | recvFrame (frame : EthernetFrame)
  | tick (msSinceLastTick : ℕ)
deriving DecidableEq

def interfaceStep (n : NetworkInterface) : InterfaceOp → NetworkInterface
  | .sendDatagram dgram nextHop => after (sendDatagram dgram nextHop) n
  | .recvFrame frame => after (recvFrame frame) n
  | .tick ms => n.tick ms

/-- The frames that carry a datagram. -/
def ipv4Frames (frames : List EthernetFrame) : List EthernetFrame :=
  frames.filter fun frame => frame.header.type = EthernetHeader.TYPE_IPv4

/-- An interface and the datagrams passed to `send_datagram`, with their next hops. -/
structure SendTrace where
  iface : NetworkInterface
  sent : List (InternetDatagram × Address) := []
deriving DecidableEq

def InterfaceOp.passed : InterfaceOp → List (InternetDatagram × Address)
  | .sendDatagram dgram nextHop => [(dgram, nextHop)]
  | _ => []

namespace SendTrace

def traceStep (t : SendTrace) (op : InterfaceOp) : SendTrace :=
  { iface := interfaceStep t.iface op, sent := t.sent ++ op.passed }

def start (ethernetAddress : EthernetAddress) (ipAddress : Address) : SendTrace :=
  { iface := NetworkInterface.new ethernetAddress ipAddress }

/-- The datagrams passed to `send_datagram` for one address. -/
def sentTo (t : SendTrace) (ip : UInt32) : List (InternetDatagram × Address) :=
  t.sent.filter fun e => e.2.ipv4Numeric = ip

end SendTrace

/-- The frame carries this datagram. -/
def Carries (frame : EthernetFrame) (e : InternetDatagram × Address) : Prop :=
  e.1.serialize = .ok frame.payload

/-- Every datagram sent is in one emitted IPv4 frame or in the queue, and those in the queue are
in the order in which they were sent. -/
structure Accounted (t : SendTrace) : Prop where
  emitted : ∃ log, List.Forall₂ Carries (ipv4Frames t.iface.framesOut) log ∧
    (log ++ t.iface.arpQueue).Perm t.sent
  ordered : ∀ ip, (t.iface.heldFor ip).Sublist (t.sentTo ip)

/-- The datagrams that waited for the sender of an ARP message were emitted to its address, in
order, and none is left. -/
structure Flushed (before now : NetworkInterface) (msg : ARPMessage) : Prop where
  none_left : now.heldFor msg.senderIpAddress = []
  emitted : ∃ frames, now.framesOut = before.framesOut ++ frames ∧
    List.Forall₂ (fun frame e => Carries frame e ∧ frame.header.dst = msg.senderEthernetAddress)
      (ipv4Frames frames) (before.heldFor msg.senderIpAddress)

/-- No datagram is lost by one call. -/
structure NothingLost (t : SendTrace) (op : InterfaceOp) : Prop where
  accounted : Accounted (t.traceStep op)
  flushed : ∀ frame msg, op = .recvFrame frame → t.iface.acceptedArp frame = some msg →
    msg.senderEthernetAddress ≠ ETHERNET_BROADCAST → Flushed t.iface (t.traceStep op).iface msg

/-- What an ARP message may meet in the queue. -/
def ArpOk (n : NetworkInterface) (msg : ARPMessage) : Prop :=
  if msg.opcode = ARPMessage.OPCODE_REPLY then
    (n.heldFor msg.senderIpAddress).length ≤
      if msg.senderEthernetAddress = ETHERNET_BROADCAST then 0 else 1
  else msg.senderEthernetAddress ≠ ETHERNET_BROADCAST → n.heldFor msg.senderIpAddress = []

/-- The step loses nothing: a datagram is not sent while its next hop is being resolved, and an
ARP message does not meet more waiting datagrams than the code takes out of the queue. -/
def ResolutionOk (t : SendTrace) : InterfaceOp → Prop
  | .sendDatagram _ nextHop =>
    (t.iface.mappingCache.find? nextHop.ipv4Numeric).map Prod.fst ≠ some ETHERNET_BROADCAST
  | .recvFrame frame =>
    match t.iface.acceptedArp frame with
    | some msg => ArpOk t.iface msg
    | none => True
  | .tick _ => True

instance (n : NetworkInterface) (msg : ARPMessage) : Decidable (ArpOk n msg) := by
  unfold ArpOk
  infer_instance

instance (t : SendTrace) (op : InterfaceOp) : Decidable (ResolutionOk t op) := by
  unfold ResolutionOk
  split
  · infer_instance
  · split <;> infer_instance
  · infer_instance

/-! ### Counting -/

theorem ipv4Frames_append (xs ys : List EthernetFrame) :
    ipv4Frames (xs ++ ys) = ipv4Frames xs ++ ipv4Frames ys := List.filter_append ..

theorem ipv4Frames_ipv4 (n : NetworkInterface) (dst : EthernetAddress) (payload : BufferList) :
    ipv4Frames [n.frameTo dst EthernetHeader.TYPE_IPv4 payload] =
      [n.frameTo dst EthernetHeader.TYPE_IPv4 payload] := rfl

theorem ipv4Frames_arp (n : NetworkInterface) (dst : EthernetAddress) (payload : BufferList) :
    ipv4Frames [n.frameTo dst EthernetHeader.TYPE_ARP payload] = [] := rfl

/-- As many datagrams were sent as there are IPv4 frames and waiting datagrams together. -/
theorem Accounted.length_eq {t : SendTrace} (h : Accounted t) :
    t.sent.length = (ipv4Frames t.iface.framesOut).length + t.iface.arpQueue.length := by
  obtain ⟨log, hlog, hperm⟩ := h.emitted
  rw [← hperm.length_eq, List.length_append, hlog.length_eq]

/-- The accounts depend on the IPv4 frames and the queue only. -/
theorem Accounted.congr {t t' : SendTrace} (h : Accounted t)
    (hframes : ipv4Frames t'.iface.framesOut = ipv4Frames t.iface.framesOut)
    (hqueue : t'.iface.arpQueue = t.iface.arpQueue) (hsent : t'.sent = t.sent) :
    Accounted t' := by
  refine ⟨?_, fun ip => ?_⟩
  · rw [hframes, hqueue, hsent]
    exact h.emitted
  · rw [heldFor, hqueue, SendTrace.sentTo, hsent]
    exact h.ordered ip

/-! ### Sending -/

section Send

variable {t : SendTrace} {dgram : InternetDatagram} {nextHop : Address}

theorem traceStep_send {n' : NetworkInterface}
    (h : sendDatagram dgram nextHop t.iface = .ok () n') :
    t.traceStep (.sendDatagram dgram nextHop) = ⟨n', t.sent ++ [(dgram, nextHop)]⟩ := by
  rw [SendTrace.traceStep, interfaceStep, after_ok h]
  rfl

/-- A datagram that is dropped is in neither place. -/
theorem not_accounted_of_dropped (h : Accounted t) :
    ¬ Accounted ⟨t.iface, t.sent ++ [(dgram, nextHop)]⟩ := by
  intro h'
  have hlen := h.length_eq
  have hlen' := h'.length_eq
  simp only [List.length_append, List.length_singleton] at hlen'
  omega

theorem Accounted.sent_directly (h : Accounted t) {known : EthernetAddress}
    {payload : BufferList} (hser : dgram.serialize = .ok payload) :
    Accounted ⟨t.iface.push (t.iface.frameTo known EthernetHeader.TYPE_IPv4 payload),
      t.sent ++ [(dgram, nextHop)]⟩ := by
  obtain ⟨log, hlog, hperm⟩ := h.emitted
  refine ⟨⟨log ++ [(dgram, nextHop)], ?_, ?_⟩, fun ip => ?_⟩
  · show List.Forall₂ Carries (ipv4Frames (t.iface.framesOut ++ [_])) _
    rw [ipv4Frames_append, ipv4Frames_ipv4]
    exact List.rel_append hlog (.cons hser .nil)
  · show (log ++ [(dgram, nextHop)] ++ t.iface.arpQueue).Perm _
    rw [List.append_assoc]
    exact (List.perm_append_comm.append_left log).trans
      (by rw [← List.append_assoc]; exact hperm.append_right _)
  · show (t.iface.heldFor ip).Sublist (List.filter _ (t.sent ++ _))
    rw [List.filter_append]
    exact (h.ordered ip).trans (List.sublist_append_left ..)

theorem Accounted.queued (h : Accounted t) :
    Accounted ⟨t.iface.resolve dgram nextHop, t.sent ++ [(dgram, nextHop)]⟩ := by
  obtain ⟨log, hlog, hperm⟩ := h.emitted
  refine ⟨⟨log, ?_, ?_⟩, fun ip => ?_⟩
  · show List.Forall₂ Carries (ipv4Frames (t.iface.framesOut ++ [_])) _
    rw [ipv4Frames_append, ipv4Frames_arp, List.append_nil]
    exact hlog
  · show (log ++ (t.iface.arpQueue ++ [(dgram, nextHop)])).Perm _
    rw [← List.append_assoc]
    exact hperm.append_right _
  · show (List.filter _ (t.iface.arpQueue ++ _)).Sublist (List.filter _ (t.sent ++ _))
    rw [List.filter_append, List.filter_append]
    exact (h.ordered ip).append (List.Sublist.refl _)

/-- A datagram is kept exactly when its next hop is not being resolved. -/
theorem send_accounted_iff (h : Accounted t) (hser : dgram.Serializable) :
    Accounted (t.traceStep (.sendDatagram dgram nextHop)) ↔
      (t.iface.mappingCache.find? nextHop.ipv4Numeric).map Prod.fst ≠
        some ETHERNET_BROADCAST := by
  obtain ⟨payload, hpayload⟩ := hser
  cases hfind : t.iface.mappingCache.find? nextHop.ipv4Numeric with
  | none =>
    rw [traceStep_send (sendDatagram_unknown hfind)]
    exact iff_of_true h.queued (by simp)
  | some entry =>
    obtain ⟨known, age⟩ := entry
    by_cases hpending : known = ETHERNET_BROADCAST
    · rw [hpending] at hfind
      rw [traceStep_send (sendDatagram_pending hfind)]
      exact iff_of_false (not_accounted_of_dropped h) (by simp [hpending])
    · rw [traceStep_send (sendDatagram_known hfind hpending hpayload)]
      exact iff_of_true (h.sent_directly hpayload) (by simpa using hpending)

end Send

/-! ### Receiving -/

section Receive

variable {t : SendTrace} {frame : EthernetFrame} {msg : ARPMessage} {now : NetworkInterface}

theorem traceStep_recv (hacc : t.iface.acceptedArp frame = some msg)
    (h : recvArp msg t.iface = .ok () now) :
    t.traceStep (.recvFrame frame) = ⟨now, t.sent⟩ := by
  rw [SendTrace.traceStep, interfaceStep, after_ok ((recvFrame_arp hacc).trans (bind_ok h _))]
  exact congrArg (SendTrace.mk now) (List.append_nil _)

theorem nothingLost_recv_iff (hacc : t.iface.acceptedArp frame = some msg)
    (h : recvArp msg t.iface = .ok () now) :
    NothingLost t (.recvFrame frame) ↔ Accounted ⟨now, t.sent⟩ ∧
      (msg.senderEthernetAddress ≠ ETHERNET_BROADCAST → Flushed t.iface now msg) := by
  have hstep := traceStep_recv hacc h
  constructor
  · intro hn
    refine ⟨hstep ▸ hn.accounted, fun hne => ?_⟩
    have hflush := hn.flushed frame msg rfl hacc hne
    rwa [hstep] at hflush
  · intro ⟨hacct, hflush⟩
    refine ⟨hstep ▸ hacct, fun frame' msg' hop hacc' hne => ?_⟩
    cases hop
    rw [hacc] at hacc'
    cases hacc'
    rw [hstep]
    exact hflush hne

/-- A call that leaves the queue alone flushes exactly when nothing waits. -/
theorem flushed_iff_of_quiet {frames : List EthernetFrame}
    (hframes : now.framesOut = t.iface.framesOut ++ frames) (hquiet : ipv4Frames frames = [])
    (hqueue : now.arpQueue = t.iface.arpQueue) :
    Flushed t.iface now msg ↔ t.iface.heldFor msg.senderIpAddress = [] := by
  have hheld : now.heldFor msg.senderIpAddress = t.iface.heldFor msg.senderIpAddress := by
    rw [heldFor, hqueue]
    rfl
  constructor
  · intro h
    rw [← hheld]
    exact h.none_left
  · intro h
    refine ⟨hheld.trans h, frames, hframes, ?_⟩
    rw [hquiet, h]
    exact .nil

theorem nothingLost_iff_of_quiet (h : Accounted t) {frames : List EthernetFrame}
    (hacc : t.iface.acceptedArp frame = some msg) (hrecv : recvArp msg t.iface = .ok () now)
    (hframes : now.framesOut = t.iface.framesOut ++ frames) (hquiet : ipv4Frames frames = [])
    (hqueue : now.arpQueue = t.iface.arpQueue) :
    NothingLost t (.recvFrame frame) ↔ (msg.senderEthernetAddress ≠ ETHERNET_BROADCAST →
      t.iface.heldFor msg.senderIpAddress = []) := by
  have hacct : Accounted ⟨now, t.sent⟩ := by
    refine h.congr ?_ hqueue rfl
    show ipv4Frames now.framesOut = _
    rw [hframes, ipv4Frames_append, hquiet, List.append_nil]
  rw [nothingLost_recv_iff hacc hrecv, and_iff_right hacct,
    flushed_iff_of_quiet hframes hquiet hqueue]

section First

variable {front rest : List (InternetDatagram × Address)} {dgram : InternetDatagram}
  {nextHop : Address}

/-- Taking the first waiting datagram out of the queue unsent loses it. -/
theorem not_accounted_of_discarded (h : Accounted t)
    (hq : t.iface.arpQueue = front ++ (dgram, nextHop) :: rest)
    (hframes : now.framesOut = t.iface.framesOut) (hqueue : now.arpQueue = front ++ rest) :
    ¬ Accounted ⟨now, t.sent⟩ := by
  intro h'
  have hlen := h.length_eq
  have hlen' := h'.length_eq
  simp only [hframes, hqueue, List.length_append] at hlen'
  rw [hq, List.length_append, List.length_cons] at hlen
  omega

/-- Emitting the first waiting datagram keeps the accounts. -/
theorem Accounted.released (h : Accounted t) {known : EthernetAddress} {payload : BufferList}
    (hq : t.iface.arpQueue = front ++ (dgram, nextHop) :: rest)
    (hser : dgram.serialize = .ok payload)
    (hframes : now.framesOut =
      t.iface.framesOut ++ [t.iface.frameTo known EthernetHeader.TYPE_IPv4 payload])
    (hqueue : now.arpQueue = front ++ rest) : Accounted ⟨now, t.sent⟩ := by
  obtain ⟨log, hlog, hperm⟩ := h.emitted
  refine ⟨⟨log ++ [(dgram, nextHop)], ?_, ?_⟩, fun ip => ?_⟩
  · show List.Forall₂ Carries (ipv4Frames now.framesOut) _
    rw [hframes, ipv4Frames_append, ipv4Frames_ipv4]
    exact List.rel_append hlog (.cons hser .nil)
  · show (log ++ [(dgram, nextHop)] ++ now.arpQueue).Perm t.sent
    rw [hq] at hperm
    rw [hqueue, List.append_assoc]
    have hmid : (front ++ (dgram, nextHop) :: rest).Perm ((dgram, nextHop) :: (front ++ rest)) :=
      List.perm_middle
    exact (hmid.symm.append_left log).trans hperm
  · have hsub : now.arpQueue.Sublist t.iface.arpQueue := by
      rw [hq, hqueue]
      exact (List.sublist_cons_self _ rest).append_left front
    exact (hsub.filter _).trans (h.ordered ip)

/-- A reply flushes exactly when the datagram that it releases was the only one waiting. -/
theorem flushed_iff_of_released {payload : BufferList}
    (hq : t.iface.arpQueue = front ++ (dgram, nextHop) :: rest)
    (hfront : ∀ e ∈ front, e.2.ipv4Numeric ≠ msg.senderIpAddress)
    (hhop : nextHop.ipv4Numeric = msg.senderIpAddress) (hser : dgram.serialize = .ok payload)
    (hframes : now.framesOut = t.iface.framesOut ++
      [t.iface.frameTo msg.senderEthernetAddress EthernetHeader.TYPE_IPv4 payload])
    (hqueue : now.arpQueue = front ++ rest) :
    Flushed t.iface now msg ↔ (t.iface.heldFor msg.senderIpAddress).length ≤ 1 := by
  have hheld := heldFor_of_queue hq hfront hhop
  have hnow : now.heldFor msg.senderIpAddress =
      rest.filter fun e => e.2.ipv4Numeric = msg.senderIpAddress := by
    have hnil : front.filter (fun e => decide (e.2.ipv4Numeric = msg.senderIpAddress)) = [] :=
      List.filter_eq_nil_iff.mpr fun e he => by simpa using hfront e he
    rw [heldFor, hqueue, List.filter_append, hnil, List.nil_append]
  rw [hheld, List.length_cons, ← hnow]
  constructor
  · intro h
    rw [h.none_left]
    exact le_refl _
  · intro hlen
    have hnil : now.heldFor msg.senderIpAddress = [] := List.length_eq_zero_iff.mp (by omega)
    refine ⟨hnil, _, hframes, ?_⟩
    rw [ipv4Frames_ipv4, hheld, ← hnow, hnil]
    exact .cons ⟨hser, rfl⟩ .nil

end First

/-- **What an ARP message must find in the queue** for nothing to be lost. -/
theorem recv_nothingLost_iff (h : Accounted t) (hser : ∀ e ∈ t.iface.arpQueue, e.1.Serializable)
    (hacc : t.iface.acceptedArp frame = some msg) :
    NothingLost t (.recvFrame frame) ↔ ArpOk t.iface msg := by
  by_cases hreply : msg.opcode = ARPMessage.OPCODE_REPLY
  · rw [ArpOk, if_pos hreply]
    obtain hnone | ⟨front, dgram, nextHop, rest, hq, hfront, hhop⟩ :=
      t.iface.held_cases msg.senderIpAddress
    · rw [nothingLost_iff_of_quiet h hacc (recvArp_idle hreply hnone)
        (List.append_nil _).symm rfl rfl, heldFor_eq_nil hnone]
      exact iff_of_true (fun _ => rfl) (Nat.zero_le _)
    · obtain ⟨payload, hpayload⟩ := hser (dgram, nextHop) (by rw [hq]; simp)
      by_cases hb : msg.senderEthernetAddress = ETHERNET_BROADCAST
      · rw [nothingLost_recv_iff hacc (recvArp_discards hreply hb hq hfront hhop), if_pos hb,
          heldFor_of_queue hq hfront hhop]
        refine iff_of_false (fun hn => absurd hn.1 ?_) (by simp)
        exact not_accounted_of_discarded h hq rfl rfl
      · rw [nothingLost_recv_iff hacc (recvArp_sends hreply hb hq hfront hhop hpayload),
          if_neg hb, and_iff_right (h.released hq hpayload rfl rfl), imp_iff_right hb]
        exact flushed_iff_of_released hq hfront hhop hpayload rfl rfl
  · rw [ArpOk, if_neg hreply]
    obtain hrecv | hrecv := recvArp_request hreply t.iface
    · exact nothingLost_iff_of_quiet h hacc hrecv (List.append_nil _).symm rfl rfl
    · exact nothingLost_iff_of_quiet h hacc hrecv rfl rfl rfl

theorem nothingLost_of_unchanged (h : Accounted t) {op : InterfaceOp}
    (hframes : (interfaceStep t.iface op).framesOut = t.iface.framesOut)
    (hqueue : (interfaceStep t.iface op).arpQueue = t.iface.arpQueue) (hpassed : op.passed = [])
    (harp : ∀ frame msg, op = .recvFrame frame → t.iface.acceptedArp frame ≠ some msg) :
    NothingLost t op := by
  refine ⟨h.congr (congrArg ipv4Frames hframes) hqueue ?_, fun frame msg hop hacc => ?_⟩
  · show t.sent ++ op.passed = t.sent
    rw [hpassed, List.append_nil]
  · exact absurd hacc (harp frame msg hop)

end Receive

/-! ### Whole runs -/

/-- The invariant: nothing was lost so far, and everything sent can be serialized. -/
structure AccountInv (t : SendTrace) : Prop where
  accounted : Accounted t
  serializable : ∀ e ∈ t.sent, e.1.Serializable

theorem AccountInv.queue_serializable {t : SendTrace} (h : AccountInv t) :
    ∀ e ∈ t.iface.arpQueue, e.1.Serializable := by
  obtain ⟨log, _, hperm⟩ := h.accounted.emitted
  intro e he
  exact h.serializable e (hperm.subset (List.mem_append_right _ he))

theorem nothingLost_step_iff {t : SendTrace} (h : AccountInv t) (op : InterfaceOp)
    (hop : ∀ e ∈ op.passed, e.1.Serializable) : NothingLost t op ↔ ResolutionOk t op := by
  cases op with
  | sendDatagram dgram nextHop =>
    rw [ResolutionOk, ← send_accounted_iff h.accounted (hop _ (List.mem_singleton.mpr rfl))]
    constructor
    · intro hn
      exact hn.accounted
    · intro hacct
      exact ⟨hacct, fun frame msg hcase => by cases hcase⟩
  | recvFrame frame =>
    cases hacc : t.iface.acceptedArp frame with
    | some msg =>
      simp only [ResolutionOk, hacc]
      exact recv_nothingLost_iff h.accounted h.queue_serializable hacc
    | none =>
      have hsame : interfaceStep t.iface (.recvFrame frame) = t.iface := by
        obtain ⟨r, hr⟩ | ⟨e, he, _⟩ := recvFrame_other hacc
        · exact after_ok hr
        · exact after_error he
      simp only [ResolutionOk, hacc, iff_true]
      refine nothingLost_of_unchanged h.accounted (by rw [hsame]) (by rw [hsame]) rfl ?_
      intro frame' msg hcase hacc'
      cases hcase
      rw [hacc] at hacc'
      cases hacc'
  | tick ms =>
    refine iff_of_true (nothingLost_of_unchanged h.accounted rfl rfl rfl ?_) trivial
    intro frame msg hcase
    cases hcase

theorem AccountInv.step {t : SendTrace} (h : AccountInv t) {op : InterfaceOp}
    (hop : ∀ e ∈ op.passed, e.1.Serializable) (hn : NothingLost t op) :
    AccountInv (t.traceStep op) := by
  refine ⟨hn.accounted, fun e he => ?_⟩
  rcases List.mem_append.mp he with he | he
  · exact h.serializable e he
  · exact hop e he

theorem AccountInv.start (ethernetAddress : EthernetAddress) (ipAddress : Address) :
    AccountInv (SendTrace.start ethernetAddress ipAddress) := by
  refine ⟨⟨⟨[], .nil, List.Perm.nil⟩, fun ip => List.Sublist.refl _⟩, fun e he => ?_⟩
  cases he

/-- **No datagram is lost, along exactly the runs whose steps are all resolution-safe.** -/
theorem nothingLost_iff_resolutionOk (ethernetAddress : EthernetAddress) (ipAddress : Address)
    (ops : List InterfaceOp) (hser : ∀ op ∈ ops, ∀ e ∈ op.passed, e.1.Serializable) :
    Along SendTrace.traceStep NothingLost (SendTrace.start ethernetAddress ipAddress) ops ↔
      Along SendTrace.traceStep ResolutionOk (SendTrace.start ethernetAddress ipAddress) ops := by
  refine along_iff_of_invariant (I := AccountInv) ?_ ?_
    (AccountInv.start ethernetAddress ipAddress) (along_of_events hser _)
  · intro t op h hop hok
    exact h.step hop ((nothingLost_step_iff h op hop).mpr hok)
  · intro t op h hop
    exact nothingLost_step_iff h op hop

/-- A datagram sent, the address resolved, another datagram sent: nothing is lost. -/
theorem nothingLost_iff_resolutionOk_resolved :
    Along SendTrace.traceStep NothingLost
      (SendTrace.start #v[2, 0, 0, 0, 0, 1] { ip := 1 })
      [.sendDatagram { header := { len := 20 } } { ip := 9 },
        .recvFrame
          { header := { dst := #v[2, 0, 0, 0, 0, 1], type := EthernetHeader.TYPE_ARP }
            payload := [ARPMessage.bytes
              { opcode := ARPMessage.OPCODE_REPLY, senderIpAddress := 9
                senderEthernetAddress := #v[2, 0, 0, 0, 0, 9] }] },
        .sendDatagram { header := { len := 20, id := 1 } } { ip := 9 }] :=
  (nothingLost_iff_resolutionOk _ _ _ (by decide)).mpr (by decide)

/-- The second datagram for a next hop that is being resolved is neither emitted nor queued. -/
theorem nothingLost_fails_on_pending_hop :
    (∀ op ∈ ([.sendDatagram { header := { len := 20 } } { ip := 9 },
        .sendDatagram { header := { len := 20, id := 1 } } { ip := 9 }] : List InterfaceOp),
      ∀ e ∈ op.passed, e.1.Serializable) ∧
    ¬ Along SendTrace.traceStep NothingLost
      (SendTrace.start #v[2, 0, 0, 0, 0, 1] { ip := 1 })
      [.sendDatagram { header := { len := 20 } } { ip := 9 },
        .sendDatagram { header := { len := 20, id := 1 } } { ip := 9 }] := by
  refine ⟨by decide, fun h => ?_⟩
  have hlen := h.2.1.accounted.length_eq
  revert hlen
  decide

end NetworkInterface

end Sponge
