import Sponge.AddressResolution

/-!
# Address resolution, one address at a time

The interface keeps the mappings of all addresses in one cache and the datagrams that wait for
any of them in one queue.  Seen from one IP address, only the entry of that address and the
datagrams that wait for it matter, and only three kinds of calls touch them: a datagram for the
address, an accepted ARP message from it, and the passing of time.  `Resolver` is this view as a
machine of its own, and `follows` says that the interface runs one such machine for every address
without mixing them up.

The two results are about whole runs.  Requests for one address are at least five seconds apart.
Every IPv4 frame goes to the address of the last ARP message from its next hop, heard less than
thirty seconds ago, and calls about other addresses make no difference to it.
-/

namespace Sponge

open Throwing MachineInt Run Ipv4Order

/-! ### The machine of one address -/

/-- The cache entry of one address, and the datagrams that wait for it. -/
structure Resolver where
  entry : Option (EthernetAddress × ℕ) := none
  waiting : List (InternetDatagram × Address) := []

inductive ResolverOp where
  | send (dgram : InternetDatagram) (nextHop : Address)
  | hear (msg : ARPMessage)
  | tick (ms : ℕ)

def ResolverOp.elapsed : ResolverOp → ℕ
  | .tick ms => ms
  | _ => 0

namespace Resolver

/-- The first datagram that waits, as it goes on the wire. -/
def front (r : Resolver) : Option BufferList :=
  r.waiting.head?.bind fun e => e.1.serialize.toOption

/-- The message takes the first datagram out of the queue, sent or not. -/
def takesFirst (r : Resolver) (msg : ARPMessage) : Bool :=
  decide (msg.opcode = ARPMessage.OPCODE_REPLY) &&
    (decide (msg.senderEthernetAddress = ETHERNET_BROADCAST) || r.front.isSome)

theorem takesFirst_of_front {r : Resolver} {msg : ARPMessage} {payload : BufferList}
    (hreply : msg.opcode = ARPMessage.OPCODE_REPLY) (hfront : r.front = some payload) :
    r.takesFirst msg = true := by
  rw [takesFirst, hfront, hreply]
  simp

theorem takesFirst_of_broadcast {r : Resolver} {msg : ARPMessage}
    (hreply : msg.opcode = ARPMessage.OPCODE_REPLY)
    (heq : msg.senderEthernetAddress = ETHERNET_BROADCAST) : r.takesFirst msg = true := by
  rw [takesFirst, heq, hreply]
  rfl

def step (r : Resolver) : ResolverOp → Resolver
  | .send dgram nextHop =>
    if r.entry.isNone then
      { entry := some (ETHERNET_BROADCAST, 0), waiting := r.waiting ++ [(dgram, nextHop)] }
    else r
  | .hear msg =>
    { entry := some (msg.senderEthernetAddress, 0)
      waiting := if r.takesFirst msg then r.waiting.tail else r.waiting }
  | .tick ms => { r with entry := r.entry.bind (NetworkInterface.aged ms) }

/-- A request goes out. -/
def asks (r : Resolver) : ResolverOp → Bool
  | .send _ _ => r.entry.isNone
  | _ => false

/-- A usable address, with what is to be sent there. -/
def toKnown (known : EthernetAddress) (payload : Option BufferList) :
    Option (EthernetAddress × BufferList) :=
  if known = ETHERNET_BROADCAST then none else payload.map fun bytes => (known, bytes)

/-- The datagram that goes out, and where to. -/
def sends (r : Resolver) : ResolverOp → Option (EthernetAddress × BufferList)
  | .send dgram _ => r.entry.bind fun e => toKnown e.1 dgram.serialize.toOption
  | .hear msg =>
    if msg.opcode = ARPMessage.OPCODE_REPLY then toKnown msg.senderEthernetAddress r.front
    else none
  | .tick _ => none

theorem sends_usable {r : Resolver} {op : ResolverOp} {dst : EthernetAddress}
    {payload : BufferList} (h : r.sends op = some (dst, payload)) :
    dst ≠ ETHERNET_BROADCAST ∧
      ((∃ msg, op = .hear msg ∧ dst = msg.senderEthernetAddress) ∨
        ∃ dgram nextHop age, op = .send dgram nextHop ∧ r.entry = some (dst, age)) := by
  have hknown : ∀ {known : EthernetAddress} {bytes : Option BufferList},
      toKnown known bytes = some (dst, payload) → known = dst ∧ dst ≠ ETHERNET_BROADCAST := by
    intro known bytes hto
    rw [toKnown] at hto
    split at hto
    · cases hto
    · rename_i hne
      obtain ⟨bytes, -, heq⟩ := Option.map_eq_some_iff.mp hto
      obtain rfl : known = dst := congrArg Prod.fst heq
      exact ⟨rfl, hne⟩
  cases op with
  | send dgram nextHop =>
    obtain ⟨⟨known, age⟩, hentry, hto⟩ := Option.bind_eq_some_iff.mp h
    obtain ⟨rfl, hne⟩ := hknown hto
    exact ⟨hne, Or.inr ⟨dgram, nextHop, age, rfl, hentry⟩⟩
  | hear msg =>
    rw [sends] at h
    split at h
    · obtain ⟨rfl, hne⟩ := hknown h
      exact ⟨hne, Or.inl ⟨msg, rfl, rfl⟩⟩
    · cases h
  | tick ms => cases h

/-! ### Time, for one address -/

variable {r : Resolver} {time clock : ℕ}

/-- An entry that is left has only grown older, and one that is gone was five seconds old. -/
theorem aged_cases (entry : EthernetAddress × ℕ) (ms : ℕ) (h : entry.2 + ms < 2 ^ 64) :
    (NetworkInterface.aged ms entry = none ∧ 5000 ≤ entry.2 + ms) ∨
      NetworkInterface.aged ms entry = some (entry.1, entry.2 + ms) ∧
        (entry.1 ≠ ETHERNET_BROADCAST → entry.2 + ms < 30000) := by
  have hage : u64 (entry.2 + ms) = entry.2 + ms := Nat.mod_eq_of_lt h
  rw [NetworkInterface.aged, hage]
  by_cases hpending : entry.1 = ETHERNET_BROADCAST
  · simp only [hpending, if_true]
    split
    · exact Or.inl ⟨rfl, by assumption⟩
    · exact Or.inr ⟨rfl, fun hne => absurd rfl hne⟩
  · simp only [if_neg hpending]
    split
    · exact Or.inl ⟨rfl, by omega⟩
    · exact Or.inr ⟨rfl, fun _ => by omega⟩

/-- Since a request at `time`, five seconds have passed or an entry stands in the way of the
next one. -/
def Quiet (r : Resolver) (time clock : ℕ) : Prop :=
  time ≤ clock ∧
    (time + 5000 ≤ clock ∨ ∃ entry, r.entry = some entry ∧ time + entry.2 ≤ clock)

theorem Quiet.step (h : r.Quiet time clock) (op : ResolverOp)
    (htime : clock + op.elapsed < 2 ^ 64) : (r.step op).Quiet time (clock + op.elapsed) := by
  refine ⟨by have := h.1; omega, ?_⟩
  obtain hpast | ⟨entry, hentry, hage⟩ := h.2
  · exact Or.inl (by omega)
  cases op with
  | send dgram nextHop =>
    refine Or.inr ⟨entry, ?_, hage⟩
    rw [Resolver.step, hentry]
    exact hentry
  | hear msg => exact Or.inr ⟨_, rfl, h.1⟩
  | tick ms =>
    have htime : clock + ms < 2 ^ 64 := htime
    show time + 5000 ≤ clock + ms ∨ ∃ entry', r.entry.bind _ = some entry' ∧ _ ≤ clock + ms
    rw [hentry]
    obtain ⟨-, hold⟩ | ⟨hleft, -⟩ := aged_cases entry ms (by omega)
    · exact Or.inl (by omega)
    · exact Or.inr ⟨_, hleft, by show _ + (_ + _) ≤ _; omega⟩

theorem Quiet.asks (h : r.Quiet time clock) {op : ResolverOp} (hasks : r.asks op = true) :
    time + 5000 ≤ clock := by
  obtain hpast | ⟨entry, hentry, -⟩ := h.2
  · exact hpast
  · cases op with
    | send dgram nextHop =>
      rw [Resolver.asks, hentry] at hasks
      cases hasks
    | hear | tick => cases hasks

/-- The last message from the address, once a step has been taken. -/
def lastAfter (last : Option (ℕ × ARPMessage)) (clock : ℕ) : ResolverOp → Option (ℕ × ARPMessage)
  | .hear msg => some (clock, msg)
  | _ => last

/-- An address that can be used is that of the last message, heard less than thirty seconds
ago. -/
def Fresh (r : Resolver) (last : Option (ℕ × ARPMessage)) (clock : ℕ) : Prop :=
  ∀ known age, r.entry = some (known, age) → known ≠ ETHERNET_BROADCAST →
    ∃ time msg, last = some (time, msg) ∧ known = msg.senderEthernetAddress ∧
      time + age = clock ∧ age < 30000

variable {last : Option (ℕ × ARPMessage)}

theorem Fresh.step (h : r.Fresh last clock) (op : ResolverOp)
    (htime : clock + op.elapsed < 2 ^ 64) :
    (r.step op).Fresh (lastAfter last clock op) (clock + op.elapsed) := by
  intro known age hentry hne
  cases op with
  | send dgram nextHop =>
    rw [Resolver.step] at hentry
    split at hentry
    · cases hentry
      exact absurd rfl hne
    · exact h known age hentry hne
  | hear msg =>
    cases hentry
    exact ⟨clock, msg, rfl, rfl, rfl, by decide⟩
  | tick ms =>
    have htime : clock + ms < 2 ^ 64 := htime
    obtain ⟨⟨known', age'⟩, hbefore, haged⟩ := Option.bind_eq_some_iff.mp hentry
    by_cases hpending : known' = ETHERNET_BROADCAST
    · -- the mark of a pending resolution stays what it is
      rw [NetworkInterface.aged, hpending] at haged
      simp only [if_true] at haged
      split at haged <;> cases haged
      exact absurd rfl hne
    · obtain ⟨time, msg, hlast, hknown, hage, -⟩ := h known' age' hbefore hpending
      obtain ⟨hgone, -⟩ | ⟨hleft, hyoung⟩ :=
        aged_cases (known', age') ms (by show age' + ms < _; omega)
      · rw [hgone] at haged
        cases haged
      · rw [hleft] at haged
        cases haged
        refine ⟨time, msg, hlast, hknown, ?_, hyoung hpending⟩
        show time + (age' + ms) = clock + ms
        omega

/-- What a machine sends goes to the address of the last message. -/
theorem Fresh.sends (h : r.Fresh last clock) {op : ResolverOp} {dst : EthernetAddress}
    {payload : BufferList} (hsends : r.sends op = some (dst, payload)) :
    dst ≠ ETHERNET_BROADCAST ∧ ∃ time msg, lastAfter last clock op = some (time, msg) ∧
      dst = msg.senderEthernetAddress ∧ clock < time + 30000 := by
  obtain ⟨hne, ⟨msg, rfl, hdst⟩ | ⟨dgram, nextHop, age, rfl, hentry⟩⟩ := sends_usable hsends
  · exact ⟨hne, clock, msg, rfl, hdst, by omega⟩
  · obtain ⟨time, msg, hlast, hdst, hage, hyoung⟩ := h dst age hentry hne
    exact ⟨hne, time, msg, hlast, hdst, by omega⟩

end Resolver

namespace NetworkInterface

/-! ### What a call emits -/

/-- The frames that a call adds to `frames_out`. -/
def emitted (n : NetworkInterface) (op : InterfaceOp) : List EthernetFrame :=
  (interfaceStep n op).framesOut.drop n.framesOut.length

/-- The address that a frame asks for, if it is an ARP request. -/
def requestFor (frame : EthernetFrame) : Option UInt32 :=
  if frame.header.type = EthernetHeader.TYPE_ARP then
    match frame.payload.toBuffer >>= ARPMessage.parse {} with
    | .ok (.noError, msg) =>
      if msg.opcode = ARPMessage.OPCODE_REQUEST then some msg.targetIpAddress else none
    | _ => none
  else none

/-- The ARP message that a call accepts. -/
def heardBy (n : NetworkInterface) : InterfaceOp → Option ARPMessage
  | .recvFrame frame => n.acceptedArp frame
  | _ => none

/-- The next hop that a call sends datagrams to: its own, or the sender of an ARP message, for
which datagrams may wait. -/
def hopOf (n : NetworkInterface) : InterfaceOp → Option UInt32
  | .sendDatagram _ nextHop => some nextHop.ipv4Numeric
  | .recvFrame frame => (n.acceptedArp frame).map ARPMessage.senderIpAddress
  | .tick _ => none

/-- The IPv4 frames that a call emits for one next hop. -/
def framesFor (n : NetworkInterface) (ip : UInt32) (op : InterfaceOp) : List EthernetFrame :=
  if n.hopOf op = some ip then ipv4Frames (n.emitted op) else []

/-- What is left of the interface when only one address is looked at. -/
def project (n : NetworkInterface) (ip : UInt32) : Resolver :=
  { entry := n.mappingCache.find? ip, waiting := n.heldFor ip }

/-- What a call is for one address. -/
def localOp (n : NetworkInterface) (ip : UInt32) : InterfaceOp → Option ResolverOp
  | .sendDatagram dgram nextHop =>
    if nextHop.ipv4Numeric = ip then some (.send dgram nextHop) else none
  | .recvFrame frame =>
    (n.acceptedArp frame).bind fun msg =>
      if msg.senderIpAddress = ip then some (.hear msg) else none
  | .tick ms => some (.tick ms)

/-! ### One call -/

/-- **The ways a call can end**, with the frames it emits. -/
inductive Effect (n : NetworkInterface) :
    InterfaceOp → List EthernetFrame → NetworkInterface → Prop where
  | dropped {dgram nextHop entry} (hfind : n.mappingCache.find? nextHop.ipv4Numeric = some entry)
      (hnone : Resolver.toKnown entry.1 dgram.serialize.toOption = none) :
      Effect n (.sendDatagram dgram nextHop) [] n
  | sent {dgram nextHop known age payload}
      (hfind : n.mappingCache.find? nextHop.ipv4Numeric = some (known, age))
      (hne : known ≠ ETHERNET_BROADCAST) (hser : dgram.serialize = .ok payload) :
      Effect n (.sendDatagram dgram nextHop) [n.frameTo known EthernetHeader.TYPE_IPv4 payload]
        (n.push (n.frameTo known EthernetHeader.TYPE_IPv4 payload))
  | asked {dgram nextHop} (hfind : n.mappingCache.find? nextHop.ipv4Numeric = none) :
      Effect n (.sendDatagram dgram nextHop)
        [n.frameTo ETHERNET_BROADCAST EthernetHeader.TYPE_ARP
          [(n.arpRequest nextHop.ipv4Numeric).bytes]] (n.resolve dgram nextHop)
  | unheard {frame} (hacc : n.acceptedArp frame = none) : Effect n (.recvFrame frame) [] n
  | learned {frame msg} (hacc : n.acceptedArp frame = some msg)
      (hkeep : ((n.project msg.senderIpAddress).step (.hear msg)).waiting =
        n.heldFor msg.senderIpAddress)
      (hnone : (n.project msg.senderIpAddress).sends (.hear msg) = none) :
      Effect n (.recvFrame frame) [] (n.learn msg)
  | answered {frame msg} (hacc : n.acceptedArp frame = some msg)
      (hrequest : msg.opcode ≠ ARPMessage.OPCODE_REPLY) :
      Effect n (.recvFrame frame)
        [n.frameTo msg.senderEthernetAddress EthernetHeader.TYPE_ARP [(n.arpReply msg).bytes]]
        ((n.learn msg).push (n.frameTo msg.senderEthernetAddress EthernetHeader.TYPE_ARP
          [(n.arpReply msg).bytes]))
  | released {frame msg front dgram nextHop rest payload}
      (hacc : n.acceptedArp frame = some msg) (hreply : msg.opcode = ARPMessage.OPCODE_REPLY)
      (hne : msg.senderEthernetAddress ≠ ETHERNET_BROADCAST)
      (hq : n.arpQueue = front ++ (dgram, nextHop) :: rest)
      (hfront : ∀ e ∈ front, e.2.ipv4Numeric ≠ msg.senderIpAddress)
      (hhop : nextHop.ipv4Numeric = msg.senderIpAddress)
      (hser : dgram.serialize = .ok payload) :
      Effect n (.recvFrame frame)
        [n.frameTo msg.senderEthernetAddress EthernetHeader.TYPE_IPv4 payload]
        { n.learn msg with
          framesOut := n.framesOut ++
            [n.frameTo msg.senderEthernetAddress EthernetHeader.TYPE_IPv4 payload]
          arpQueue := front ++ rest }
  | discarded {frame msg front dgram nextHop rest} (hacc : n.acceptedArp frame = some msg)
      (hreply : msg.opcode = ARPMessage.OPCODE_REPLY)
      (heq : msg.senderEthernetAddress = ETHERNET_BROADCAST)
      (hq : n.arpQueue = front ++ (dgram, nextHop) :: rest)
      (hfront : ∀ e ∈ front, e.2.ipv4Numeric ≠ msg.senderIpAddress)
      (hhop : nextHop.ipv4Numeric = msg.senderIpAddress) :
      Effect n (.recvFrame frame) [] { n.learn msg with arpQueue := front ++ rest }
  | ticked {ms} : Effect n (.tick ms) [] (n.tick ms)

variable {n : NetworkInterface} {op : InterfaceOp} {msg : ARPMessage} {ip : UInt32}

theorem effect_send (n : NetworkInterface) (dgram : InternetDatagram) (nextHop : Address) :
    ∃ frames, Effect n (.sendDatagram dgram nextHop) frames
      (interfaceStep n (.sendDatagram dgram nextHop)) := by
  show ∃ frames, Effect n _ frames (after (sendDatagram dgram nextHop) n)
  cases hfind : n.mappingCache.find? nextHop.ipv4Numeric with
  | none =>
    rw [after_ok (sendDatagram_unknown hfind)]
    exact ⟨_, .asked hfind⟩
  | some entry =>
    obtain ⟨known, age⟩ := entry
    by_cases hpending : known = ETHERNET_BROADCAST
    · rw [after_ok (sendDatagram_pending (by rw [hfind, hpending]))]
      exact ⟨_, .dropped hfind (if_pos hpending)⟩
    · cases hser : dgram.serialize with
      | ok payload =>
        rw [after_ok (sendDatagram_known hfind hpending hser)]
        exact ⟨_, .sent hfind hpending hser⟩
      | error e =>
        rw [after_error (sendDatagram_throws hfind hpending hser)]
        refine ⟨_, .dropped hfind ?_⟩
        rw [Resolver.toKnown, if_neg hpending, hser]
        rfl

theorem after_recvArp {frame : EthernetFrame} (hacc : n.acceptedArp frame = some msg)
    {n' : NetworkInterface} (h : recvArp msg n = .ok () n') :
    interfaceStep n (.recvFrame frame) = n' :=
  after_ok ((recvFrame_arp hacc).trans (bind_ok h _))

/-- The first datagram that waits for the sender of a message. -/
theorem front_project {front rest : List (InternetDatagram × Address)} {dgram : InternetDatagram}
    {nextHop : Address} (hq : n.arpQueue = front ++ (dgram, nextHop) :: rest)
    (hfront : ∀ e ∈ front, e.2.ipv4Numeric ≠ ip) (hhop : nextHop.ipv4Numeric = ip) :
    (n.project ip).front = dgram.serialize.toOption := by
  rw [Resolver.front, project, heldFor_of_queue hq hfront hhop]
  rfl

theorem effect_hear {frame : EthernetFrame} (hacc : n.acceptedArp frame = some msg) :
    ∃ frames, Effect n (.recvFrame frame) frames (interfaceStep n (.recvFrame frame)) := by
  by_cases hreply : msg.opcode = ARPMessage.OPCODE_REPLY
  · obtain hnone | ⟨front, dgram, nextHop, rest, hq, hfront, hhop⟩ :=
      n.held_cases msg.senderIpAddress
    · have hheld := heldFor_eq_nil hnone
      rw [after_recvArp hacc (recvArp_idle hreply hnone)]
      refine ⟨_, .learned hacc ?_ ?_⟩
      · simp [Resolver.step, project, hheld]
      · simp [Resolver.sends, Resolver.front, Resolver.toKnown, project, hheld]
    · by_cases hb : msg.senderEthernetAddress = ETHERNET_BROADCAST
      · rw [after_recvArp hacc (recvArp_discards hreply hb hq hfront hhop)]
        exact ⟨_, .discarded hacc hreply hb hq hfront hhop⟩
      · cases hser : dgram.serialize with
        | ok payload =>
          rw [after_recvArp hacc (recvArp_sends hreply hb hq hfront hhop hser)]
          exact ⟨_, .released hacc hreply hb hq hfront hhop hser⟩
        | error e =>
          -- the datagram stays in the queue
          have hthrow := recvArp_throws hreply hb hq hfront hhop hser
          have hempty : (n.project msg.senderIpAddress).front = none := by
            rw [front_project hq hfront hhop, hser]
            rfl
          rw [show interfaceStep n (.recvFrame frame) = n.learn msg from
            after_error ((recvFrame_arp hacc).trans (bind_error hthrow _))]
          have hstay : (n.project msg.senderIpAddress).takesFirst msg = false := by
            simp [Resolver.takesFirst, hempty, hb]
          refine ⟨_, .learned hacc ?_ ?_⟩
          · rw [Resolver.step, hstay]
            rfl
          · simp [Resolver.sends, Resolver.toKnown, hempty]
  · obtain hrecv | hrecv := recvArp_request hreply n
    · rw [after_recvArp hacc hrecv]
      refine ⟨_, .learned hacc ?_ ?_⟩
      · simp [Resolver.step, Resolver.takesFirst, hreply, project]
      · simp [Resolver.sends, hreply]
    · rw [after_recvArp hacc hrecv]
      exact ⟨_, .answered hacc hreply⟩

theorem effect (n : NetworkInterface) (op : InterfaceOp) :
    ∃ frames, Effect n op frames (interfaceStep n op) := by
  cases op with
  | sendDatagram dgram nextHop => exact effect_send n dgram nextHop
  | recvFrame frame =>
    cases hacc : n.acceptedArp frame with
    | some msg => exact effect_hear hacc
    | none =>
      have hsame : interfaceStep n (.recvFrame frame) = n := by
        obtain ⟨r, hr⟩ | ⟨e, he, -⟩ := recvFrame_other hacc
        · exact after_ok hr
        · exact after_error he
      rw [hsame]
      exact ⟨_, .unheard hacc⟩
  | tick ms => exact ⟨_, .ticked⟩

section Effect

variable {frames : List EthernetFrame} {n' : NetworkInterface}

theorem Effect.framesOut (h : Effect n op frames n') : n'.framesOut = n.framesOut ++ frames := by
  cases h with
  | dropped | unheard | learned | discarded | ticked => exact (List.append_nil _).symm
  | sent | asked | answered | released => rfl

theorem Effect.ethernetAddress (h : Effect n op frames n') :
    n'.ethernetAddress = n.ethernetAddress := by
  cases h <;> rfl

theorem Effect.emitted (h : Effect n op frames (interfaceStep n op)) : n.emitted op = frames := by
  rw [NetworkInterface.emitted, h.framesOut, List.drop_left]

/-! ### What a call does to one address -/

theorem heldFor_concat (n : NetworkInterface) (dgram : InternetDatagram) (nextHop : Address) :
    (n.resolve dgram nextHop).heldFor ip =
      n.heldFor ip ++ if nextHop.ipv4Numeric = ip then [(dgram, nextHop)] else [] := by
  show (n.arpQueue ++ [(dgram, nextHop)]).filter _ = n.arpQueue.filter _ ++ _
  rw [List.filter_append, List.filter_singleton, Bool.cond_decide]

/-- Taking the first datagram for one address out of the queue. -/
theorem heldFor_taken {front rest : List (InternetDatagram × Address)} {dgram : InternetDatagram}
    {nextHop : Address} {hop : UInt32} (hq : n.arpQueue = front ++ (dgram, nextHop) :: rest)
    (hfront : ∀ e ∈ front, e.2.ipv4Numeric ≠ hop) (hhop : nextHop.ipv4Numeric = hop)
    (hq' : n'.arpQueue = front ++ rest) :
    n'.heldFor ip = if hop = ip then (n.heldFor ip).tail else n.heldFor ip := by
  split
  · rename_i hip
    subst hip
    have hnil : front.filter (fun e => decide (e.2.ipv4Numeric = hop)) = [] :=
      List.filter_eq_nil_iff.mpr fun e he => by simpa using hfront e he
    rw [heldFor_of_queue hq hfront hhop, heldFor, hq', List.filter_append, hnil]
    rfl
  · rename_i hip
    rw [heldFor, heldFor, hq, hq', List.filter_append, List.filter_append,
      List.filter_cons_of_neg (by simpa [hhop] using hip)]

theorem project_learn (n : NetworkInterface) (msg : ARPMessage) :
    (n.learn msg).mappingCache.find? ip =
      if msg.senderIpAddress = ip then some (msg.senderEthernetAddress, 0)
      else n.mappingCache.find? ip := by
  split
  · rename_i hip
    rw [← hip]
    exact SortedMap.find?_insert_self ..
  · rename_i hip
    exact SortedMap.find?_insert_of_ne _ _ (Ne.symm hip)

theorem localOp_hear {frame : EthernetFrame} (hacc : n.acceptedArp frame = some msg) :
    n.localOp ip (.recvFrame frame) =
      if msg.senderIpAddress = ip then some (.hear msg) else none := by
  rw [localOp, hacc]
  rfl

/-- An accepted message is one step of the machine of its sender, and none of any other. -/
theorem project_hear {frame : EthernetFrame} (hacc : n.acceptedArp frame = some msg)
    (hcache : n'.mappingCache = (n.learn msg).mappingCache)
    (hheld : ∀ ip, n'.heldFor ip =
      if msg.senderIpAddress = ip then ((n.project ip).step (.hear msg)).waiting
      else n.heldFor ip) :
    n'.project ip =
      (n.localOp ip (.recvFrame frame)).elim (n.project ip) (n.project ip).step := by
  rw [localOp_hear hacc, project, hcache, project_learn, hheld]
  split <;> rfl

theorem Effect.project (h : Effect n op frames n') (ip : UInt32) :
    n'.project ip = (n.localOp ip op).elim (n.project ip) (n.project ip).step := by
  cases h with
  | dropped hfind | sent hfind =>
    rw [localOp]
    split
    · rename_i hip
      rw [hip] at hfind
      simp [NetworkInterface.project, Resolver.step, push, heldFor, hfind]
    · rfl
  | asked hfind =>
    rename_i dgram nextHop
    rw [localOp, NetworkInterface.project, heldFor_concat]
    split
    · rename_i hip
      rw [hip] at hfind
      have hself : (n.resolve dgram nextHop).mappingCache.find? ip =
          some (ETHERNET_BROADCAST, 0) := by
        rw [← hip]
        exact SortedMap.find?_insert_self ..
      simp [NetworkInterface.project, Resolver.step, hfind, hself]
    · rename_i hip
      rw [List.append_nil]
      exact congrArg (Resolver.mk · _) (SortedMap.find?_insert_of_ne _ _ (Ne.symm hip))
  | unheard hacc =>
    rw [localOp, hacc]
    rfl
  | learned hacc hkeep =>
    refine project_hear hacc rfl fun ip => ?_
    split
    · rename_i hip
      rw [← hip]
      exact hkeep.symm
    · rfl
  | answered hacc hrequest =>
    refine project_hear hacc rfl fun ip => ?_
    simp [Resolver.step, Resolver.takesFirst, hrequest, NetworkInterface.project, heldFor, push,
      learn]
  | released hacc hreply hne hq hfront hhop hser =>
    refine project_hear hacc rfl fun ip => ?_
    rw [heldFor_taken hq hfront hhop rfl]
    split
    · rename_i hip
      rw [hip] at hfront hhop
      have hfirst := (front_project hq hfront hhop).trans (congrArg Except.toOption hser)
      rw [Resolver.step, Resolver.takesFirst_of_front hreply hfirst]
      rfl
    · rfl
  | discarded hacc hreply heq hq hfront hhop =>
    refine project_hear hacc rfl fun ip => ?_
    rw [heldFor_taken hq hfront hhop rfl]
    split
    · rw [Resolver.step, Resolver.takesFirst_of_broadcast hreply heq]
      rfl
    · rfl
  | ticked =>
    rw [NetworkInterface.project, tick_find]
    rfl

/-! ### What a call emits for one address -/

theorem requestFor_ipv4 (n : NetworkInterface) (dst : EthernetAddress) (payload : BufferList) :
    requestFor (n.frameTo dst EthernetHeader.TYPE_IPv4 payload) = none := if_neg (by
  show EthernetHeader.TYPE_IPv4 ≠ EthernetHeader.TYPE_ARP
  decide)

theorem requestFor_arp (h : msg.supported = true) (n : NetworkInterface) (dst : EthernetAddress) :
    requestFor (n.frameTo dst EthernetHeader.TYPE_ARP [msg.bytes]) =
      if msg.opcode = ARPMessage.OPCODE_REQUEST then some msg.targetIpAddress else none := by
  have htype : (n.frameTo dst EthernetHeader.TYPE_ARP [msg.bytes]).header.type =
      EthernetHeader.TYPE_ARP := rfl
  have hparse : (n.frameTo dst EthernetHeader.TYPE_ARP [msg.bytes]).payload.toBuffer >>=
      ARPMessage.parse {} = .ok (.noError, msg) := ARPMessage.parse_bytes h {}
  rw [requestFor, if_pos htype, hparse]

/-- Only a machine without an entry asks, and a call asks once at most. -/
theorem Effect.requests (h : Effect n op frames n') :
    frames.filterMap requestFor = [] ∨ ∃ ip o, frames.filterMap requestFor = [ip] ∧
      n.localOp ip op = some o ∧ (n.project ip).asks o = true := by
  cases h with
  | dropped | unheard | learned | discarded | ticked => exact Or.inl rfl
  | sent | released =>
    refine Or.inl ?_
    rw [List.filterMap_cons_none (requestFor_ipv4 ..)]
    rfl
  | answered =>
    have hreply : ARPMessage.OPCODE_REPLY ≠ ARPMessage.OPCODE_REQUEST := by decide
    refine Or.inl ?_
    rw [List.filterMap_cons_none ((requestFor_arp rfl ..).trans (if_neg hreply))]
    rfl
  | asked hfind =>
    refine Or.inr ⟨_, _, ?_, if_pos rfl, ?_⟩
    · rw [List.filterMap_cons_some ((requestFor_arp rfl ..).trans (if_pos rfl))]
      rfl
    · rw [Resolver.asks, NetworkInterface.project, hfind]
      rfl

/-- An IPv4 frame carries the datagram of the call, or one that leaves the queue. -/
theorem Effect.carries (h : Effect n op frames n') {frame : EthernetFrame}
    (hframe : frame ∈ ipv4Frames frames) :
    ∃ e, (op = .sendDatagram e.1 e.2 ∨ ∃ front rest, n.arpQueue = front ++ e :: rest ∧
        n'.arpQueue = front ++ rest) ∧ Carries frame e ∧
      n.hopOf op = some e.2.ipv4Numeric ∧ frame.header.src = n.ethernetAddress := by
  cases h with
  | dropped | unheard | learned | discarded | ticked | asked | answered =>
    exact absurd hframe List.not_mem_nil
  | sent hfind hne hser =>
    obtain rfl := List.mem_singleton.mp hframe
    exact ⟨(_, _), Or.inl rfl, hser, rfl, rfl⟩
  | released hacc hreply hne hq hfront hhop hser =>
    obtain rfl := List.mem_singleton.mp hframe
    refine ⟨(_, _), Or.inr ⟨_, _, hq, rfl⟩, hser, ?_, rfl⟩
    rw [hopOf, hacc, hhop]
    rfl

/-- The frames that a step of one machine puts on the wire. -/
def sentFor (n : NetworkInterface) (ip : UInt32) (o : ResolverOp) : List EthernetFrame :=
  (((n.project ip).sends o).map fun e => n.frameTo e.1 EthernetHeader.TYPE_IPv4 e.2).toList

/-- A call about one next hop. -/
theorem framesFor_of_hop {hop : UInt32} {o : ResolverOp} (hhop : n.hopOf op = some hop)
    (hlocal : ∀ ip, n.localOp ip op = if hop = ip then some o else none)
    (hframes : ipv4Frames frames = n.sentFor hop o) :
    (if n.hopOf op = some ip then ipv4Frames frames else []) =
      (n.localOp ip op).elim [] (n.sentFor ip) := by
  rw [hhop, hlocal]
  by_cases hip : hop = ip
  · rw [if_pos (congrArg some hip), if_pos hip, hframes, hip]
    rfl
  · rw [if_neg (fun h => hip (Option.some.inj h)), if_neg hip]
    rfl

theorem Effect.framesFor (h : Effect n op frames n') (ip : UInt32) :
    (if n.hopOf op = some ip then ipv4Frames frames else []) =
      (n.localOp ip op).elim [] (n.sentFor ip) := by
  have hhop : ∀ {frame msg}, n.acceptedArp frame = some msg →
      n.hopOf (.recvFrame frame) = some msg.senderIpAddress := by
    intro frame msg hacc
    rw [hopOf, hacc]
    rfl
  cases h with
  | dropped hfind hnone =>
    refine framesFor_of_hop rfl (fun _ => rfl) ?_
    simp [sentFor, Resolver.sends, NetworkInterface.project, hfind, hnone, ipv4Frames]
  | sent hfind hne hser =>
    refine framesFor_of_hop rfl (fun _ => rfl) ?_
    simp [sentFor, Resolver.sends, Resolver.toKnown, NetworkInterface.project, hfind, hser, hne,
      ipv4Frames_ipv4, Except.toOption]
  | asked hfind =>
    refine framesFor_of_hop rfl (fun _ => rfl) ?_
    simp [sentFor, Resolver.sends, NetworkInterface.project, hfind, ipv4Frames_arp]
  | unheard hacc => simp [hopOf, localOp, hacc]
  | learned hacc hkeep hnone =>
    refine framesFor_of_hop (hhop hacc) (fun _ => localOp_hear hacc) ?_
    rw [sentFor, hnone]
    rfl
  | answered hacc hrequest =>
    refine framesFor_of_hop (hhop hacc) (fun _ => localOp_hear hacc) ?_
    rw [sentFor, Resolver.sends, if_neg hrequest, ipv4Frames_arp]
    rfl
  | released hacc hreply hne hq hfront hhop' hser =>
    refine framesFor_of_hop (hhop hacc) (fun _ => localOp_hear hacc) ?_
    rw [sentFor, Resolver.sends, if_pos hreply, front_project hq hfront hhop', hser,
      Resolver.toKnown, if_neg hne, ipv4Frames_ipv4]
    rfl
  | discarded hacc hreply heq hq hfront hhop' =>
    refine framesFor_of_hop (hhop hacc) (fun _ => localOp_hear hacc) ?_
    rw [sentFor, Resolver.sends, if_pos hreply, Resolver.toKnown, if_pos heq]
    rfl
  | ticked => rfl

end Effect

/-! ### The interface is one machine per address -/

theorem interfaceStep_ethernetAddress (n : NetworkInterface) (op : InterfaceOp) :
    (interfaceStep n op).ethernetAddress = n.ethernetAddress := by
  obtain ⟨frames, h⟩ := effect n op
  exact h.ethernetAddress

/-- **One machine per address.**  A call is one step of the machines that it concerns, and
leaves every other machine as it is. -/
theorem follows (n : NetworkInterface) (op : InterfaceOp) (ip : UInt32) :
    (interfaceStep n op).project ip =
      (n.localOp ip op).elim (n.project ip) (n.project ip).step := by
  obtain ⟨frames, h⟩ := effect n op
  exact h.project ip

/-- **The frames for one next hop** are those that its machine sends. -/
theorem framesFor_eq (n : NetworkInterface) (ip : UInt32) (op : InterfaceOp) :
    n.framesFor ip op = (n.localOp ip op).elim [] (n.sentFor ip) := by
  obtain ⟨frames, h⟩ := effect n op
  rw [framesFor, h.emitted]
  exact h.framesFor ip

/-- The two views of an interface agree on an address. -/
def SameFor (ip : UInt32) (n m : NetworkInterface) : Prop :=
  n.ethernetAddress = m.ethernetAddress ∧ n.project ip = m.project ip

variable {m : NetworkInterface}

/-- Whom a call concerns depends on nothing that a call can change. -/
theorem localOp_congr (h : n.ethernetAddress = m.ethernetAddress) (ip : UInt32)
    (op : InterfaceOp) : n.localOp ip op = m.localOp ip op := by
  cases op with
  | sendDatagram | tick => rfl
  | recvFrame frame => rw [localOp, localOp, acceptedArp, acceptedArp, h]

theorem SameFor.framesFor (h : SameFor ip n m) (op : InterfaceOp) :
    n.framesFor ip op = m.framesFor ip op := by
  have hsent : n.sentFor ip = m.sentFor ip := by
    funext o
    rw [sentFor, sentFor, h.2]
    simp only [frameTo, h.1]
  rw [framesFor_eq, framesFor_eq, localOp_congr h.1, hsent]

theorem SameFor.step (h : SameFor ip n m) (op : InterfaceOp) :
    SameFor ip (interfaceStep n op) (interfaceStep m op) := by
  refine ⟨?_, ?_⟩
  · rw [interfaceStep_ethernetAddress, interfaceStep_ethernetAddress, h.1]
  · rw [follows, follows, localOp_congr h.1, h.2]

/-- A call that does not concern an address makes no difference to it. -/
theorem SameFor.skip (h : SameFor ip n m) (hop : n.localOp ip op = none) :
    SameFor ip (interfaceStep n op) m := by
  refine ⟨(interfaceStep_ethernetAddress n op).trans h.1, ?_⟩
  rw [follows, hop]
  exact h.2

/-! ### Whole runs -/

def InterfaceOp.elapsed : InterfaceOp → ℕ
  | .tick ms => ms
  | _ => 0

/-- The milliseconds that pass in a run. -/
def ticks (ops : List InterfaceOp) : ℕ := (ops.map InterfaceOp.elapsed).sum

theorem localOp_elapsed (n : NetworkInterface) (ip : UInt32) (op : InterfaceOp) :
    op.elapsed = (n.localOp ip op).elim 0 ResolverOp.elapsed := by
  cases op with
  | tick ms => rfl
  | sendDatagram dgram nextHop =>
    rw [localOp]
    split <;> rfl
  | recvFrame frame =>
    rw [localOp]
    cases n.acceptedArp frame with
    | none => rfl
    | some msg =>
      show 0 = Option.elim (if msg.senderIpAddress = ip then _ else _) _ _
      split <;> rfl

/-- An interface with the time, the requests that it has sent and the ARP messages that it has
accepted, each with the time at which that was. -/
structure ArpTrace where
  iface : NetworkInterface
  clock : ℕ := 0
  requests : List (ℕ × UInt32) := []
  heard : List (ℕ × ARPMessage) := []

namespace ArpTrace

def start (ethernetAddress : EthernetAddress) (ipAddress : Address) : ArpTrace :=
  { iface := .new ethernetAddress ipAddress }

def traceStep (t : ArpTrace) (op : InterfaceOp) : ArpTrace where
  iface := interfaceStep t.iface op
  clock := t.clock + op.elapsed
  requests := t.requests ++ ((t.iface.emitted op).filterMap requestFor).map (t.clock, ·)
  heard := t.heard ++ (t.iface.heardBy op).toList.map (t.clock, ·)

/-- The most recent accepted message from an address. -/
def lastHeard (t : ArpTrace) (ip : UInt32) : Option (ℕ × ARPMessage) :=
  (t.heard.filter fun e => e.2.senderIpAddress = ip).getLast?

variable {t : ArpTrace}

theorem lastHeard_traceStep (t : ArpTrace) (op : InterfaceOp) (ip : UInt32) :
    (t.traceStep op).lastHeard ip = (t.iface.localOp ip op).elim (t.lastHeard ip)
      (Resolver.lastAfter (t.lastHeard ip) t.clock) := by
  have hquiet : t.iface.heardBy op = none →
      (t.traceStep op).lastHeard ip = t.lastHeard ip := by
    intro hnone
    rw [lastHeard, traceStep, hnone]
    show List.getLast? (List.filter _ (t.heard ++ [])) = _
    rw [List.append_nil]
    rfl
  cases op with
  | tick ms => exact hquiet rfl
  | sendDatagram dgram nextHop =>
    rw [hquiet rfl, localOp]
    split <;> rfl
  | recvFrame frame =>
    cases hacc : t.iface.acceptedArp frame with
    | none =>
      rw [hquiet hacc, localOp, hacc]
      rfl
    | some msg =>
      rw [localOp_hear hacc, lastHeard, traceStep, heardBy, hacc]
      show List.getLast? (List.filter _ (t.heard ++ [(t.clock, msg)])) = _
      rw [List.filter_append]
      split
      · rename_i hip
        rw [List.filter_cons_of_pos (by simpa using hip), List.filter_nil,
          List.getLast?_concat]
        rfl
      · rename_i hip
        rw [List.filter_cons_of_neg (by simpa using hip), List.filter_nil, List.append_nil]
        rfl

/-- The requests are five seconds apart, and the machines of all addresses keep time. -/
structure Timely (t : ArpTrace) : Prop where
  quiet : ∀ e ∈ t.requests, (t.iface.project e.2).Quiet e.1 t.clock
  apart : t.requests.Pairwise fun e e' => e.2 = e'.2 → e.1 + 5000 ≤ e'.1
  fresh : ∀ ip, (t.iface.project ip).Fresh (t.lastHeard ip) t.clock

theorem Timely.start (ethernetAddress : EthernetAddress) (ipAddress : Address) :
    Timely (start ethernetAddress ipAddress) where
  quiet _ he := absurd he List.not_mem_nil
  apart := .nil
  fresh _ _ _ hentry := by cases hentry

theorem Timely.quiet_step (h : Timely t) {op : InterfaceOp}
    (htime : t.clock + op.elapsed < 2 ^ 64) {e : ℕ × UInt32} (he : e ∈ t.requests) :
    ((t.traceStep op).iface.project e.2).Quiet e.1 (t.traceStep op).clock := by
  have hquiet := h.quiet e he
  rw [localOp_elapsed t.iface e.2] at htime
  rw [traceStep, follows, localOp_elapsed t.iface e.2]
  cases hlocal : t.iface.localOp e.2 op with
  | none => exact hquiet
  | some o =>
    rw [hlocal] at htime
    exact hquiet.step o htime

theorem Timely.fresh_step (h : Timely t) {op : InterfaceOp}
    (htime : t.clock + op.elapsed < 2 ^ 64) (ip : UInt32) :
    ((t.traceStep op).iface.project ip).Fresh ((t.traceStep op).lastHeard ip)
      (t.traceStep op).clock := by
  have hfresh := h.fresh ip
  rw [lastHeard_traceStep]
  rw [localOp_elapsed t.iface ip] at htime
  rw [traceStep, follows, localOp_elapsed t.iface ip]
  cases hlocal : t.iface.localOp ip op with
  | none => exact hfresh
  | some o =>
    rw [hlocal] at htime
    exact hfresh.step o htime

/-- A machine that asks has now an entry for the address, new as the request. -/
theorem quiet_asked {ip : UInt32} {op : InterfaceOp} {o : ResolverOp}
    (hlocal : t.iface.localOp ip op = some o) (hasks : (t.iface.project ip).asks o = true) :
    ((t.traceStep op).iface.project ip).Quiet t.clock (t.traceStep op).clock := by
  have hclock : t.clock ≤ t.clock + op.elapsed := Nat.le_add_right ..
  rw [traceStep, follows, hlocal]
  cases o with
  | send dgram nextHop =>
    have hnone : (t.iface.project ip).entry.isNone = true := hasks
    refine ⟨hclock, Or.inr ⟨(ETHERNET_BROADCAST, 0), ?_, hclock⟩⟩
    show ((t.iface.project ip).step (.send dgram nextHop)).entry = _
    rw [Resolver.step, if_pos hnone]
  | hear | tick => cases hasks

theorem Timely.step (h : Timely t) {op : InterfaceOp} (htime : t.clock + op.elapsed < 2 ^ 64) :
    Timely (t.traceStep op) := by
  obtain ⟨frames, heffect⟩ := effect t.iface op
  have hrequests : (t.traceStep op).requests =
      t.requests ++ (frames.filterMap requestFor).map (t.clock, ·) := by
    rw [traceStep, heffect.emitted]
  obtain hnone | ⟨ip, o, hone, hlocal, hasks⟩ := heffect.requests
  · rw [hnone, List.map_nil, List.append_nil] at hrequests
    refine ⟨fun e he => ?_, ?_, h.fresh_step htime⟩
    · rw [hrequests] at he
      exact h.quiet_step htime he
    · rw [hrequests]
      exact h.apart
  · rw [hone, List.map_singleton] at hrequests
    refine ⟨fun e he => ?_, ?_, h.fresh_step htime⟩
    · rw [hrequests] at he
      obtain hold | hnew := List.mem_append.mp he
      · exact h.quiet_step htime hold
      · obtain rfl := List.mem_singleton.mp hnew
        exact quiet_asked hlocal hasks
    · rw [hrequests]
      refine List.pairwise_append.mpr
        ⟨h.apart, List.pairwise_singleton .., fun e he e' he' hip => ?_⟩
      obtain rfl := List.mem_singleton.mp he'
      obtain rfl : e.2 = ip := hip
      exact (h.quiet e he).asks hasks

/-- A bound on the time of the whole run is one at every step. -/
theorem along_of_ticks {ops : List InterfaceOp} (h : t.clock + ticks ops < 2 ^ 64) :
    Along traceStep (fun t op => t.clock + op.elapsed < 2 ^ 64) t ops := by
  induction ops generalizing t with
  | nil => trivial
  | cons op ops ih =>
    have hsum : ticks (op :: ops) = op.elapsed + ticks ops := List.sum_cons
    refine ⟨by omega, ih ?_⟩
    show t.clock + op.elapsed + ticks ops < 2 ^ 64
    omega

/-- **Requests are rate limited.**  In every run, two requests for one address are at least five
seconds apart. -/
theorem requests_rate_limited (ethernetAddress : EthernetAddress) (ipAddress : Address)
    (ops : List InterfaceOp) (htime : ticks ops < 2 ^ 64) :
    (run traceStep (start ethernetAddress ipAddress) ops).requests.Pairwise
      fun e e' => e.2 = e'.2 → e.1 + 5000 ≤ e'.1 := by
  have hclock : (start ethernetAddress ipAddress).clock + ticks ops < 2 ^ 64 := by
    show 0 + ticks ops < 2 ^ 64
    omega
  have hrun : Timely (run traceStep (start ethernetAddress ipAddress) ops) :=
    run_invariant (fun _ _ h htime => h.step htime) (.start ..) (along_of_ticks hclock)
  exact hrun.apart

/-- Of two datagrams five seconds apart, each asks for the address. -/
theorem requests_rate_limited_twice :
    (run traceStep (start #v[2, 0, 0, 0, 0, 1] { ip := 1 })
        [.sendDatagram {} { ip := 9 }, .sendDatagram {} { ip := 9 }, .tick 5000,
          .sendDatagram {} { ip := 9 }]).requests = [(0, 9), (5000, 9)] ∧
      ([(0, 9), (5000, 9)] : List (ℕ × UInt32)).Pairwise
        fun e e' => e.2 = e'.2 → e.1 + 5000 ≤ e'.1 := by
  have hrequests : (run traceStep (start #v[2, 0, 0, 0, 0, 1] { ip := 1 })
      [.sendDatagram {} { ip := 9 }, .sendDatagram {} { ip := 9 }, .tick 5000,
        .sendDatagram {} { ip := 9 }]).requests = [(0, 9), (5000, 9)] := by decide +kernel
  refine ⟨hrequests, ?_⟩
  rw [← hrequests]
  exact requests_rate_limited _ _ _ (by decide)

/-- A frame that a call emits carries a datagram for a next hop, goes from this interface to the
address of the last message from that next hop, and that message is less than thirty seconds
old. -/
def GoesToFresh (t : ArpTrace) (op : InterfaceOp) (frame : EthernetFrame) : Prop :=
  ∃ e, (op = .sendDatagram e.1 e.2 ∨ ∃ front rest, t.iface.arpQueue = front ++ e :: rest ∧
      (t.traceStep op).iface.arpQueue = front ++ rest) ∧ Carries frame e ∧
    t.iface.hopOf op = some e.2.ipv4Numeric ∧
    frame.header.src = t.iface.ethernetAddress ∧ frame.header.dst ≠ ETHERNET_BROADCAST ∧
    ∃ time msg, (t.traceStep op).lastHeard e.2.ipv4Numeric = some (time, msg) ∧
      frame.header.dst = msg.senderEthernetAddress ∧ t.clock < time + 30000

theorem Timely.goesToFresh (h : Timely t) {op : InterfaceOp} {frame : EthernetFrame}
    (hframe : frame ∈ ipv4Frames (t.iface.emitted op)) : GoesToFresh t op frame := by
  obtain ⟨frames, heffect⟩ := effect t.iface op
  rw [heffect.emitted] at hframe
  obtain ⟨e, hfrom, hcarries, hhop, hsrc⟩ := heffect.carries hframe
  -- the machine of the next hop has sent the frame
  have hmine : frame ∈ t.iface.framesFor e.2.ipv4Numeric op := by
    rw [framesFor, if_pos hhop, heffect.emitted]
    exact hframe
  rw [framesFor_eq] at hmine
  cases hlocal : t.iface.localOp e.2.ipv4Numeric op with
  | none =>
    rw [hlocal] at hmine
    exact absurd hmine List.not_mem_nil
  | some o =>
    rw [hlocal] at hmine
    obtain ⟨⟨dst, payload⟩, hsends, hto⟩ :=
      Option.map_eq_some_iff.mp (Option.mem_toList.mp hmine)
    obtain ⟨hne, time, msg, hlast, hdst, hyoung⟩ := (h.fresh e.2.ipv4Numeric).sends hsends
    have hdst' : frame.header.dst = dst := by
      rw [← hto]
      rfl
    refine ⟨e, hfrom, hcarries, hhop, hsrc, hdst' ▸ hne, time, msg, ?_, hdst'.trans hdst, hyoung⟩
    rw [lastHeard_traceStep, hlocal]
    exact hlast

end ArpTrace

/-- The IPv4 frames that a run emits for one next hop, each with the time of the call. -/
def framesAlong (ip : UInt32) : NetworkInterface → ℕ → List InterfaceOp → List (ℕ × EthernetFrame)
  | _, _, [] => []
  | n, clock, op :: ops =>
    (n.framesFor ip op).map (clock, ·) ++
      framesAlong ip (interfaceStep n op) (clock + op.elapsed) ops

/-- The call is about the address, or lets time pass. -/
def concerns (n : NetworkInterface) (ip : UInt32) (op : InterfaceOp) : Bool :=
  (n.localOp ip op).isSome

theorem concerns_step (n : NetworkInterface) (op : InterfaceOp) (ip : UInt32) :
    (interfaceStep n op).concerns ip = n.concerns ip := by
  funext op'
  rw [concerns, concerns, localOp_congr (interfaceStep_ethernetAddress n op)]

/-- **Other addresses do not matter.** -/
theorem SameFor.framesAlong (h : SameFor ip n m) (clock : ℕ) (ops : List InterfaceOp) :
    framesAlong ip n clock ops = framesAlong ip m clock (ops.filter (n.concerns ip)) := by
  induction ops generalizing n m clock with
  | nil => rfl
  | cons op ops ih =>
    cases hlocal : n.localOp ip op with
    | none =>
      have hskip : ¬ n.concerns ip op = true := by simp [concerns, hlocal]
      have hclock : op.elapsed = 0 := by rw [localOp_elapsed n ip, hlocal]; rfl
      have hquiet : n.framesFor ip op = [] := by rw [framesFor_eq, hlocal]; rfl
      rw [NetworkInterface.framesAlong, hquiet, hclock, List.filter_cons_of_neg hskip,
        ih (h.skip hlocal), concerns_step]
      rfl
    | some o =>
      have hkeep : n.concerns ip op = true := by simp [concerns, hlocal]
      rw [List.filter_cons_of_pos hkeep, NetworkInterface.framesAlong,
        NetworkInterface.framesAlong, h.framesFor, ih (h.step op), concerns_step]

namespace ArpTrace

/-- **IPv4 frames only go to fresh, learned addresses.**  In every run, each frame that carries a
datagram goes from the interface's own address to that of the last accepted ARP message from the
next hop, which is not the broadcast address and was heard less than thirty seconds ago.  Leaving
out the calls about other addresses changes none of the frames for a next hop. -/
theorem ipv4_frames_fresh (ethernetAddress : EthernetAddress) (ipAddress : Address)
    (ops : List InterfaceOp) (htime : ticks ops < 2 ^ 64) :
    Along traceStep (fun t op => ∀ frame ∈ ipv4Frames (t.iface.emitted op),
        GoesToFresh t op frame) (start ethernetAddress ipAddress) ops ∧
      ∀ hop, framesAlong hop (.new ethernetAddress ipAddress) 0 ops =
        framesAlong hop (.new ethernetAddress ipAddress) 0
          (ops.filter ((NetworkInterface.new ethernetAddress ipAddress).concerns hop)) := by
  have hclock : (start ethernetAddress ipAddress).clock + ticks ops < 2 ^ 64 := by
    show 0 + ticks ops < 2 ^ 64
    omega
  refine ⟨?_, fun hop => ?_⟩
  · refine along_of_invariant (I := Timely) ?_ ?_ (.start ..) (along_of_ticks hclock)
    · exact fun _ _ h htime => h.step htime
    · exact fun _ _ h _ _ hframe => h.goesToFresh hframe
  · have hself : SameFor hop (.new ethernetAddress ipAddress) (.new ethernetAddress ipAddress) :=
      ⟨rfl, rfl⟩
    exact hself.framesAlong 0 ops

/-- A datagram released by a reply, and one sent before the mapping expires. -/
def resolvedRun : List InterfaceOp :=
  [.sendDatagram { header := { len := 20 } } { ip := 9 },
    .recvFrame
      { header := { dst := #v[2, 0, 0, 0, 1, 1], type := EthernetHeader.TYPE_ARP }
        payload := [ARPMessage.bytes
          { opcode := ARPMessage.OPCODE_REPLY, senderIpAddress := 9
            senderEthernetAddress := #v[2, 0, 0, 0, 1, 9] }] },
    .tick 29999, .sendDatagram { header := { len := 20, id := 1 } } { ip := 9 }]

/-- Both frames go to the address in the reply. -/
theorem ipv4_frames_fresh_resolved :
    Along traceStep (fun t op => ∀ frame ∈ ipv4Frames (t.iface.emitted op),
        GoesToFresh t op frame) (start #v[2, 0, 0, 0, 1, 1] { ip := 1 }) resolvedRun ∧
      (framesAlong 9 (.new #v[2, 0, 0, 0, 1, 1] { ip := 1 }) 0 resolvedRun).map
          (fun e => (e.1, e.2.header)) =
        [(0, { dst := #v[2, 0, 0, 0, 1, 9], src := #v[2, 0, 0, 0, 1, 1]
               type := EthernetHeader.TYPE_IPv4 }),
          (29999, { dst := #v[2, 0, 0, 0, 1, 9], src := #v[2, 0, 0, 0, 1, 1]
                    type := EthernetHeader.TYPE_IPv4 })] :=
  ⟨(ipv4_frames_fresh _ _ _ (by decide)).1, by decide +kernel⟩

end ArpTrace

end NetworkInterface

end Sponge
