import Sponge.ArpMessage
import Sponge.Ipv4Datagram
import Sponge.Lib.SortedMap

/-!
# The network interface

The cache maps an IP address to an Ethernet address and the age of the entry.  One map serves
two purposes: an entry that holds the broadcast address marks a resolution in progress.  A
datagram for an unknown next hop waits in the ARP queue.

Every call is a state change that may throw half-way, so `sendDatagram` and `recvFrame` are
`Call`s; the lemmas after each definition say what it does in every case, and no later proof
unfolds one.
-/

namespace Sponge

open Throwing MachineInt

namespace Ipv4Order

/-- The numeric order, which is the iteration order of `std::map<uint32_t, _>`. -/
scoped instance uint32LinearOrder : LinearOrder UInt32 where
  le_refl _ := UInt32.le_refl _
  le_trans _ _ _ := UInt32.le_trans
  le_antisymm _ _ := UInt32.le_antisymm
  le_total := UInt32.le_total
  lt_iff_le_not_ge a b := by
    rw [UInt32.lt_iff_toNat_lt, UInt32.le_iff_toNat_le, UInt32.le_iff_toNat_le]
    omega
  toDecidableLE := inferInstance

end Ipv4Order

open Ipv4Order

/-- An IPv4 socket address, by its number and its port. -/
structure Address where
  ip : UInt32
  port : UInt16 := 0
deriving DecidableEq, Repr

namespace Address

def ipv4Numeric (address : Address) : UInt32 := address.ip

def fromIpv4Numeric (ipAddress : UInt32) : Address := { ip := ipAddress }

end Address

structure NetworkInterface where
  ethernetAddress : EthernetAddress
  ipAddress : Address
  framesOut : List EthernetFrame := []
  mappingCache : SortedMap UInt32 (EthernetAddress × ℕ) := SortedMap.empty
  arpQueue : List (InternetDatagram × Address) := []
deriving DecidableEq

namespace NetworkInterface

def new (ethernetAddress : EthernetAddress) (ipAddress : Address) : NetworkInterface :=
  { ethernetAddress, ipAddress }

/-! ### Sending -/

/-- A frame from this interface. -/
def frameTo (n : NetworkInterface) (dst : EthernetAddress) (type : UInt16)
    (payload : BufferList) : EthernetFrame :=
  { header := { dst, src := n.ethernetAddress, type }, payload }

/-- The question for the owner of an IP address. -/
def arpRequest (n : NetworkInterface) (nextHopIp : UInt32) : ARPMessage :=
  { senderIpAddress := n.ipAddress.ipv4Numeric, senderEthernetAddress := n.ethernetAddress
    targetIpAddress := nextHopIp, opcode := ARPMessage.OPCODE_REQUEST }

/-- `_frames_out.push(frame)`. -/
def push (n : NetworkInterface) (frame : EthernetFrame) : NetworkInterface :=
  { n with framesOut := n.framesOut ++ [frame] }

def sendDatagram (dgram : InternetDatagram) (nextHop : Address) : Call NetworkInterface Unit := do
  let nextHopIp := nextHop.ipv4Numeric
  let n ← get
  match n.mappingCache.find? nextHopIp with
  | some (known, _) =>
    -- a resolution is in progress: nothing is sent and nothing is queued
    if known = ETHERNET_BROADCAST then return ()
    let payload ← ofExcept dgram.serialize
    set (n.push (n.frameTo known EthernetHeader.TYPE_IPv4 payload))
  | none =>
    let bytes ← ofExcept (n.arpRequest nextHopIp).serialize
    let n := n.push (n.frameTo ETHERNET_BROADCAST EthernetHeader.TYPE_ARP [bytes])
    set { n with
      arpQueue := n.arpQueue ++ [(dgram, nextHop)]
      mappingCache := n.mappingCache.insert nextHopIp (ETHERNET_BROADCAST, 0) }

/-- The interface after a datagram for an unknown next hop. -/
def resolve (n : NetworkInterface) (dgram : InternetDatagram) (nextHop : Address) :
    NetworkInterface :=
  { n with
    framesOut := n.framesOut ++ [n.frameTo ETHERNET_BROADCAST EthernetHeader.TYPE_ARP
      [(n.arpRequest nextHop.ipv4Numeric).bytes]]
    arpQueue := n.arpQueue ++ [(dgram, nextHop)]
    mappingCache := n.mappingCache.insert nextHop.ipv4Numeric (ETHERNET_BROADCAST, 0) }

variable {n : NetworkInterface} {dgram : InternetDatagram} {nextHop : Address}

/-- **What `send_datagram` does**: drop, send, throw or ask. -/
theorem sendDatagram_eq (dgram : InternetDatagram) (nextHop : Address) (n : NetworkInterface) :
    sendDatagram dgram nextHop n =
      match n.mappingCache.find? nextHop.ipv4Numeric with
      | some (known, _) =>
        if known = ETHERNET_BROADCAST then .ok () n
        else match dgram.serialize with
          | .ok payload => .ok () (n.push (n.frameTo known EthernetHeader.TYPE_IPv4 payload))
          | .error e => .error e n
      | none => .ok () (n.resolve dgram nextHop) := by
  show (match n.mappingCache.find? nextHop.ipv4Numeric with | some (known, _) => _ | none => _ :
    Call NetworkInterface Unit) n = _
  cases n.mappingCache.find? nextHop.ipv4Numeric with
  | none =>
    have hser := ARPMessage.serialize_ok
      (show (n.arpRequest nextHop.ipv4Numeric).supported from rfl)
    simp only [hser]
    rfl
  | some entry =>
    show (if entry.1 = ETHERNET_BROADCAST then _ else _ : Call NetworkInterface Unit) n =
      if entry.1 = ETHERNET_BROADCAST then _ else _
    by_cases hpending : entry.1 = ETHERNET_BROADCAST
    · rw [if_pos hpending, if_pos hpending]
      rfl
    · rw [if_neg hpending, if_neg hpending]
      cases dgram.serialize <;> rfl

theorem sendDatagram_pending {age : ℕ}
    (h : n.mappingCache.find? nextHop.ipv4Numeric = some (ETHERNET_BROADCAST, age)) :
    sendDatagram dgram nextHop n = .ok () n := by
  rw [sendDatagram_eq, h]
  exact if_pos rfl

theorem sendDatagram_known {known : EthernetAddress} {age : ℕ} {payload : BufferList}
    (h : n.mappingCache.find? nextHop.ipv4Numeric = some (known, age))
    (hne : known ≠ ETHERNET_BROADCAST) (hser : dgram.serialize = .ok payload) :
    sendDatagram dgram nextHop n =
      .ok () (n.push (n.frameTo known EthernetHeader.TYPE_IPv4 payload)) := by
  rw [sendDatagram_eq, h, hser]
  exact if_neg hne

theorem sendDatagram_throws {known : EthernetAddress} {age : ℕ} {e : Exception}
    (h : n.mappingCache.find? nextHop.ipv4Numeric = some (known, age))
    (hne : known ≠ ETHERNET_BROADCAST) (hser : dgram.serialize = .error e) :
    sendDatagram dgram nextHop n = .error e n := by
  rw [sendDatagram_eq, h, hser]
  exact if_neg hne

theorem sendDatagram_unknown (h : n.mappingCache.find? nextHop.ipv4Numeric = none) :
    sendDatagram dgram nextHop n = .ok () (n.resolve dgram nextHop) := by
  rw [sendDatagram_eq, h]

/-! ### Receiving -/

/-- The answer to a request for this interface. -/
def arpReply (n : NetworkInterface) (msg : ARPMessage) : ARPMessage :=
  { senderIpAddress := n.ipAddress.ipv4Numeric, senderEthernetAddress := n.ethernetAddress
    targetIpAddress := msg.senderIpAddress, targetEthernetAddress := msg.senderEthernetAddress
    opcode := ARPMessage.OPCODE_REPLY }

/-- The loop over the ARP queue on a reply, from the entry at position `i` on.  The first entry
for the address is sent and erased, and the loop is left. -/
def sendFirst (ip : UInt32) : ℕ → List (InternetDatagram × Address) → Call NetworkInterface Unit
  | _, [] => pure ()
  | i, (dgram, nextHop) :: rest =>
    if nextHop.ipv4Numeric = ip then do
      sendDatagram dgram nextHop
      modify fun n => { n with arpQueue := n.arpQueue.eraseIdx i }
    else sendFirst ip (i + 1) rest

/-- `_mapping_cache[sender_ip_address] = {sender_ethernet_address, 0}`. -/
def learn (n : NetworkInterface) (msg : ARPMessage) : NetworkInterface :=
  { n with
    mappingCache :=
      n.mappingCache.insert msg.senderIpAddress (msg.senderEthernetAddress, 0) }

/-- The part of `recv_frame` that follows an ARP message that was parsed. -/
def recvArp (msg : ARPMessage) : Call NetworkInterface Unit := do
  modify fun n => n.learn msg
  let n ← get
  if msg.opcode = ARPMessage.OPCODE_REQUEST then
    if n.ipAddress.ipv4Numeric = msg.targetIpAddress then
      let bytes ← ofExcept (n.arpReply msg).serialize
      set (n.push (n.frameTo msg.senderEthernetAddress EthernetHeader.TYPE_ARP [bytes]))
  else if msg.opcode = ARPMessage.OPCODE_REPLY then
    sendFirst msg.senderIpAddress 0 n.arpQueue

def recvFrame (frame : EthernetFrame) : Call NetworkInterface (Option InternetDatagram) := do
  let n ← get
  if frame.header.dst ≠ ETHERNET_BROADCAST ∧ frame.header.dst ≠ n.ethernetAddress then
    return none
  if frame.header.type = EthernetHeader.TYPE_IPv4 then
    let (res, datagram) ← ofExcept (frame.payload.toBuffer >>= IPv4Datagram.parse {})
    if res = .noError then return some datagram
    return none
  if frame.header.type = EthernetHeader.TYPE_ARP then
    let (res, arpMessage) ← ofExcept (frame.payload.toBuffer >>= ARPMessage.parse {})
    if res = .noError then
      recvArp arpMessage
      return none
    return none
  return none

/-- The ARP message that `recv_frame` accepts in a frame, if there is one. -/
def acceptedArp (n : NetworkInterface) (frame : EthernetFrame) : Option ARPMessage :=
  if frame.header.dst ≠ ETHERNET_BROADCAST ∧ frame.header.dst ≠ n.ethernetAddress then none
  else if frame.header.type = EthernetHeader.TYPE_ARP then
    match frame.payload.toBuffer >>= ARPMessage.parse {} with
    | .ok (.noError, msg) => some msg
    | _ => none
  else none

/-- The datagrams that wait for an address, oldest first. -/
def heldFor (n : NetworkInterface) (ip : UInt32) : List (InternetDatagram × Address) :=
  n.arpQueue.filter fun e => e.2.ipv4Numeric = ip

theorem heldFor_of_queue {ip : UInt32}
    {front rest : List (InternetDatagram × Address)}
    (hq : n.arpQueue = front ++ (dgram, nextHop) :: rest)
    (hfront : ∀ e ∈ front, e.2.ipv4Numeric ≠ ip) (hhop : nextHop.ipv4Numeric = ip) :
    n.heldFor ip = (dgram, nextHop) :: rest.filter fun e => e.2.ipv4Numeric = ip := by
  have hnil : front.filter (fun e => decide (e.2.ipv4Numeric = ip)) = [] :=
    List.filter_eq_nil_iff.mpr fun e he => by simpa using hfront e he
  rw [heldFor, hq, List.filter_append, hnil, List.nil_append,
    List.filter_cons_of_pos (by simpa using hhop)]

theorem heldFor_eq_nil {ip : UInt32}
    (h : ∀ e ∈ n.arpQueue, e.2.ipv4Numeric ≠ ip) : n.heldFor ip = [] :=
  List.filter_eq_nil_iff.mpr fun e he => by simpa using h e he

theorem sendFirst_nil {ip : UInt32} {q : List (InternetDatagram × Address)}
    (h : ∀ e ∈ q, e.2.ipv4Numeric ≠ ip) (i : ℕ) (n : NetworkInterface) :
    sendFirst ip i q n = .ok () n := by
  induction q generalizing i with
  | nil => rfl
  | cons e q ih =>
    rw [sendFirst, if_neg (h e List.mem_cons_self)]
    exact ih (fun e' he => h e' (List.mem_cons_of_mem _ he)) (i + 1)

/-- The loop passes over the entries for other addresses. -/
theorem sendFirst_skip {ip : UInt32} {q : List (InternetDatagram × Address)}
    (h : ∀ e ∈ q, e.2.ipv4Numeric ≠ ip) (rest : List (InternetDatagram × Address)) (i : ℕ) :
    sendFirst ip i (q ++ rest) = sendFirst ip (i + q.length) rest := by
  induction q generalizing i with
  | nil => rfl
  | cons e q ih =>
    rw [List.cons_append, sendFirst, if_neg (h e List.mem_cons_self),
      ih (fun e' he => h e' (List.mem_cons_of_mem _ he)) (i + 1), List.length_cons,
      Nat.add_assoc, Nat.add_comm 1]

/-- A request for this interface is answered. -/
theorem recvArp_answered {msg : ARPMessage} (h : msg.opcode = ARPMessage.OPCODE_REQUEST)
    (hme : n.ipAddress.ipv4Numeric = msg.targetIpAddress) :
    recvArp msg n = .ok () ((n.learn msg).push (n.frameTo msg.senderEthernetAddress
      EthernetHeader.TYPE_ARP [(n.arpReply msg).bytes])) := by
  have hser : ((n.learn msg).arpReply msg).serialize = .ok (n.arpReply msg).bytes :=
    ARPMessage.serialize_ok (show (n.arpReply msg).supported from rfl)
  rw [recvArp]
  simp only [if_pos h]
  show (if n.ipAddress.ipv4Numeric = msg.targetIpAddress then _ else _ :
    Call NetworkInterface Unit) (n.learn msg) = _
  rw [if_pos hme, hser]
  rfl

/-- A message that is not a reply touches neither the queue nor the IPv4 frames. -/
theorem recvArp_request {msg : ARPMessage} (h : msg.opcode ≠ ARPMessage.OPCODE_REPLY)
    (n : NetworkInterface) :
    recvArp msg n = .ok () (n.learn msg) ∨
      recvArp msg n = .ok () ((n.learn msg).push (n.frameTo msg.senderEthernetAddress
        EthernetHeader.TYPE_ARP [(n.arpReply msg).bytes])) := by
  by_cases hreq : msg.opcode = ARPMessage.OPCODE_REQUEST
  · by_cases hme : n.ipAddress.ipv4Numeric = msg.targetIpAddress
    · exact Or.inr (recvArp_answered hreq hme)
    · refine Or.inl ?_
      rw [recvArp]
      simp only [if_pos hreq]
      show (if n.ipAddress.ipv4Numeric = msg.targetIpAddress then _ else _ :
        Call NetworkInterface Unit) (n.learn msg) = _
      rw [if_neg hme]
      rfl
  · refine Or.inl ?_
    rw [recvArp]
    simp only [if_neg hreq, if_neg h]
    rfl

theorem recvArp_reply {msg : ARPMessage} (h : msg.opcode = ARPMessage.OPCODE_REPLY)
    (n : NetworkInterface) :
    recvArp msg n = sendFirst msg.senderIpAddress 0 n.arpQueue (n.learn msg) := by
  have hreq : msg.opcode ≠ ARPMessage.OPCODE_REQUEST := by
    rw [h]
    decide
  rw [recvArp]
  simp only [if_neg hreq, if_pos h]
  rfl

/-- The first entry for an address, and the entries around it. -/
theorem held_cases (n : NetworkInterface) (ip : UInt32) :
    (∀ e ∈ n.arpQueue, e.2.ipv4Numeric ≠ ip) ∨
      ∃ front dgram nextHop rest, n.arpQueue = front ++ (dgram, nextHop) :: rest ∧
        (∀ e ∈ front, e.2.ipv4Numeric ≠ ip) ∧ nextHop.ipv4Numeric = ip := by
  cases h : n.arpQueue.find? (fun e => e.2.ipv4Numeric = ip) with
  | none =>
    refine Or.inl fun e he => ?_
    simpa using List.find?_eq_none.mp h e he
  | some e =>
    obtain ⟨he, front, rest, hq, hfront⟩ := List.find?_eq_some_iff_append.mp h
    refine Or.inr ⟨front, e.1, e.2, rest, hq, fun e' he' => ?_, by simpa using he⟩
    simpa using hfront e' he'

section Reply

variable {msg : ARPMessage} {front rest : List (InternetDatagram × Address)}

theorem recvArp_idle (hreply : msg.opcode = ARPMessage.OPCODE_REPLY)
    (hnone : ∀ e ∈ n.arpQueue, e.2.ipv4Numeric ≠ msg.senderIpAddress) :
    recvArp msg n = .ok () (n.learn msg) := by
  rw [recvArp_reply hreply]
  exact sendFirst_nil hnone 0 _

/-- On a reply the loop comes to the first waiting datagram, which it sends and erases. -/
theorem recvArp_first (hreply : msg.opcode = ARPMessage.OPCODE_REPLY)
    (hq : n.arpQueue = front ++ (dgram, nextHop) :: rest)
    (hfront : ∀ e ∈ front, e.2.ipv4Numeric ≠ msg.senderIpAddress)
    (hhop : nextHop.ipv4Numeric = msg.senderIpAddress) :
    recvArp msg n = (sendDatagram dgram nextHop >>= fun _ => modify fun n =>
      { n with arpQueue := n.arpQueue.eraseIdx front.length }) (n.learn msg) := by
  rw [recvArp_reply hreply, hq, sendFirst_skip hfront, sendFirst, if_pos hhop, Nat.zero_add]

theorem learn_find (hhop : nextHop.ipv4Numeric = msg.senderIpAddress) :
    (n.learn msg).mappingCache.find? nextHop.ipv4Numeric =
      some (msg.senderEthernetAddress, 0) := by
  rw [hhop]
  exact SortedMap.find?_insert_self ..

theorem eraseIdx_front (hq : n.arpQueue = front ++ (dgram, nextHop) :: rest) :
    n.arpQueue.eraseIdx front.length = front ++ rest := by
  rw [hq, List.eraseIdx_append_of_length_le (le_refl _), Nat.sub_self, List.eraseIdx_cons_zero]

/-- A reply with a usable address sends the first waiting datagram, and only that one. -/
theorem recvArp_sends {payload : BufferList} (hreply : msg.opcode = ARPMessage.OPCODE_REPLY)
    (hne : msg.senderEthernetAddress ≠ ETHERNET_BROADCAST)
    (hq : n.arpQueue = front ++ (dgram, nextHop) :: rest)
    (hfront : ∀ e ∈ front, e.2.ipv4Numeric ≠ msg.senderIpAddress)
    (hhop : nextHop.ipv4Numeric = msg.senderIpAddress) (hser : dgram.serialize = .ok payload) :
    recvArp msg n = .ok () { n.learn msg with
      framesOut := n.framesOut ++
        [n.frameTo msg.senderEthernetAddress EthernetHeader.TYPE_IPv4 payload]
      arpQueue := front ++ rest } := by
  rw [recvArp_first hreply hq hfront hhop,
    bind_ok (sendDatagram_known (learn_find hhop) hne hser), ← eraseIdx_front hq]
  rfl

/-- A reply that carries the broadcast address erases the first waiting datagram unsent. -/
theorem recvArp_discards (hreply : msg.opcode = ARPMessage.OPCODE_REPLY)
    (heq : msg.senderEthernetAddress = ETHERNET_BROADCAST)
    (hq : n.arpQueue = front ++ (dgram, nextHop) :: rest)
    (hfront : ∀ e ∈ front, e.2.ipv4Numeric ≠ msg.senderIpAddress)
    (hhop : nextHop.ipv4Numeric = msg.senderIpAddress) :
    recvArp msg n = .ok () { n.learn msg with arpQueue := front ++ rest } := by
  rw [recvArp_first hreply hq hfront hhop,
    bind_ok (sendDatagram_pending ((learn_find hhop).trans (by rw [heq]))), ← eraseIdx_front hq]
  rfl

/-- A datagram that cannot be serialized stays in the queue and the exception escapes. -/
theorem recvArp_throws {e : Exception} (hreply : msg.opcode = ARPMessage.OPCODE_REPLY)
    (hne : msg.senderEthernetAddress ≠ ETHERNET_BROADCAST)
    (hq : n.arpQueue = front ++ (dgram, nextHop) :: rest)
    (hfront : ∀ e ∈ front, e.2.ipv4Numeric ≠ msg.senderIpAddress)
    (hhop : nextHop.ipv4Numeric = msg.senderIpAddress) (hser : dgram.serialize = .error e) :
    recvArp msg n = .error e (n.learn msg) := by
  rw [recvArp_first hreply hq hfront hhop,
    bind_error (sendDatagram_throws (learn_find hhop) hne hser)]

end Reply

/-- **What `recv_frame` does** with a frame for another host, a datagram, an ARP message or
anything else. -/
theorem recvFrame_eq (frame : EthernetFrame) (n : NetworkInterface) :
    recvFrame frame n =
      if frame.header.dst ≠ ETHERNET_BROADCAST ∧ frame.header.dst ≠ n.ethernetAddress then
        .ok none n
      else if frame.header.type = EthernetHeader.TYPE_IPv4 then
        match frame.payload.toBuffer >>= IPv4Datagram.parse {} with
        | .ok (res, dgram) => .ok (if res = .noError then some dgram else none) n
        | .error e => .error e n
      else if frame.header.type = EthernetHeader.TYPE_ARP then
        match frame.payload.toBuffer >>= ARPMessage.parse {} with
        | .ok (res, msg) =>
          if res = .noError then (recvArp msg >>= fun _ => pure none) n else .ok none n
        | .error e => .error e n
      else .ok none n := by
  show (if frame.header.dst ≠ ETHERNET_BROADCAST ∧ frame.header.dst ≠ n.ethernetAddress then _
    else if frame.header.type = EthernetHeader.TYPE_IPv4 then _
    else if frame.header.type = EthernetHeader.TYPE_ARP then _ else _ :
      Call NetworkInterface (Option InternetDatagram)) n = _
  split
  · rfl
  split
  · cases frame.payload.toBuffer >>= IPv4Datagram.parse {} with
    | error e => rfl
    | ok r =>
      show (if r.1 = .noError then pure (some r.2) else pure none :
        Call NetworkInterface (Option InternetDatagram)) n = .ok (if r.1 = .noError then _ else _) n
      split <;> rfl
  split
  · cases frame.payload.toBuffer >>= ARPMessage.parse {} with
    | error e => rfl
    | ok r =>
      show (if r.1 = .noError then _ else _ : Call NetworkInterface (Option InternetDatagram)) n =
        if r.1 = .noError then _ else _
      by_cases hres : r.1 = .noError
      · rw [if_pos hres, if_pos hres]
      · rw [if_neg hres, if_neg hres]
        rfl
  · rfl

/-- An accepted ARP message is all that the frame does. -/
theorem recvFrame_arp {frame : EthernetFrame} {msg : ARPMessage}
    (h : n.acceptedArp frame = some msg) :
    recvFrame frame n = (recvArp msg >>= fun _ => pure none) n := by
  rw [acceptedArp] at h
  rw [recvFrame_eq]
  split at h
  · cases h
  rename_i hdst
  split at h
  · rename_i htype
    rw [if_neg hdst, if_neg (by rw [htype]; decide), if_pos htype]
    split at h
    · rename_i hparse
      cases h
      rw [hparse]
      exact if_pos rfl
    · cases h
  · cases h

/-- A parser never throws, so an exception comes from the conversion to one buffer. -/
theorem toBuffer_error {α : Type} {l : BufferList} {parse : Buffer → Except Exception α}
    {e : Exception} (hparse : ∀ b, ∃ r, parse b = .ok r) (h : l.toBuffer >>= parse = .error e) :
    l.toBuffer = .error e := by
  cases hb : l.toBuffer with
  | error e' =>
    rw [hb] at h
    cases h
    rfl
  | ok b =>
    obtain ⟨r, hr⟩ := hparse b
    rw [hb, show (Except.ok b >>= parse) = parse b from rfl, hr] at h
    cases h

/-- Without an accepted ARP message the interface stays as it is, and an exception can only come
from a payload in several buffers. -/
theorem recvFrame_other {frame : EthernetFrame} (h : n.acceptedArp frame = none) :
    (∃ r, recvFrame frame n = .ok r n) ∨
      ∃ e, recvFrame frame n = .error e n ∧ frame.payload.toBuffer = .error e := by
  rw [acceptedArp] at h
  rw [recvFrame_eq]
  split at h
  · rename_i hdst
    rw [if_pos hdst]
    exact Or.inl ⟨_, rfl⟩
  rename_i hdst
  rw [if_neg hdst]
  split
  · cases hparse : frame.payload.toBuffer >>= IPv4Datagram.parse {} with
    | error e => exact Or.inr ⟨e, rfl, toBuffer_error (IPv4Datagram.parse_ok {}) hparse⟩
    | ok r => exact Or.inl ⟨_, rfl⟩
  split
  · rename_i htype
    rw [if_pos htype] at h
    cases hparse : frame.payload.toBuffer >>= ARPMessage.parse {} with
    | error e => exact Or.inr ⟨e, rfl, toBuffer_error (ARPMessage.parse_ok {}) hparse⟩
    | ok r =>
      have hres : r.1 ≠ .noError := by
        intro hres
        rw [hparse, show r = (.noError, r.2) from Prod.ext hres rfl] at h
        cases h
      exact Or.inl ⟨none, if_neg hres⟩
  · exact Or.inl ⟨none, rfl⟩

/-! ### The passing of time -/

/-- One entry of the cache after `ms` more milliseconds, unless it has expired. -/
def aged (ms : ℕ) (entry : EthernetAddress × ℕ) : Option (EthernetAddress × ℕ) :=
  let age := u64 (entry.2 + ms)
  if entry.1 = ETHERNET_BROADCAST then
    if 5000 ≤ age then none else some (entry.1, age)
  else
    if 30000 ≤ age then none else some (entry.1, age)

def tick (msSinceLastTick : ℕ) (n : NetworkInterface) : NetworkInterface :=
  { n with mappingCache := n.mappingCache.filterMapVals fun _ => aged msSinceLastTick }

/-- What is left of one entry does not depend on the others. -/
theorem tick_find (ms : ℕ) (n : NetworkInterface) (ip : UInt32) :
    (n.tick ms).mappingCache.find? ip = (n.mappingCache.find? ip).bind (aged ms) :=
  SortedMap.find?_filterMapVals ..

end NetworkInterface

end Sponge
