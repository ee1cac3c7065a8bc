import Sponge.Router
import Sponge.Lib.Run

/-!
# Which inputs a router survives

The frames handed to the interfaces are arbitrary bytes.  Parsing never throws, so an exception
can only come from serializing a datagram: when `route` sends it on directly, or when an ARP
reply releases it from the queue.  `RouterOk` says, before each call, that the datagrams which
that call will serialize have version 4 and at least five words of header.  The parser does not
ensure it: it accepts datagrams of any version and any header length, so the general statement
fails.

A route call is a nested loop that changes the interfaces it goes through.  `SameForwarding` is
what its turns keep: the table, and for each interface the addresses it has learned.  Hence the
condition can be evaluated once, before the call.
-/

namespace Sponge

open Throwing Run Ipv4Order

namespace NetworkInterface

/-! ### When a frame makes the interface throw -/

/-- A reply with a usable address finds a first waiting datagram that can be serialized. -/
def FirstWritable (n : NetworkInterface) (msg : ARPMessage) : Prop :=
  msg.opcode = ARPMessage.OPCODE_REPLY → msg.senderEthernetAddress ≠ ETHERNET_BROADCAST →
    ∀ e ∈ (n.heldFor msg.senderIpAddress).head?, e.1.Writable

theorem returns_recvArp_iff (msg : ARPMessage) (n : NetworkInterface) :
    Returns (recvArp msg) n ↔ n.FirstWritable msg := by
  by_cases hreply : msg.opcode = ARPMessage.OPCODE_REPLY
  · obtain hnone | ⟨front, dgram, nextHop, rest, hq, hfront, hhop⟩ :=
      n.held_cases msg.senderIpAddress
    · refine iff_of_true (returns_of_ok (recvArp_idle hreply hnone)) fun _ _ e he => ?_
      rw [heldFor_eq_nil hnone] at he
      cases he
    · have hhead : (n.heldFor msg.senderIpAddress).head? = some (dgram, nextHop) := by
        rw [heldFor_of_queue hq hfront hhop, List.head?_cons]
      by_cases hb : msg.senderEthernetAddress = ETHERNET_BROADCAST
      · exact iff_of_true (returns_of_ok (recvArp_discards hreply hb hq hfront hhop))
          fun _ hne => absurd hb hne
      · cases hser : dgram.serialize with
        | ok payload =>
          refine iff_of_true (returns_of_ok (recvArp_sends hreply hb hq hfront hhop hser)) ?_
          intro _ _ e he
          rw [hhead] at he
          cases he
          exact dgram.serializable_iff.mp ⟨payload, hser⟩
        | error ex =>
          refine iff_of_false
            (not_returns_of_error (recvArp_throws hreply hb hq hfront hhop hser)) ?_
          intro h
          obtain ⟨out, hout⟩ := dgram.serializable_iff.mpr (h hreply hb (dgram, nextHop) hhead)
          rw [hser] at hout
          cases hout
  · refine iff_of_true ?_ fun h => absurd h hreply
    obtain h | h := recvArp_request hreply n
    · exact returns_of_ok h
    · exact returns_of_ok h

/-- **When a frame with a single payload buffer makes the interface throw.** -/
theorem returns_recvFrame_iff {frame : EthernetFrame} {b : Buffer} (hb : frame.payload = [b])
    (n : NetworkInterface) :
    Returns (recvFrame frame) n ↔
      ∀ msg, n.acceptedArp frame = some msg → n.FirstWritable msg := by
  cases hacc : n.acceptedArp frame with
  | some msg =>
    rw [Returns, recvFrame_arp hacc]
    refine (returns_bind_safe_iff (fun _ => safe_pure _) n).trans
      ((returns_recvArp_iff msg n).trans ?_)
    constructor
    · intro h msg' hmsg
      cases hmsg
      exact h
    · intro h
      exact h msg rfl
  | none =>
    refine iff_of_true ?_ fun msg h => by cases h
    obtain ⟨r, hr⟩ | ⟨e, _, he⟩ := recvFrame_other hacc
    · exact returns_of_ok hr
    · rw [hb] at he
      cases he

/-! ### When sending makes the interface throw -/

/-- The Ethernet address that the interface has learned for an IP address. -/
def learned (n : NetworkInterface) (ip : UInt32) : Option EthernetAddress :=
  match n.mappingCache.find? ip with
  | some (known, _) => if known = ETHERNET_BROADCAST then none else some known
  | none => none

theorem returns_sendDatagram_iff (dgram : InternetDatagram) (nextHop : Address)
    (n : NetworkInterface) :
    Returns (sendDatagram dgram nextHop) n ↔
      ((n.learned nextHop.ipv4Numeric).isSome → dgram.Serializable) := by
  cases hfind : n.mappingCache.find? nextHop.ipv4Numeric with
  | none =>
    refine iff_of_true (returns_of_ok (sendDatagram_unknown hfind)) ?_
    simp [learned, hfind]
  | some entry =>
    obtain ⟨known, age⟩ := entry
    by_cases hb : known = ETHERNET_BROADCAST
    · rw [hb] at hfind
      refine iff_of_true (returns_of_ok (sendDatagram_pending hfind)) ?_
      simp [learned, hfind]
    · have hlearned : (n.learned nextHop.ipv4Numeric).isSome := by simp [learned, hfind, hb]
      rw [imp_iff_right hlearned]
      cases hser : dgram.serialize with
      | ok payload =>
        exact iff_of_true (returns_of_ok (sendDatagram_known hfind hb hser)) ⟨payload, hser⟩
      | error e =>
        refine iff_of_false (not_returns_of_error (sendDatagram_throws hfind hb hser)) ?_
        intro ⟨out, hout⟩
        rw [hser] at hout
        cases hout

/-- Sending teaches the interface nothing: it can only start a resolution. -/
theorem sendDatagram_learned {dgram : InternetDatagram} {nextHop : Address}
    {n n' : NetworkInterface} (h : sendDatagram dgram nextHop n = .ok () n') (ip : UInt32) :
    n'.learned ip = n.learned ip := by
  rw [sendDatagram_eq] at h
  cases hfind : n.mappingCache.find? nextHop.ipv4Numeric with
  | none =>
    simp only [hfind] at h
    cases h
    show (match (n.mappingCache.insert nextHop.ipv4Numeric (ETHERNET_BROADCAST, 0)).find? ip with
      | some (known, _) => _ | none => _) = _
    by_cases hip : ip = nextHop.ipv4Numeric
    · rw [hip, SortedMap.find?_insert_self, learned, hfind]
      rfl
    · rw [SortedMap.find?_insert_of_ne _ _ hip]
      rfl
  | some entry =>
    simp only [hfind] at h
    split at h
    · cases h
      rfl
    · cases hser : dgram.serialize with
      | ok payload =>
        simp only [hser] at h
        cases h
        rfl
      | error e =>
        simp only [hser] at h
        cases h

end NetworkInterface

namespace Router

/-- The Ethernet address that an interface of the router has learned for an IP address. -/
def learned (r : Router) (k : ℕ) (ip : UInt32) : Option EthernetAddress :=
  r.interfaces[k]?.bind fun a => a.base.learned ip

/-- Two routers forward alike: same table, same number of interfaces, same learned addresses. -/
structure SameForwarding (r r' : Router) : Prop where
  table : r'.routingTable = r.routingTable
  count : r'.interfaces.length = r.interfaces.length
  learned : ∀ k ip, r'.learned k ip = r.learned k ip

theorem SameForwarding.refl (r : Router) : SameForwarding r r := ⟨rfl, rfl, fun _ _ => rfl⟩

theorem SameForwarding.trans {r r' r'' : Router} (h : SameForwarding r r')
    (h' : SameForwarding r' r'') : SameForwarding r r'' :=
  ⟨h'.table.trans h.table, h'.count.trans h.count,
    fun k ip => (h'.learned k ip).trans (h.learned k ip)⟩

theorem SameForwarding.routesValid {r r' : Router} (h : SameForwarding r r')
    (hv : r.RoutesValid) : r'.RoutesValid := by
  refine ⟨fun route hr => hv.length_le route (h.table ▸ hr), fun route hr => ?_⟩
  rw [h.count]
  exact hv.interface_lt route (h.table ▸ hr)

theorem SameForwarding.forwardTo {r r' : Router} (h : SameForwarding r r')
    (dgram : InternetDatagram) : r'.forwardTo dgram = r.forwardTo dgram := by
  rw [Router.forwardTo, Router.forwardTo, longestPrefixMatch, longestPrefixMatch, h.table]

/-- A datagram that is forwarded to a learned address can be serialized. -/
def DatagramOk (r : Router) (dgram : InternetDatagram) : Prop :=
  ∀ k nextHop, r.forwardTo dgram = some (k, nextHop) →
    (r.learned k nextHop.ipv4Numeric).isSome → dgram.Writable

theorem SameForwarding.datagramOk_iff {r r' : Router} (h : SameForwarding r r')
    (dgram : InternetDatagram) : DatagramOk r' dgram ↔ DatagramOk r dgram := by
  rw [DatagramOk, DatagramOk, h.forwardTo]
  simp only [h.learned]

/-- The TTL does not matter to the serializer. -/
theorem serializable_decremented_iff (dgram : InternetDatagram) :
    (decremented dgram).Serializable ↔ dgram.Writable := by
  rw [IPv4Datagram.serializable_iff]
  exact ⟨fun h => ⟨h.sized, h.ver, h.hlen⟩, fun h => ⟨h.sized, h.ver, h.hlen⟩⟩

/-! ### Forwarding one datagram -/

theorem returns_sendOn_iff {r : Router} {k : ℕ} (hk : k < r.interfaces.length)
    (dgram : InternetDatagram) (nextHop : Address) :
    Returns (onInterface k (AsyncNetworkInterface.sendDatagram dgram nextHop)) r ↔
      ((r.learned k nextHop.ipv4Numeric).isSome → dgram.Serializable) := by
  have hget : r.interfaces[k]? = some r.interfaces[k] := List.getElem?_eq_getElem hk
  rw [returns_onInterface_iff hget, AsyncNetworkInterface.sendDatagram,
    AsyncNetworkInterface.onBase, returns_zoom_iff, NetworkInterface.returns_sendDatagram_iff,
    learned, hget]
  rfl

/-- **When `route_one_datagram` throws.** -/
theorem returns_routeOneDatagram_iff {r : Router} (hv : r.RoutesValid) (dgram : InternetDatagram) :
    Returns routeOneDatagram (r, dgram) ↔ DatagramOk r dgram := by
  cases hfwd : r.forwardTo dgram with
  | none =>
    rw [Returns, routeOneDatagram_eq, hfwd]
    refine iff_of_true ⟨_, _, rfl⟩ fun k nextHop h => ?_
    rw [hfwd] at h
    cases h
  | some target =>
    obtain ⟨k, nextHop⟩ := target
    rw [Returns, routeOneDatagram_eq, hfwd]
    refine returns_zoom_iff.trans ((returns_sendOn_iff (hv.forwardTo_lt hfwd) _ _).trans ?_)
    rw [serializable_decremented_iff]
    constructor
    · intro h k' nextHop' hfwd'
      rw [hfwd] at hfwd'
      cases hfwd'
      exact h
    · intro h
      exact h k nextHop hfwd

/-- Sending on one interface changes neither the forwarding nor any queue of arrived datagrams. -/
theorem sendOn_keeps {r r' : Router} {k : ℕ} {dgram : InternetDatagram} {nextHop : Address}
    (h : onInterface k (AsyncNetworkInterface.sendDatagram dgram nextHop) r = .ok () r') :
    SameForwarding r r' ∧ ∀ j, r'.arrived j = r.arrived j := by
  obtain ⟨a, a', ha, hm, rfl⟩ := onInterface_ok h
  rw [AsyncNetworkInterface.sendDatagram, AsyncNetworkInterface.onBase] at hm
  obtain ⟨n', hn, rfl⟩ := ok_of_zoom_ok hm
  have hk : k < r.interfaces.length := (List.getElem?_eq_some_iff.mp ha).1
  refine ⟨⟨rfl, List.length_set, fun j ip => ?_⟩, fun j => ?_⟩
  · rw [learned, learned, List.getElem?_set]
    by_cases hj : k = j
    · rw [if_pos hj, ← hj, if_pos hk, ha]
      exact NetworkInterface.sendDatagram_learned hn ip
    · rw [if_neg hj]
  · rw [arrived, arrived, List.getElem?_set]
    by_cases hj : k = j
    · rw [if_pos hj, ← hj, if_pos hk, ha]
    · rw [if_neg hj]

theorem routeOneDatagram_keeps {r r' : Router} {dgram dgram' : InternetDatagram}
    (h : routeOneDatagram (r, dgram) = .ok () (r', dgram')) :
    SameForwarding r r' ∧ ∀ j, r'.arrived j = r.arrived j := by
  rw [routeOneDatagram_eq] at h
  cases hfwd : r.forwardTo dgram with
  | none =>
    rw [hfwd] at h
    cases h
    exact ⟨SameForwarding.refl r, fun _ => rfl⟩
  | some target =>
    rw [hfwd] at h
    obtain ⟨r'', hsend, heq⟩ := ok_of_zoom_ok h
    cases heq
    exact sendOn_keeps hsend

/-! ### Emptying the queues -/

theorem onQueue_keeps (i : ℕ) (change : List InternetDatagram → List InternetDatagram)
    (r : Router) : SameForwarding r (onQueue i change r) := by
  refine ⟨rfl, List.length_modify .., fun j ip => ?_⟩
  rw [learned, learned, onQueue, List.getElem?_modify]
  cases r.interfaces[j]? with
  | none => rfl
  | some a =>
    by_cases hj : i = j
    · simp [hj]
    · simp [hj]

theorem arrived_onQueue_self (i : ℕ) {change : List InternetDatagram → List InternetDatagram}
    (hnil : change [] = []) (r : Router) :
    (onQueue i change r).arrived i = change (r.arrived i) := by
  rw [arrived, arrived, onQueue, List.getElem?_modify]
  cases r.interfaces[i]? with
  | none => exact hnil.symm
  | some a => simp

theorem arrived_onQueue_of_ne {i j : ℕ} (hij : j ≠ i)
    (change : List InternetDatagram → List InternetDatagram) (r : Router) :
    (onQueue i change r).arrived j = r.arrived j := by
  rw [arrived, arrived, onQueue, List.getElem?_modify]
  cases r.interfaces[j]? with
  | none => rfl
  | some a => simp [hij.symm]

theorem returns_routeFront_iff {r : Router} {i : ℕ} {front : InternetDatagram} :
    Returns (routing.routeFront i front) r ↔ Returns routeOneDatagram (r, front) :=
  returns_zoom_iff

/-- One turn of the loop over a queue: the front is routed and popped, nothing else changes. -/
theorem drain_turn {r r₁ : Router} {i : ℕ} {front : InternetDatagram}
    {rest : List InternetDatagram} (hq : r.arrived i = front :: rest)
    (h : routing.routeFront i front r = .ok () r₁) :
    SameForwarding r (popFront i r₁) ∧ (popFront i r₁).arrived i = rest ∧
      ∀ j, j ≠ i → (popFront i r₁).arrived j = r.arrived j := by
  obtain ⟨⟨r', dgram'⟩, hone, rfl⟩ := ok_of_zoom_ok h
  obtain ⟨hsame, harrived⟩ := routeOneDatagram_keeps hone
  refine ⟨hsame.trans ((onQueue_keeps ..).trans (onQueue_keeps ..)), ?_, fun j hj => ?_⟩
  · show (onQueue i List.tail (onQueue i _ r')).arrived i = rest
    rw [arrived_onQueue_self i rfl, arrived_onQueue_self i rfl, harrived, hq]
    rfl
  · show (onQueue i List.tail (onQueue i _ r')).arrived j = r.arrived j
    rw [arrived_onQueue_of_ne hj, arrived_onQueue_of_ne hj, harrived]

theorem drain_succ {r : Router} {i turns : ℕ} {front : InternetDatagram}
    {rest : List InternetDatagram} (hq : r.arrived i = front :: rest) :
    drain i (turns + 1) r =
      (routing.routeFront i front >>= fun _ => modify (popFront i) >>= fun _ => drain i turns) r :=
  Routing.drain_succ hq

/-- **When the loop over one queue throws.** -/
theorem returns_drain_iff {r : Router} (hv : r.RoutesValid) (i : ℕ) {turns : ℕ}
    (hturns : (r.arrived i).length = turns) :
    Returns (drain i turns) r ↔ ∀ dgram ∈ r.arrived i, DatagramOk r dgram := by
  induction turns generalizing r with
  | zero =>
    rw [List.length_eq_zero_iff.mp hturns]
    exact iff_of_true (safe_pure () r) (by simp)
  | succ turns ih =>
    obtain ⟨front, rest, hq⟩ := List.exists_cons_of_length_eq_add_one hturns
    rw [hq, List.forall_mem_cons, ← returns_routeOneDatagram_iff hv, Returns, drain_succ hq]
    cases hone : routing.routeFront i front r with
    | error e r₁ =>
      refine iff_of_false (not_returns_of_error (bind_error hone _)) fun h => ?_
      exact not_returns_of_error hone (returns_routeFront_iff.mpr h.1)
    | ok _ r₁ =>
      obtain ⟨hsame, hrest, _⟩ := drain_turn hq hone
      rw [hq, List.length_cons] at hturns
      have hnext := ih (hsame.routesValid hv) (by rw [hrest]; omega)
      rw [and_iff_right (returns_routeFront_iff.mp (returns_of_ok hone))]
      refine (returns_bind_iff hone _).trans (hnext.trans ?_)
      rw [hrest]
      simp only [hsame.datagramOk_iff]

/-- What the loop over one queue leaves: the queue is empty and nothing else has changed. -/
theorem drain_empties {r r' : Router} {i turns : ℕ} (hturns : (r.arrived i).length = turns)
    (h : drain i turns r = .ok () r') :
    SameForwarding r r' ∧ r'.arrived i = [] ∧ ∀ j, j ≠ i → r'.arrived j = r.arrived j := by
  induction turns generalizing r with
  | zero =>
    cases h
    exact ⟨SameForwarding.refl _, List.length_eq_zero_iff.mp hturns, fun _ _ => rfl⟩
  | succ turns ih =>
    obtain ⟨front, rest, hq⟩ := List.exists_cons_of_length_eq_add_one hturns
    rw [drain_succ hq] at h
    obtain ⟨_, r₁, hone, hloop⟩ := ok_of_bind_ok h
    obtain ⟨hsame, hrest, hothers⟩ := drain_turn hq hone
    rw [hq, List.length_cons] at hturns
    obtain ⟨hsame', hnil, hothers'⟩ := ih (by rw [hrest]; omega) hloop
    exact ⟨hsame.trans hsame', hnil, fun j hj => (hothers' j hj).trans (hothers j hj)⟩

/-- **When a pass over the queues throws.**  The pass has emptied a queue before it goes on, and
its turns keep the condition on the others. -/
theorem returns_forM_drainQueue_iff {r : Router} (hv : r.RoutesValid) (is : List ℕ) :
    Returns (is.forM drainQueue) r ↔ ∀ i ∈ is, ∀ dgram ∈ r.arrived i, DatagramOk r dgram := by
  induction is generalizing r with
  | nil => exact iff_of_true (safe_pure _ r) (by simp)
  | cons i is ih =>
    have hfirst : Returns (drain i (r.arrived i).length) r ↔ _ := returns_drain_iff hv i rfl
    rw [List.forall_mem_cons, ← hfirst]
    cases hdrain : drain i (r.arrived i).length r with
    | error e r' =>
      refine iff_of_false (not_returns_of_error (bind_error hdrain _)) fun h => ?_
      exact not_returns_of_error hdrain h.1
    | ok _ r' =>
      obtain ⟨hsame, hnil, hothers⟩ := drain_empties rfl hdrain
      refine (returns_bind_iff hdrain _).trans ((ih (hsame.routesValid hv)).trans ?_)
      rw [and_iff_right (returns_of_ok hdrain)]
      simp only [hsame.datagramOk_iff]
      constructor
      · intro h j hj
        by_cases hji : j = i
        · rw [hji]
          exact hfirst.mp (returns_of_ok hdrain)
        · rw [← hothers j hji]
          exact h j hj
      · intro h j hj
        by_cases hji : j = i
        · rw [hji, hnil]
          simp
        · rw [hothers j hji]
          exact h j hj

theorem forM_drainQueue_keeps {r r' : Router} {is : List ℕ}
    (h : is.forM drainQueue r = .ok () r') : SameForwarding r r' := by
  induction is generalizing r with
  | nil =>
    cases h
    exact SameForwarding.refl _
  | cons i is ih =>
    obtain ⟨_, r₁, hdrain, hrest⟩ := ok_of_bind_ok h
    exact (drain_empties rfl hdrain).1.trans (ih hrest)

/-- **When `route` throws.** -/
theorem returns_route_iff {r : Router} (hv : r.RoutesValid) :
    Returns route r ↔ ∀ i, ∀ dgram ∈ r.arrived i, DatagramOk r dgram := by
  refine (returns_forM_drainQueue_iff hv (List.range r.interfaces.length)).trans ?_
  constructor
  · intro h i dgram hd
    refine h i (List.mem_range.mpr (not_le.mp fun hle => ?_)) dgram hd
    rw [arrived, List.getElem?_eq_none hle] at hd
    cases hd
  · intro h i _
    exact h i

/-! ### Calls on a router -/

/-- The bytes of a frame that arrives at an interface, the passing of time at an interface, and
the call that routes what has arrived. -/
inductive RouterOp where
  | frame (i : ℕ) (bytes : Buffer)
  | tick (i msSinceLastTick : ℕ)
  | route
deriving DecidableEq

/-- The interface that the call is made on exists. -/
def RouterOp.Names (count : ℕ) : RouterOp → Prop
  | .frame i _ => i < count
  | .tick i _ => i < count
  | .route => True

instance (count : ℕ) : ∀ op : RouterOp, Decidable (op.Names count)
  | .frame i _ => inferInstanceAs (Decidable (i < count))
  | .tick i _ => inferInstanceAs (Decidable (i < count))
  | .route => inferInstanceAs (Decidable True)

def call : RouterOp → Call Router Unit
  | .frame i bytes => do
    let (res, frame) ← ofExcept (EthernetFrame.parse {} bytes)
    if res = .noError then onInterface i (AsyncNetworkInterface.recvFrame frame)
  | .tick i ms => onInterface i (AsyncNetworkInterface.tick ms)
  | .route => route

/-- The router after a call, whether it returned or threw. -/
def routerStep (r : Router) (op : RouterOp) : Router := after (call op) r

/-- The call does not throw. -/
def Survives (r : Router) (op : RouterOp) : Prop := Returns (call op) r

instance (r : Router) (op : RouterOp) : Decidable (Survives r op) :=
  inferInstanceAs (Decidable (Returns _ _))

/-- What the call will serialize can be serialized. -/
def RouterOk (r : Router) : RouterOp → Prop
  | .frame i bytes => ∀ frame a msg, EthernetFrame.parse {} bytes = .ok (.noError, frame) →
      r.interfaces[i]? = some a → a.base.acceptedArp frame = some msg → a.base.FirstWritable msg
  | .tick _ _ => True
  | .route => ∀ i, ∀ dgram ∈ r.arrived i, DatagramOk r dgram

theorem call_frame_eq {i : ℕ} {bytes : Buffer} {res : ParseResult} {frame : EthernetFrame}
    (hparse : EthernetFrame.parse {} bytes = .ok (res, frame)) (r : Router) :
    call (.frame i bytes) r =
      if res = .noError then onInterface i (AsyncNetworkInterface.recvFrame frame) r
      else .ok () r := by
  rw [call, hparse]
  show (if res = .noError then _ else _ : Call Router Unit) r = _
  split <;> rfl

theorem survives_frame_iff {r : Router} {i : ℕ} (hi : i < r.interfaces.length) (bytes : Buffer) :
    Survives r (.frame i bytes) ↔ RouterOk r (.frame i bytes) := by
  obtain ⟨res, frame, b, hparse, hb⟩ := EthernetFrame.parse_ok {} bytes
  have hget : r.interfaces[i]? = some r.interfaces[i] := List.getElem?_eq_getElem hi
  rw [Survives, Returns, call_frame_eq hparse]
  by_cases hres : res = .noError
  · rw [if_pos hres]
    refine (returns_onInterface_iff hget).trans
      ((returns_bind_safe_iff AsyncNetworkInterface.safe_enqueue _).trans ?_)
    refine returns_zoom_iff.trans ((NetworkInterface.returns_recvFrame_iff hb _).trans ?_)
    constructor
    · intro h frame' a msg hparse' ha hacc
      rw [hparse, hres] at hparse'
      cases hparse'
      rw [hget] at ha
      cases ha
      exact h msg hacc
    · intro h msg hacc
      exact h frame _ msg (by rw [hparse, hres]) hget hacc
  · rw [if_neg hres]
    refine iff_of_true ⟨(), r, rfl⟩ fun frame' a msg hparse' => ?_
    rw [hparse] at hparse'
    cases hparse'
    exact absurd rfl hres

theorem survives_iff {r : Router} (hv : r.RoutesValid) {op : RouterOp}
    (hop : op.Names r.interfaces.length) : Survives r op ↔ RouterOk r op := by
  cases op with
  | frame i bytes => exact survives_frame_iff hop bytes
  | tick i ms =>
    refine iff_of_true ?_ trivial
    exact (returns_onInterface_iff (List.getElem?_eq_getElem hop)).mpr (safe_modify _ _)
  | route => exact returns_route_iff hv

/-- No call changes the table or the number of interfaces. -/
theorem call_shape {r r' : Router} {op : RouterOp} (h : call op r = .ok () r') :
    r'.routingTable = r.routingTable ∧ r'.interfaces.length = r.interfaces.length := by
  cases op with
  | frame i bytes =>
    obtain ⟨res, frame, b, hparse, _⟩ := EthernetFrame.parse_ok {} bytes
    rw [call_frame_eq hparse] at h
    split at h
    · obtain ⟨a, a', _, _, rfl⟩ := onInterface_ok h
      exact ⟨rfl, List.length_set⟩
    · cases h
      exact ⟨rfl, rfl⟩
  | tick i ms =>
    obtain ⟨a, a', _, _, rfl⟩ := onInterface_ok h
    exact ⟨rfl, List.length_set⟩
  | route =>
    have hsame : SameForwarding r r' := forM_drainQueue_keeps h
    exact ⟨hsame.table, hsame.count⟩

/-- **What a router survives.**  Along a run no call throws exactly when every call meets, before
it is made, only datagrams that can be serialized among those it will serialize; and a datagram
that the parser accepted is one of them exactly when its version is 4 and its header has at least
five words. -/
theorem survives_iff_routerOk (r : Router) (hv : r.RoutesValid) (ops : List RouterOp)
    (hops : ∀ op ∈ ops, op.Names r.interfaces.length) :
    (Along routerStep Survives r ops ↔ Along routerStep RouterOk r ops) ∧
      ∀ (bytes : Buffer) (dgram : InternetDatagram),
        IPv4Datagram.parse {} bytes = .ok (.noError, dgram) →
        (dgram.Serializable ↔ dgram.header.ver = 4 ∧ 5 ≤ dgram.header.hlen.toNat) := by
  refine ⟨?_, fun bytes dgram hparse => IPv4Datagram.parse_serializable hparse⟩
  refine along_iff_of_invariant
    (I := fun r' => r'.RoutesValid ∧ r'.interfaces.length = r.interfaces.length)
    ?_ ?_ ⟨hv, rfl⟩ (along_of_events hops r)
  · intro r' op ⟨hv', hcount⟩ hop hok
    obtain ⟨_, r'', hcall⟩ := (survives_iff hv' (hcount ▸ hop)).mpr hok
    obtain ⟨htable, hlength⟩ := call_shape hcall
    rw [routerStep, after_ok hcall]
    refine ⟨⟨fun route hr => hv'.length_le route (htable ▸ hr), fun route hr => ?_⟩,
      hlength.trans hcount⟩
    rw [hlength]
    exact hv'.interface_lt route (htable ▸ hr)
  · intro r' op ⟨hv', hcount⟩ hop
    exact survives_iff hv' (hcount ▸ hop)

/-- A well-formed datagram arrives, its next hop is learned, and the router sends it on. -/
theorem survives_iff_routerOk_forwarded :
    Along routerStep RouterOk
      ((({} : Router).addInterface
        { base := NetworkInterface.new #v[2, 0, 0, 0, 0, 1] { ip := 1 } }).addRoute 0 0 none 0)
      [.frame 0 ([2, 0, 0, 0, 0, 1, 2, 0, 0, 0, 0, 9, 8, 0] ++
          [0x45, 0, 0, 20, 0, 0, 0, 0, 64, 6, 0, 0, 0, 0, 0, 7, 0, 0, 0, 9]),
        .frame 0 ([2, 0, 0, 0, 0, 1, 2, 0, 0, 0, 0, 9, 8, 6] ++
          [0, 1, 8, 0, 6, 4, 0, 2, 2, 0, 0, 0, 0, 9, 0, 0, 0, 9, 2, 0, 0, 0, 0, 1, 0, 0, 0, 1]),
        .route] :=
  (survives_iff_routerOk _ ⟨by decide, by decide⟩ _ (by decide)).1.mp (by decide +kernel)

/-- The same run with version 6 in the first byte of the datagram: the parser accepts it, and
the call of `route` throws. -/
theorem survives_fails_on_wrong_version :
    ∃ r : Router, r.RoutesValid ∧ ∃ ops : List RouterOp,
      (∀ op ∈ ops, op.Names r.interfaces.length) ∧ ¬ Along routerStep Survives r ops := by
  refine ⟨(({} : Router).addInterface
      { base := NetworkInterface.new #v[2, 0, 0, 0, 0, 1] { ip := 1 } }).addRoute 0 0 none 0,
    ⟨by decide, by decide⟩,
    [.frame 0 ([2, 0, 0, 0, 0, 1, 2, 0, 0, 0, 0, 9, 8, 0] ++
        [0x65, 0, 0, 20, 0, 0, 0, 0, 64, 6, 0, 0, 0, 0, 0, 7, 0, 0, 0, 9]),
      .frame 0 ([2, 0, 0, 0, 0, 1, 2, 0, 0, 0, 0, 9, 8, 6] ++
        [0, 1, 8, 0, 6, 4, 0, 2, 2, 0, 0, 0, 0, 9, 0, 0, 0, 9, 2, 0, 0, 0, 0, 1, 0, 0, 0, 1]),
      .route], by decide, by decide +kernel⟩

end Router

end Sponge
