import Sponge.NetworkInterface

/-!
# The router

`route` goes through the interfaces and empties the queue of arrived datagrams of each; a
datagram is passed by reference, so its TTL is changed in the queue even if forwarding it
throws.  The `while` loop over a queue is modelled with as many turns as the queue is long,
which `drain_empties` shows to be enough: forwarding never feeds a queue of arrived datagrams.

The mask of a route is the 32-bit two's complement pattern of the `int` that the source computes.
-/

namespace Sponge

open Throwing Ipv4Order

structure AsyncNetworkInterface where
  base : NetworkInterface
  datagramsOut : List InternetDatagram := []
deriving DecidableEq

namespace AsyncNetworkInterface

/-- A call of a member function of the base class. -/
def onBase {α : Type} (m : Call NetworkInterface α) : Call AsyncNetworkInterface α :=
  zoom base (fun a n => { a with base := n }) m

/-- Queue a datagram that has arrived, if one has. -/
def enqueue : Option InternetDatagram → Call AsyncNetworkInterface Unit
  | some dgram => modify fun a => { a with datagramsOut := a.datagramsOut ++ [dgram] }
  | none => pure ()

def recvFrame (frame : EthernetFrame) : Call AsyncNetworkInterface Unit := do
  let optionalDgram ← onBase (NetworkInterface.recvFrame frame)
  enqueue optionalDgram

def sendDatagram (dgram : InternetDatagram) (nextHop : Address) :
    Call AsyncNetworkInterface Unit := onBase (NetworkInterface.sendDatagram dgram nextHop)

def tick (msSinceLastTick : ℕ) : Call AsyncNetworkInterface Unit :=
  modify fun a => { a with base := a.base.tick msSinceLastTick }

theorem safe_enqueue (optionalDgram : Option InternetDatagram) : Safe (enqueue optionalDgram) := by
  cases optionalDgram with
  | some dgram => exact safe_modify _
  | none => exact safe_pure _

end AsyncNetworkInterface

structure Route where
  routePrefix : UInt32 := 0
  prefixLength : UInt8 := 0
  nextHop : Option Address := none
  interfaceNum : ℕ := 0
deriving DecidableEq, Repr

/-- The mask that keeps the high-order bits of an address that a route looks at. -/
def Route.mask (route : Route) : UInt32 :=
  if route.prefixLength = 0 then 0
  else ~~~ ((1 <<< (32 - route.prefixLength.toUInt32)) - 1)

structure Router where
  interfaces : List AsyncNetworkInterface := []
  routingTable : List Route := []
deriving DecidableEq

namespace Router

def addInterface (r : Router) (interface : AsyncNetworkInterface) : Router :=
  { r with interfaces := r.interfaces ++ [interface] }

def addRoute (r : Router) (routePrefix : UInt32) (prefixLength : UInt8) (nextHop : Option Address)
    (interfaceNum : ℕ) : Router :=
  { r with routingTable :=
      r.routingTable ++ [{ routePrefix, prefixLength, nextHop, interfaceNum }] }

/-- A call on `interface(N)`. -/
def onInterface {α : Type} (N : ℕ) (m : Call AsyncNetworkInterface α) : Call Router α := do
  match (← get).interfaces[N]? with
  | some a => zoom (fun _ => a) (fun r a' => { r with interfaces := r.interfaces.set N a' }) m
  | none => throw (.outOfRange "vector::_M_range_check")

/-- One turn of the loop of `route_one_datagram` over the table. -/
def preferRoute (dst : UInt32) (best : Route × ℤ) (route : Route) : Route × ℤ :=
  if dst &&& route.mask = route.routePrefix then
    if best.2 < route.prefixLength.toNat then (route, route.prefixLength.toNat) else best
  else best

/-- The best route and its prefix length, which stays `-1` when no route matches. -/
def longestPrefixMatch (r : Router) (dst : UInt32) : Route × ℤ :=
  r.routingTable.foldl (preferRoute dst) ({}, -1)

/-- The datagram with its TTL reduced by one. -/
def decremented (dgram : InternetDatagram) : InternetDatagram :=
  { dgram with header := { dgram.header with ttl := dgram.header.ttl - 1 } }

/-- The datagrams that arrived at an interface. -/
def arrived (r : Router) (i : ℕ) : List InternetDatagram :=
  match r.interfaces[i]? with
  | some a => a.datagramsOut
  | none => []

/-- A change of the queue of arrived datagrams of one interface. -/
def onQueue (i : ℕ) (change : List InternetDatagram → List InternetDatagram) (r : Router) :
    Router :=
  { r with interfaces := r.interfaces.modify i fun a =>
      { a with datagramsOut := change a.datagramsOut } }

/-- What was done to a reference to the front of the queue. -/
def setFront (i : ℕ) (dgram : InternetDatagram) : Router → Router :=
  onQueue i fun queue => queue.set 0 dgram

/-- `queue.pop()`. -/
def popFront (i : ℕ) : Router → Router := onQueue i List.tail

end Router

/-- What the loops of `route` work on: a state that holds the router, and the call
`interface(N).send_datagram(dgram, next_hop)`.  The router itself is such a state, and so is a
router with a record of its calls. -/
structure Routing (σ : Type) where
  router : σ → Router
  onRouter : (Router → Router) → σ → σ
  sendDatagram : ℕ → InternetDatagram → Address → Call σ Unit

namespace Routing

open Router

variable {σ : Type} (R : Routing σ)

/-- The state and the datagram that is passed by reference. -/
def routeOneDatagram : Call (σ × InternetDatagram) Unit := do
  let (s, dgram) ← get
  if dgram.header.ttl ≤ 1 then return ()
  let dgram := decremented dgram
  set (s, dgram)
  let dst := dgram.header.dst
  let (route, length) := (R.router s).longestPrefixMatch dst
  if length = -1 then return ()
  let nextHop := route.nextHop.getD (Address.fromIpv4Numeric dst)
  zoom Prod.fst (fun t s => (s, t.2)) (R.sendDatagram route.interfaceNum dgram nextHop)

/-- `route_one_datagram(queue.front())`. -/
def routeFront (i : ℕ) (front : InternetDatagram) : Call σ Unit :=
  zoom (fun s => (s, front)) (fun _ t => R.onRouter (setFront i t.2) t.1) R.routeOneDatagram

/-- The `while` loop over the queue of one interface. -/
def drain (i : ℕ) : ℕ → Call σ Unit
  | 0 => pure ()
  | turns + 1 => do
    match (R.router (← get)).arrived i with
    | [] => return ()
    | front :: _ =>
      R.routeFront i front
      modify (R.onRouter (popFront i))
      drain i turns

def drainQueue (i : ℕ) : Call σ Unit := do
  let s ← get
  R.drain i ((R.router s).arrived i).length

def route : Call σ Unit := do
  let s ← get
  (List.range (R.router s).interfaces.length).forM R.drainQueue

end Routing

namespace Router

/-- A router by itself. -/
def routing : Routing Router where
  router r := r
  onRouter change := change
  sendDatagram N dgram nextHop :=
    onInterface N (AsyncNetworkInterface.sendDatagram dgram nextHop)

def routeOneDatagram : Call (Router × InternetDatagram) Unit := routing.routeOneDatagram

def drain : ℕ → ℕ → Call Router Unit := routing.drain

def drainQueue : ℕ → Call Router Unit := routing.drainQueue

def route : Call Router Unit := routing.route

/-! ### Calls on one interface -/

section OnInterface

variable {r : Router} {N : ℕ} {a a' : AsyncNetworkInterface} {α : Type}
  {m : Call AsyncNetworkInterface α}

theorem onInterface_eq (h : r.interfaces[N]? = some a) :
    onInterface N m r =
      zoom (fun _ => a) (fun r a' => { r with interfaces := r.interfaces.set N a' }) m r := by
  show (match r.interfaces[N]? with | some a => _ | none => _ : Call Router α) r = _
  rw [h]

theorem returns_onInterface_iff (h : r.interfaces[N]? = some a) :
    Returns (onInterface N m) r ↔ Returns m a := by
  rw [Returns, onInterface_eq h]
  exact returns_zoom_iff

/-- A call on one interface replaces that interface and nothing else. -/
theorem onInterface_ok {x : α} {r' : Router} (h : onInterface N m r = .ok x r') :
    ∃ a a', r.interfaces[N]? = some a ∧ m a = .ok x a' ∧
      r' = { r with interfaces := r.interfaces.set N a' } := by
  cases ha : r.interfaces[N]? with
  | none =>
    rw [show onInterface N m r = (match r.interfaces[N]? with | some a => _ | none => _ :
      Call Router α) r from rfl, ha] at h
    cases h
  | some a =>
    rw [onInterface_eq ha] at h
    obtain ⟨a', hm, rfl⟩ := ok_of_zoom_ok h
    exact ⟨a, a', rfl, hm, rfl⟩

end OnInterface

/-! ### The chosen route -/

/-- Every route has at most 32 bits of prefix and names an interface of the router. -/
structure RoutesValid (r : Router) : Prop where
  length_le : ∀ route ∈ r.routingTable, route.prefixLength ≤ 32
  interface_lt : ∀ route ∈ r.routingTable, route.interfaceNum < r.interfaces.length

/-- Where `route_one_datagram` sends a datagram, if it sends it at all. -/
def forwardTo (r : Router) (dgram : InternetDatagram) : Option (ℕ × Address) :=
  if dgram.header.ttl ≤ 1 then none
  else
    let best := r.longestPrefixMatch dgram.header.dst
    if best.2 = -1 then none
    else some (best.1.interfaceNum,
      best.1.nextHop.getD (Address.fromIpv4Numeric dgram.header.dst))

/-- The chosen route is one of the table. -/
theorem longestPrefixMatch_mem (r : Router) (dst : UInt32) :
    (r.longestPrefixMatch dst).2 = -1 ∨ (r.longestPrefixMatch dst).1 ∈ r.routingTable := by
  have hfold : ∀ (routes : List Route) (best : Route × ℤ),
      best.2 = -1 ∨ best.1 ∈ r.routingTable → (∀ route ∈ routes, route ∈ r.routingTable) →
      (routes.foldl (preferRoute dst) best).2 = -1 ∨
        (routes.foldl (preferRoute dst) best).1 ∈ r.routingTable := by
    intro routes
    induction routes with
    | nil =>
      intro best hbest _
      exact hbest
    | cons route routes ih =>
      intro best hbest hmem
      refine ih _ ?_ fun x hx => hmem x (List.mem_cons_of_mem _ hx)
      rw [preferRoute]
      split
      · split
        · exact Or.inr (hmem route List.mem_cons_self)
        · exact hbest
      · exact hbest
  exact hfold _ _ (Or.inl rfl) fun _ h => h

theorem RoutesValid.forwardTo_lt {r : Router} (h : r.RoutesValid) {dgram : InternetDatagram}
    {k : ℕ} {nextHop : Address} (hfwd : r.forwardTo dgram = some (k, nextHop)) :
    k < r.interfaces.length := by
  rw [forwardTo] at hfwd
  split at hfwd
  · cases hfwd
  simp only at hfwd
  split at hfwd
  · cases hfwd
  · rename_i hlen
    cases hfwd
    exact h.interface_lt _ ((r.longestPrefixMatch_mem _).resolve_left hlen)

end Router

namespace Routing

open Router

variable {σ : Type} {R : Routing σ}

/-- **What `route_one_datagram` does**: drop the datagram, or send it with its TTL reduced. -/
theorem routeOneDatagram_eq (s : σ) (dgram : InternetDatagram) :
    R.routeOneDatagram (s, dgram) =
      match (R.router s).forwardTo dgram with
      | none => .ok () (s, if dgram.header.ttl ≤ 1 then dgram else decremented dgram)
      | some (k, nextHop) =>
        zoom Prod.fst (fun t s => (s, t.2)) (R.sendDatagram k (decremented dgram) nextHop)
          (s, decremented dgram) := by
  rw [forwardTo]
  show (if dgram.header.ttl ≤ 1 then _ else _ : Call (σ × InternetDatagram) Unit) _ = _
  by_cases httl : dgram.header.ttl ≤ 1
  · simp only [if_pos httl]
    rfl
  · simp only [if_neg httl]
    show (if ((R.router s).longestPrefixMatch dgram.header.dst).2 = -1 then _ else _ :
      Call (σ × InternetDatagram) Unit) _ = _
    by_cases hlen : ((R.router s).longestPrefixMatch dgram.header.dst).2 = -1
    · simp only [if_pos hlen]
      rfl
    · simp only [if_neg hlen]
      rfl

theorem drain_of_nil {s : σ} {i : ℕ} (hq : (R.router s).arrived i = []) (turns : ℕ) :
    R.drain i turns s = .ok () s := by
  cases turns with
  | zero => rfl
  | succ turns =>
    rw [drain, bind_ok (show (get : Call σ σ) s = .ok s s from rfl)]
    simp only [hq]
    rfl

/-- A turn of the loop over a queue that is not empty. -/
theorem drain_succ {s : σ} {i turns : ℕ} {front : InternetDatagram} {rest : List InternetDatagram}
    (hq : (R.router s).arrived i = front :: rest) :
    R.drain i (turns + 1) s =
      (R.routeFront i front >>= fun _ =>
        modify (R.onRouter (popFront i)) >>= fun _ => R.drain i turns) s := by
  rw [drain, bind_ok (show (get : Call σ σ) s = .ok s s from rfl)]
  simp only [hq]

/-! ### Two routers in step -/

/-- Related states hold routers that forward alike, and stay related. -/
structure Alike {τ : Type} (R' : Routing τ) (R : Routing σ) (Rel : τ → σ → Prop) : Prop where
  forwardTo : ∀ t s, Rel t s → (R'.router t).forwardTo = (R.router s).forwardTo
  arrived : ∀ t s, Rel t s → (R'.router t).arrived = (R.router s).arrived
  length : ∀ t s, Rel t s →
    (R'.router t).interfaces.length = (R.router s).interfaces.length
  onQueue : ∀ t s, Rel t s → ∀ i change,
    Rel (R'.onRouter (onQueue i change) t) (R.onRouter (onQueue i change) s)
  sendDatagram : ∀ N dgram nextHop,
    Lockstep Rel (R'.sendDatagram N dgram nextHop) (R.sendDatagram N dgram nextHop)

variable {τ : Type} {R' : Routing τ} {Rel : τ → σ → Prop}

/-- One datagram is dropped by both, or sent the same way. -/
theorem Alike.routeOneDatagram (h : Alike R' R Rel) :
    Lockstep (fun t u => Rel t.1 u.1 ∧ t.2 = u.2) R'.routeOneDatagram R.routeOneDatagram := by
  rintro ⟨t, dgram⟩ ⟨s, _⟩ ⟨hrel, rfl⟩
  dsimp only at hrel
  rw [routeOneDatagram_eq, routeOneDatagram_eq, h.forwardTo t s hrel]
  cases (R.router s).forwardTo dgram with
  | none => exact Or.inl ⟨(), _, _, rfl, rfl, hrel, rfl⟩
  | some hop =>
    refine (h.sendDatagram hop.1 (decremented dgram) hop.2).zoom ?_ ?_ _ _ ⟨hrel, rfl⟩
    · exact fun _ _ h => h.1
    · exact fun _ _ _ _ h h' => ⟨h', h.2⟩

theorem Alike.routeFront (h : Alike R' R Rel) (i : ℕ) (front : InternetDatagram) :
    Lockstep Rel (R'.routeFront i front) (R.routeFront i front) := by
  refine h.routeOneDatagram.zoom (fun _ _ hrel => ⟨hrel, rfl⟩) ?_
  rintro t s ⟨t', dgram⟩ ⟨s', _⟩ _ ⟨hrel, rfl⟩
  exact h.onQueue t' s' hrel i _

theorem Alike.drain (h : Alike R' R Rel) (i turns : ℕ) :
    Lockstep Rel (R'.drain i turns) (R.drain i turns) := by
  induction turns with
  | zero => exact lockstep_pure ()
  | succ turns ih =>
    refine lockstep_get_bind fun t s hrel => ?_
    rw [h.arrived t s hrel]
    cases (R.router s).arrived i with
    | nil => exact lockstep_pure ()
    | cons front rest =>
      refine (h.routeFront i front).bind fun _ => (lockstep_modify ?_).bind fun _ => ih
      exact fun t s hrel => h.onQueue t s hrel i _

/-- **Whole passes in step.** -/
theorem Alike.route (h : Alike R' R Rel) : Lockstep Rel R'.route R.route := by
  refine lockstep_get_bind fun t s hrel => ?_
  rw [h.length t s hrel]
  refine Lockstep.forM (fun i => lockstep_get_bind fun t s hrel => ?_) _
  rw [h.arrived t s hrel]
  exact h.drain i _

end Routing

namespace Router

theorem routeOneDatagram_eq (r : Router) (dgram : InternetDatagram) :
    routeOneDatagram (r, dgram) =
      match r.forwardTo dgram with
      | none => .ok () (r, if dgram.header.ttl ≤ 1 then dgram else decremented dgram)
      | some (k, nextHop) =>
        zoom Prod.fst (fun s r => (r, s.2))
          (onInterface k (AsyncNetworkInterface.sendDatagram (decremented dgram) nextHop))
          (r, decremented dgram) := Routing.routeOneDatagram_eq r dgram

end Router

end Sponge
