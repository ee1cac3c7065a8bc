import Sponge.LongestPrefix
import Sponge.RouterSafety

/-!
# Every queued datagram is forwarded once

`route` empties the queues one after another.  A turn of its loop makes the calls of one datagram
and pops it; it changes no other queue and nothing that later calls depend on.  So the calls of the
whole pass can be read off the queues before it: `calls_routeLogged` is the induction over the
turns, `route_forwards_once` says what the calls are when no prefix has a bit below its length.

Two routers with the same interfaces whose tables choose alike run in step, which gives the
independence of the order in which the routes were added.
-/

namespace Sponge

open Throwing FirstBest

namespace Router

/-! ### The pass with its calls written down -/

def drainLogged : ℕ → ℕ → Call Logged Unit := logged.drain

def drainQueueLogged : ℕ → Call Logged Unit := logged.drainQueue

def routeLogged : Call Logged Unit := logged.route

theorem lockstep_drain (i turns : ℕ) : Lockstep Erases (drainLogged i turns) (drain i turns) :=
  alike_logged.drain i turns

theorem lockstep_route : Lockstep Erases routeLogged route := alike_logged.route

/-! ### The calls of a pass -/

theorem SameForwarding.callsFor {r r' : Router} (h : SameForwarding r r') :
    r'.callsFor = r.callsFor := by
  funext dgram
  rw [Router.callsFor, Router.callsFor, h.forwardTo]

/-- The loop over one queue makes the calls of its datagrams, one after another. -/
theorem calls_drainLogged {s s' : Logged} {i turns : ℕ}
    (hturns : (s.router.arrived i).length = turns) (h : drainLogged i turns s = .ok () s') :
    s'.calls = s.calls ++ (s.router.arrived i).flatMap s.router.callsFor := by
  induction turns generalizing s with
  | zero =>
    cases h
    rw [List.length_eq_zero_iff.mp hturns, List.flatMap_nil, List.append_nil]
  | succ turns ih =>
    obtain ⟨front, rest, hq⟩ := List.exists_cons_of_length_eq_add_one hturns
    rw [drainLogged, Routing.drain_succ hq] at h
    obtain ⟨_, s₁, hone, hloop⟩ := ok_of_bind_ok h
    -- the turn makes the calls of the front, and the plain loop says what it does to the queues
    have hcalls : s₁.calls = s.calls ++ s.router.callsFor front := by
      obtain ⟨⟨t, dgram⟩, hroute, rfl⟩ := ok_of_zoom_ok hone
      have hmade := calls_routeOneDatagramLogged s front
      rwa [routeOneDatagramLogged, after_ok hroute] at hmade
    obtain ⟨_, hplain, rfl⟩ := (alike_logged.routeFront i front).ok_left rfl hone
    obtain ⟨hsame, hrest, _⟩ := drain_turn hq hplain
    rw [hq, List.length_cons] at hturns
    have hnext : s'.calls = s₁.calls ++
        ((popFront i s₁.router).arrived i).flatMap (popFront i s₁.router).callsFor :=
      ih (s := s₁.onRouter (popFront i)) ((congrArg List.length hrest).trans (by omega)) hloop
    rw [hnext, hcalls, hrest, hq, hsame.callsFor, List.flatMap_cons, List.append_assoc]

/-- A pass over some queues empties these, and makes the calls of what was in them. -/
theorem forM_drainQueueLogged {s s' : Logged} {is : List ℕ} (hnodup : is.Nodup)
    (h : is.forM drainQueueLogged s = .ok () s') :
    (∀ j, s'.router.arrived j = if j ∈ is then [] else s.router.arrived j) ∧
      s'.calls = s.calls ++ (is.flatMap s.router.arrived).flatMap s.router.callsFor := by
  induction is generalizing s with
  | nil =>
    cases h
    exact ⟨fun j => rfl, (List.append_nil _).symm⟩
  | cons i is ih =>
    obtain ⟨hi, hnodup⟩ := List.nodup_cons.mp hnodup
    obtain ⟨_, s₁, hdrain, hpass⟩ := ok_of_bind_ok h
    have hcalls := calls_drainLogged rfl hdrain
    obtain ⟨_, hplain, rfl⟩ := (lockstep_drain i (s.router.arrived i).length).ok_left rfl hdrain
    obtain ⟨hsame, hnil, hothers⟩ := drain_empties rfl hplain
    obtain ⟨harrived, hrest⟩ := ih hnodup hpass
    refine ⟨fun j => ?_, ?_⟩
    · rw [harrived]
      by_cases hj : j = i
      · simp [hj, hnil]
      · simp [hj, hothers j hj]
    · have hqueues : is.flatMap s₁.router.arrived = is.flatMap s.router.arrived :=
        List.flatMap_congr fun j hj => hothers j fun heq => hi (heq ▸ hj)
      rw [hrest, hcalls, hsame.callsFor, hqueues, List.flatMap_cons, List.flatMap_append,
        List.append_assoc]

/-- All datagrams that have arrived, by interface and then by their place in the queue. -/
def queued (r : Router) : List InternetDatagram :=
  (List.range r.interfaces.length).flatMap r.arrived

/-- **What a pass does**: it empties every queue, and makes the calls of what was in them. -/
theorem calls_routeLogged {s s' : Logged} (h : routeLogged s = .ok () s') :
    (∀ i, s'.router.arrived i = []) ∧
      s'.calls = s.calls ++ s.router.queued.flatMap s.router.callsFor := by
  have hpass : (List.range s.router.interfaces.length).forM drainQueueLogged s = .ok () s' := h
  obtain ⟨harrived, hcalls⟩ := forM_drainQueueLogged List.nodup_range hpass
  refine ⟨fun i => ?_, hcalls⟩
  rw [harrived]
  split
  · rfl
  · rename_i hi
    rw [arrived, List.getElem?_eq_none (not_lt.mp fun hlt => hi (List.mem_range.mpr hlt))]

/-- The pass of a router that returns, with its calls. -/
theorem routeLogged_of_route {r r' : Router} (h : route r = .ok () r') :
    routeLogged { router := r } = .ok () { router := r', calls := r.queued.flatMap r.callsFor } ∧
      ∀ i, r'.arrived i = [] := by
  obtain ⟨⟨_, calls⟩, hlogged, rfl⟩ := lockstep_route.ok (t := { router := r }) rfl h
  obtain ⟨harrived, hcalls⟩ := calls_routeLogged hlogged
  dsimp only at hcalls
  rw [List.nil_append] at hcalls
  rw [hlogged, hcalls]
  exact ⟨rfl, harrived⟩

/-! ### The order of the table -/

/-- The router with another table. -/
def withTable (r : Router) (table : List Route) : Router := { r with routingTable := table }

/-- The routers have the same interfaces, and these tables. -/
structure SameInterfaces (table' table : List Route) (r' r : Router) : Prop where
  interfaces : r'.interfaces = r.interfaces
  table' : r'.routingTable = table'
  table : r.routingTable = table

section

variable {table' table : List Route}

theorem SameInterfaces.eq_withTable {r' r : Router} (h : SameInterfaces table' table r' r) :
    r' = r.withTable table' := by
  obtain ⟨interfaces, routes⟩ := r'
  rw [withTable, ← h.interfaces, ← h.table']

theorem SameInterfaces.arrived {r' r : Router} (h : SameInterfaces table' table r' r) :
    r'.arrived = r.arrived := by
  funext i
  rw [Router.arrived, Router.arrived, h.interfaces]

theorem lockstep_onInterface (table' table : List Route) {α : Type} (N : ℕ)
    (m : Call AsyncNetworkInterface α) :
    Lockstep (SameInterfaces table' table) (onInterface N m) (onInterface N m) := by
  refine lockstep_get_bind fun r' r h => ?_
  rw [h.interfaces]
  cases r.interfaces[N]? with
  | none => exact lockstep_throw _
  | some a =>
    refine (lockstep_eq m).zoom (fun _ _ _ => rfl) ?_
    rintro t s u _ h rfl
    exact ⟨congrArg (fun l => l.set N u) h.interfaces, h.table', h.table⟩

theorem SameInterfaces.onQueue {r' r : Router} (h : SameInterfaces table' table r' r) (i : ℕ)
    (change : List InternetDatagram → List InternetDatagram) :
    SameInterfaces table' table (Router.onQueue i change r') (Router.onQueue i change r) := by
  refine ⟨?_, h.table', h.table⟩
  rw [Router.onQueue, Router.onQueue, h.interfaces]

/-- Routers whose tables choose alike run in step. -/
theorem alike_tables (hsame : ∀ r' r, SameInterfaces table' table r' r →
    r'.forwardTo = r.forwardTo) :
    Routing.Alike routing routing (SameInterfaces table' table) where
  forwardTo := hsame
  arrived _ _ h := h.arrived
  length _ _ h := congrArg List.length h.interfaces
  onQueue _ _ h := h.onQueue
  sendDatagram N _ _ := lockstep_onInterface table' table N _

end

/-! ### Prefixes without host bits -/

/-- The longest route that covers a destination. -/
def longest (r : Router) (dst : UInt32) : Option Route :=
  firstBest (Route.Covers dst) (fun route => route.prefixLength.toNat) r.routingTable

theorem longest_eq_some_iff {r : Router} {dst : UInt32} {route : Route} :
    r.longest dst = some route ↔ r.IsLongest dst route := firstBest_eq_some_iff

/-- The call that a queued datagram should give rise to: along the longest route, with the TTL
reduced by one. -/
def expectedCall (r : Router) (dgram : InternetDatagram) : Option SendCall :=
  if 2 ≤ dgram.header.ttl then (r.longest dgram.header.dst).map (callAlong dgram) else none

/-- No two routes have the same prefix and the same length. -/
def DistinctRoutes (table : List Route) : Prop :=
  table.Pairwise fun a b => ¬ (a.routePrefix = b.routePrefix ∧ a.prefixLength = b.prefixLength)

instance (table : List Route) : Decidable (DistinctRoutes table) :=
  inferInstanceAs (Decidable (table.Pairwise fun a b =>
    ¬ (a.routePrefix = b.routePrefix ∧ a.prefixLength = b.prefixLength)))

section

variable {r : Router} (hlen : ∀ route ∈ r.routingTable, route.prefixLength ≤ 32)
  (hclear : ∀ route ∈ r.routingTable, route.HostBitsClear)

include hlen hclear

theorem bestMatch_eq_longest (dst : UInt32) : r.bestMatch dst = r.longest dst := by
  apply Option.ext
  intro route
  rw [bestMatch_eq_some_iff hlen, longest_eq_some_iff]
  constructor
  · intro h
    exact h.congr fun route hroute => and_iff_left (hclear route hroute)
  · intro h
    exact h.and (hclear route h.mem)

theorem callsFor_eq_expectedCall (dgram : InternetDatagram) :
    r.callsFor dgram = (r.expectedCall dgram).toList := by
  have hiff : dgram.header.ttl ≤ 1 ↔ ¬ 2 ≤ dgram.header.ttl := by
    rw [UInt8.le_iff_toNat_le, UInt8.le_iff_toNat_le, not_le]
    exact Nat.lt_succ_iff.symm
  rw [callsFor_eq, bestMatch_eq_longest hlen hclear, expectedCall]
  by_cases httl : 2 ≤ dgram.header.ttl
  · rw [if_pos httl, if_neg (fun h => hiff.mp h httl)]
  · rw [if_neg httl, if_pos (hiff.mpr httl)]
    rfl

/-- Covering routes of one length have one prefix, so there is at most one of them. -/
theorem eq_of_covers (hdistinct : DistinctRoutes r.routingTable) {dst : UInt32} {a b : Route}
    (ha : a ∈ r.routingTable) (hb : b ∈ r.routingTable) (hcovers : a.Covers dst)
    (hcovers' : b.Covers dst) (hlength : a.prefixLength.toNat = b.prefixLength.toNat) : a = b := by
  by_contra hne
  have hbits : a.hostBits = b.hostBits := by rw [Route.hostBits, Route.hostBits, hlength]
  have hmatch := (Route.matches_iff (UInt8.le_iff_toNat_le.mp (hlen a ha)) dst).mpr
    ⟨hcovers, hclear a ha⟩
  have hmatch' := (Route.matches_iff (UInt8.le_iff_toNat_le.mp (hlen b hb)) dst).mpr
    ⟨hcovers', hclear b hb⟩
  have hmask : a.mask = b.mask := by
    apply UInt32.toNat_inj.mp
    rw [Route.toNat_mask (UInt8.le_iff_toNat_le.mp (hlen a ha)),
      Route.toNat_mask (UInt8.le_iff_toNat_le.mp (hlen b hb)), hbits]
  have hbase : a.routePrefix = b.routePrefix := by
    rw [← hmatch, ← hmatch', hmask]
  have hsymm : Std.Symm fun a b : Route =>
      ¬ (a.routePrefix = b.routePrefix ∧ a.prefixLength = b.prefixLength) :=
    ⟨fun _ _ h heq => h ⟨heq.1.symm, heq.2.symm⟩⟩
  exact hdistinct.forall ha hb hne ⟨hbase, UInt8.toNat_inj.mp hlength⟩

/-- The longest route does not depend on the order of the table. -/
theorem longest_withTable (hdistinct : DistinctRoutes r.routingTable) {table' : List Route}
    (hperm : table'.Perm r.routingTable) (dst : UInt32) :
    (r.withTable table').longest dst = r.longest dst := by
  cases hlongest : r.longest dst with
  | none =>
    have hnone := firstBest_eq_none_iff.mp hlongest
    exact firstBest_eq_none_iff.mpr fun route hroute => hnone route (hperm.mem_iff.mp hroute)
  | some route =>
    have hbest := longest_eq_some_iff.mp hlongest
    refine longest_eq_some_iff.mpr (hbest.of_mem_iff (fun _ => hperm.mem_iff) ?_)
    intro route' hroute' hcovers hlength
    exact eq_of_covers hlen hclear hdistinct hroute' hbest.mem hcovers hbest.1 hlength

theorem forwardTo_withTable (hdistinct : DistinctRoutes r.routingTable) {table' : List Route}
    (hperm : table'.Perm r.routingTable) (dgram : InternetDatagram) :
    (r.withTable table').forwardTo dgram = r.forwardTo dgram := by
  have hlen' : ∀ route ∈ (r.withTable table').routingTable, route.prefixLength ≤ 32 :=
    fun route hroute => hlen route (hperm.mem_iff.mp hroute)
  have hclear' : ∀ route ∈ (r.withTable table').routingTable, route.HostBitsClear :=
    fun route hroute => hclear route (hperm.mem_iff.mp hroute)
  rw [forwardTo_eq, forwardTo_eq, bestMatch_eq_longest hlen' hclear',
    bestMatch_eq_longest hlen hclear, longest_withTable hlen hclear hdistinct hperm]

/-- A pass of the router with its routes in another order. -/
theorem route_withTable (hdistinct : DistinctRoutes r.routingTable) {table' : List Route}
    (hperm : table'.Perm r.routingTable) {r' : Router} (h : route r = .ok () r') :
    route (r.withTable table') = .ok () (r'.withTable table') := by
  have hsame : ∀ u' u, SameInterfaces table' r.routingTable u' u →
      u'.forwardTo = u.forwardTo := by
    intro u' u hu
    rw [hu.eq_withTable]
    rw [← hu.table] at hlen hclear hdistinct hperm
    exact funext (forwardTo_withTable hlen hclear hdistinct hperm)
  have hstart : SameInterfaces table' r.routingTable (r.withTable table') r := ⟨rfl, rfl, rfl⟩
  have hstep : Lockstep (SameInterfaces table' r.routingTable) route route :=
    (alike_tables hsame).route
  obtain ⟨r'', hroute, hend⟩ := hstep.ok hstart h
  rw [hroute, hend.eq_withTable]

end

/-- **Every queued datagram is forwarded once.**  With no prefix that has a bit below its length,
existing interfaces and datagrams that can be serialized, a pass returns, leaves every queue empty,
and has sent each datagram that is still alive along the longest route, in the order of the queues.
In whatever order the routes were added, the outcome is the same. -/
theorem route_forwards_once {r : Router} (hv : r.RoutesValid)
    (hclear : ∀ route ∈ r.routingTable, route.HostBitsClear)
    (hser : ∀ i, ∀ dgram ∈ r.arrived i, dgram.Serializable) :
    ∃ r', route r = .ok () r' ∧ (∀ i, r'.arrived i = []) ∧
      routeLogged { router := r } =
        .ok () { router := r', calls := r.queued.filterMap r.expectedCall } ∧
      ∀ table', table'.Perm r.routingTable → DistinctRoutes r.routingTable →
        routeLogged { router := r.withTable table' } =
          .ok () { router := r'.withTable table', calls := r.queued.filterMap r.expectedCall } := by
  have hcalls : r.queued.flatMap r.callsFor = r.queued.filterMap r.expectedCall := by
    rw [List.filterMap_eq_flatMap_toList]
    exact List.flatMap_congr fun dgram _ => callsFor_eq_expectedCall hv.length_le hclear dgram
  obtain ⟨_, r', hroute⟩ := (returns_route_iff hv).mpr fun i dgram hd _ _ _ _ =>
    dgram.serializable_iff.mp (hser i dgram hd)
  obtain ⟨hlogged, harrived⟩ := routeLogged_of_route hroute
  rw [hcalls] at hlogged
  refine ⟨r', hroute, harrived, hlogged, fun table' hperm hdistinct => ?_⟩
  have hsame : (r.withTable table').callsFor = r.callsFor := by
    funext dgram
    rw [callsFor, callsFor, forwardTo_withTable hv.length_le hclear hdistinct hperm]
  have hroute' := route_withTable hv.length_le hclear hdistinct hperm hroute
  rw [(routeLogged_of_route hroute').1, hsame]
  exact congrArg (fun calls => EStateM.Result.ok () (Logged.mk _ calls)) hcalls

theorem route_forwards_once_nested :
    ∃ r', routeLogged { router := nestedRoutes } =
        .ok () { router := r', calls := [nestedCall] } ∧
      (∀ i, r'.arrived i = []) ∧
      ∃ r'', routeLogged { router := nestedRoutes.withTable nestedRoutes.routingTable.reverse } =
        .ok () { router := r'', calls := [nestedCall] } := by
  have hser : ∀ i, ∀ dgram ∈ nestedRoutes.arrived i, dgram.Serializable := by
    intro i
    cases i with
    | zero => decide +kernel
    | succ i => exact fun _ h => absurd h List.not_mem_nil
  obtain ⟨r', _, harrived, hlogged, horder⟩ :=
    route_forwards_once (r := nestedRoutes) ⟨by decide, by decide⟩ (by decide) hser
  have hcalls : nestedRoutes.queued.filterMap nestedRoutes.expectedCall = [nestedCall] := by
    decide +kernel
  rw [hcalls] at hlogged horder
  exact ⟨r', hlogged, harrived, _, horder _ (List.reverse_perm _) (by decide)⟩

end Router

end Sponge
