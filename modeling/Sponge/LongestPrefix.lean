import Sponge.Router
import Sponge.Lib.FirstBest

/-!
# Longest-prefix match

A route covers a destination if the high-order bits that it looks at are the same in its prefix and
in the destination.  The code compares the masked destination with the prefix as it is, so a route
whose prefix has a bit below its length never matches.  `matches_iff` says that this is the only
difference; the loop then finds the first of the longest routes that match.

To speak of the calls that a router makes, `Logged` keeps the list of calls of `send_datagram`
beside the router.
-/

namespace Sponge

open Throwing FirstBest

namespace Route

/-- The number of low-order bits that a route does not look at. -/
def hostBits (route : Route) : ℕ := 32 - route.prefixLength.toNat

/-- The high-order bits of the destination are those of the route. -/
def Covers (dst : UInt32) (route : Route) : Prop :=
  dst.toNat / 2 ^ route.hostBits = route.routePrefix.toNat / 2 ^ route.hostBits

/-- The prefix has no bit below its length. -/
def HostBitsClear (route : Route) : Prop := route.routePrefix.toNat % 2 ^ route.hostBits = 0

/-- The test of the code. -/
def Matches (dst : UInt32) (route : Route) : Prop := dst &&& route.mask = route.routePrefix

instance (dst : UInt32) : DecidablePred (Covers dst) :=
  fun route => inferInstanceAs (Decidable (dst.toNat / 2 ^ route.hostBits = _))

instance : DecidablePred HostBitsClear :=
  fun route => inferInstanceAs (Decidable (route.routePrefix.toNat % 2 ^ route.hostBits = 0))

instance (dst : UInt32) : DecidablePred (Matches dst) :=
  fun route => inferInstanceAs (Decidable (dst &&& route.mask = route.routePrefix))

/-- The mask keeps the bits from the host bits on. -/
theorem toNat_mask {route : Route} (h : route.prefixLength.toNat ≤ 32) :
    route.mask.toNat = 2 ^ 32 - 2 ^ route.hostBits := by
  rw [mask]
  split
  · rename_i hzero
    rw [hostBits, hzero]
    rfl
  · rename_i hne
    have hpos : route.prefixLength.toNat ≠ 0 := fun heq => hne (UInt8.toNat_inj.mp heq)
    have hlt : route.hostBits < 32 := by
      rw [hostBits]
      omega
    have hshift : (32 - route.prefixLength.toUInt32).toNat = route.hostBits := by
      rw [UInt32.toNat_sub, UInt8.toNat_toUInt32, hostBits]
      simp only [UInt32.reduceToNat]
      omega
    have hpow : 2 ^ route.hostBits < 2 ^ 32 := Nat.pow_lt_pow_right (by decide) hlt
    have hpos' : 0 < 2 ^ route.hostBits := Nat.two_pow_pos _
    have hone : ((1 : UInt32) <<< (32 - route.prefixLength.toUInt32)).toNat =
        2 ^ route.hostBits := by
      rw [UInt32.toNat_shiftLeft, hshift, Nat.mod_eq_of_lt hlt, Nat.shiftLeft_eq,
        show (1 : UInt32).toNat = 1 from rfl, Nat.one_mul, Nat.mod_eq_of_lt hpow]
    rw [UInt32.toNat_not, UInt32.toNat_sub, hone]
    simp only [UInt32.reduceToNat, UInt32.size]
    omega

/-- Masking clears the low-order bits. -/
theorem land_mask {x k : ℕ} (hx : x < 2 ^ 32) (hk : k ≤ 32) :
    x &&& (2 ^ 32 - 2 ^ k) = x / 2 ^ k * 2 ^ k := by
  have hpow : 2 ^ 32 - 2 ^ k = 2 ^ 32 - (2 ^ k - 1 + 1) := by
    rw [Nat.sub_add_cancel (Nat.two_pow_pos k)]
  have hlt : 2 ^ k - 1 < 2 ^ 32 := by
    have hle : 2 ^ k ≤ 2 ^ 32 := Nat.pow_le_pow_right (by decide) hk
    have hpos := Nat.two_pow_pos k
    omega
  apply Nat.eq_of_testBit_eq
  intro i
  rw [hpow, Nat.testBit_and, Nat.testBit_two_pow_sub_succ hlt, Nat.testBit_two_pow_sub_one,
    Nat.testBit_mul_two_pow, Nat.testBit_div_two_pow]
  by_cases hki : k ≤ i
  · rw [Nat.sub_add_cancel hki]
    by_cases hi : i < 32
    · simp [hki, hi]
    · have hbit : x.testBit i = false :=
        Nat.testBit_lt_two_pow (hx.trans_le (Nat.pow_le_pow_right (by decide) (not_lt.mp hi)))
      simp [hbit]
  · simp [hki, not_le.mp hki]

/-- **What the test of the code means**: the route covers the destination, and its prefix has no
bit below its length. -/
theorem matches_iff {route : Route} (h : route.prefixLength.toNat ≤ 32) (dst : UInt32) :
    route.Matches dst ↔ route.Covers dst ∧ route.HostBitsClear := by
  have hpos : 0 < 2 ^ route.hostBits := Nat.two_pow_pos _
  have hand : (dst &&& route.mask).toNat = dst.toNat / 2 ^ route.hostBits * 2 ^ route.hostBits := by
    rw [UInt32.toNat_and, toNat_mask h]
    exact land_mask dst.toNat_lt (Nat.sub_le _ _)
  rw [Matches, ← UInt32.toNat_inj, hand, Covers, HostBitsClear]
  have hsplit := Nat.div_add_mod route.routePrefix.toNat (2 ^ route.hostBits)
  constructor
  · intro heq
    rw [← heq]
    exact ⟨(Nat.mul_div_cancel _ hpos).symm, Nat.mul_mod_left _ _⟩
  · rintro ⟨hdiv, hmod⟩
    rw [hdiv]
    rw [hmod, Nat.add_zero, Nat.mul_comm] at hsplit
    exact hsplit

end Route

namespace Router

/-! ### The loop over the table -/

/-- The first of the longest routes that the code's test lets through. -/
def bestMatch (r : Router) (dst : UInt32) : Option Route :=
  firstBest (Route.Matches dst) (fun route => route.prefixLength.toNat) r.routingTable

/-- What the loop keeps for the best route so far. -/
def encode : Option Route → Route × ℤ
  | none => ({}, -1)
  | some route => (route, route.prefixLength.toNat)

theorem preferRoute_encode (dst : UInt32) (best : Option Route) (route : Route) :
    preferRoute dst (encode best) route =
      encode (better (Route.Matches dst) (fun route => route.prefixLength.toNat) best route) := by
  by_cases hm : dst &&& route.mask = route.routePrefix
  · have hp : Route.Matches dst route := hm
    rw [preferRoute, if_pos hm]
    cases best with
    | none =>
      rw [better, if_pos hp]
      exact if_pos (show (-1 : ℤ) < route.prefixLength.toNat by omega)
    | some b =>
      rw [better, if_pos hp]
      by_cases hlt : b.prefixLength.toNat < route.prefixLength.toNat
      · simp only [encode, if_pos hlt, Nat.cast_lt]
      · simp only [encode, if_neg hlt, Nat.cast_lt]
  · have hp : ¬ Route.Matches dst route := hm
    rw [preferRoute, if_neg hm, better.eq_def, if_neg hp]

theorem longestPrefixMatch_eq (r : Router) (dst : UInt32) :
    r.longestPrefixMatch dst = encode (r.bestMatch dst) := by
  show r.routingTable.foldl (preferRoute dst) (encode none) = encode (r.bestMatch dst)
  exact List.foldl_hom encode fun best route => preferRoute_encode dst best route

/-- Where a route sends a datagram. -/
def target (route : Route) (dst : UInt32) : ℕ × Address :=
  (route.interfaceNum, route.nextHop.getD (Address.fromIpv4Numeric dst))

theorem forwardTo_eq (r : Router) (dgram : InternetDatagram) :
    r.forwardTo dgram = if dgram.header.ttl ≤ 1 then none
      else (r.bestMatch dgram.header.dst).map fun route => target route dgram.header.dst := by
  rw [forwardTo, longestPrefixMatch_eq]
  split
  · rfl
  · cases r.bestMatch dgram.header.dst with
    | none => rfl
    | some route =>
      exact if_neg (show (route.prefixLength.toNat : ℤ) ≠ -1 by omega)

/-! ### The calls that are made -/

/-- A call of `send_datagram` on an interface. -/
structure SendCall where
  interfaceNum : ℕ
  dgram : InternetDatagram
  nextHop : Address
deriving DecidableEq

/-- A router and the calls it has made. -/
structure Logged where
  router : Router
  calls : List SendCall := []
deriving DecidableEq

/-- A change of the router that calls nothing. -/
def Logged.onRouter (change : Router → Router) (s : Logged) : Logged :=
  { s with router := change s.router }

/-- `interface(N).send_datagram(dgram, next_hop)`, written down. -/
def sendLogged (call : SendCall) : Call Logged Unit := do
  modify fun s => { s with calls := s.calls ++ [call] }
  zoom Logged.router (fun s r => { s with router := r })
    (onInterface call.interfaceNum (AsyncNetworkInterface.sendDatagram call.dgram call.nextHop))

/-- A router with a record of its calls. -/
def logged : Routing Logged where
  router := Logged.router
  onRouter := Logged.onRouter
  sendDatagram N dgram nextHop := sendLogged ⟨N, dgram, nextHop⟩

theorem logged_router (s : Logged) : logged.router s = s.router := rfl

/-- `routeOneDatagram` with its calls written down. -/
def routeOneDatagramLogged : Call (Logged × InternetDatagram) Unit := logged.routeOneDatagram

/-- The calls that a datagram gives rise to. -/
def callsFor (r : Router) (dgram : InternetDatagram) : List SendCall :=
  ((r.forwardTo dgram).map fun t => ⟨t.1, decremented dgram, t.2⟩).toList

theorem sendLogged_calls (call : SendCall) (s : Logged) :
    (after (sendLogged call) s).calls = s.calls ++ [call] := by
  have hlog : (modify fun s => { s with calls := s.calls ++ [call] } : Call Logged PUnit) s =
      .ok ⟨⟩ ⟨s.router, s.calls ++ [call]⟩ := rfl
  rw [sendLogged, after, bind_ok hlog, ← after, after_zoom]

/-- The calls that `route_one_datagram` makes, whether the last of them throws or not. -/
theorem calls_routeOneDatagramLogged (s : Logged) (dgram : InternetDatagram) :
    (after routeOneDatagramLogged (s, dgram)).1.calls = s.calls ++ s.router.callsFor dgram := by
  rw [callsFor, after, routeOneDatagramLogged, Routing.routeOneDatagram_eq, logged_router]
  cases s.router.forwardTo dgram with
  | none => exact (List.append_nil _).symm
  | some t =>
    dsimp only
    rw [← after, after_zoom]
    exact sendLogged_calls ⟨t.1, decremented dgram, t.2⟩ s

/-- The router that a logged router stands for. -/
def Erases (s : Logged) (r : Router) : Prop := s.router = r

theorem lockstep_sendLogged (call : SendCall) :
    Lockstep Erases (sendLogged call)
      (onInterface call.interfaceNum
        (AsyncNetworkInterface.sendDatagram call.dgram call.nextHop)) := by
  rintro s _ rfl
  have hlog : (modify fun s => { s with calls := s.calls ++ [call] } : Call Logged PUnit) s =
      .ok ⟨⟩ ⟨s.router, s.calls ++ [call]⟩ := rfl
  rw [sendLogged, bind_ok hlog]
  cases h : onInterface call.interfaceNum
    (AsyncNetworkInterface.sendDatagram call.dgram call.nextHop) s.router with
  | ok a r => exact Or.inl ⟨a, _, r, zoom_ok h, rfl, rfl⟩
  | error e r => exact Or.inr ⟨e, _, r, zoom_error h, rfl, rfl⟩

/-- **Writing the calls down changes nothing else.** -/
theorem alike_logged : Routing.Alike logged routing Erases where
  forwardTo := by
    rintro s _ rfl
    rfl
  arrived := by
    rintro s _ rfl
    rfl
  length := by
    rintro s _ rfl
    rfl
  onQueue := by
    rintro s _ rfl i change
    rfl
  sendDatagram N dgram nextHop := lockstep_sendLogged ⟨N, dgram, nextHop⟩

/-- The recorded calls are those of `routeOneDatagram`. -/
theorem lockstep_routeOneDatagram :
    Lockstep (fun t u => Erases t.1 u.1 ∧ t.2 = u.2) routeOneDatagramLogged routeOneDatagram :=
  alike_logged.routeOneDatagram

/-! ### One datagram -/

/-- The calls that a router makes for one datagram. -/
def callsMade (r : Router) (dgram : InternetDatagram) : List SendCall :=
  (after routeOneDatagramLogged ({ router := r }, dgram)).1.calls

/-- The call that sends a datagram along a route. -/
def callAlong (dgram : InternetDatagram) (route : Route) : SendCall where
  interfaceNum := route.interfaceNum
  dgram := decremented dgram
  nextHop := route.nextHop.getD (Address.fromIpv4Numeric dgram.header.dst)

theorem callsFor_eq (r : Router) (dgram : InternetDatagram) :
    r.callsFor dgram = if dgram.header.ttl ≤ 1 then []
      else ((r.bestMatch dgram.header.dst).map (callAlong dgram)).toList := by
  rw [callsFor, forwardTo_eq]
  split
  · rfl
  · rw [Option.map_map]
    rfl

theorem callsMade_eq (r : Router) {dgram : InternetDatagram} (httl : 2 ≤ dgram.header.ttl) :
    r.callsMade dgram = ((r.bestMatch dgram.header.dst).map (callAlong dgram)).toList := by
  have hlive : ¬ dgram.header.ttl ≤ 1 := by
    rw [UInt8.le_iff_toNat_le] at httl ⊢
    exact not_le.mpr httl
  rw [callsMade, calls_routeOneDatagramLogged, callsFor_eq, if_neg hlive]
  rfl

/-- The longest of the routes that cover the destination, and the earliest of these. -/
def IsLongest (r : Router) (dst : UInt32) : Route → Prop :=
  IsFirstBest (Route.Covers dst) (fun route => route.prefixLength.toNat) r.routingTable

/-- The datagram is sent if and only if a route covers its destination, and then along the longest
of these routes. -/
def ForwardsLongest (r : Router) (dgram : InternetDatagram) : Prop :=
  (r.callsMade dgram ≠ [] ↔ ∃ route ∈ r.routingTable, route.Covers dgram.header.dst) ∧
    ∀ route, r.IsLongest dgram.header.dst route → r.callsMade dgram = [callAlong dgram route]

/-- The longest route is one that the code can match, or the longest one that it can match sends
the datagram the same way. -/
def LongestIsMatched (r : Router) (dst : UInt32) : Prop :=
  ∀ route, r.IsLongest dst route → route.HostBitsClear ∨
    ∃ route', IsFirstBest (fun route => route.Covers dst ∧ route.HostBitsClear)
        (fun route => route.prefixLength.toNat) r.routingTable route' ∧
      target route' dst = target route dst

section

variable {r : Router} (hlen : ∀ route ∈ r.routingTable, route.prefixLength ≤ 32)

include hlen

/-- The route that the code chooses. -/
theorem bestMatch_eq_some_iff {dst : UInt32} {route : Route} :
    r.bestMatch dst = some route ↔
      IsFirstBest (fun route => route.Covers dst ∧ route.HostBitsClear)
        (fun route => route.prefixLength.toNat) r.routingTable route := by
  have hiff : ∀ route ∈ r.routingTable,
      Route.Matches dst route ↔ route.Covers dst ∧ route.HostBitsClear :=
    fun route hroute => Route.matches_iff (UInt8.le_iff_toNat_le.mp (hlen route hroute)) dst
  rw [bestMatch, firstBest_eq_some_iff]
  exact ⟨fun h => h.congr hiff, fun h => h.congr fun route hroute => (hiff route hroute).symm⟩

end

/-- **When the longest route is used.**  The exceptions are the destinations whose longest route
has a bit below its length in its prefix: the code does not see this route. -/
theorem forwardsLongest_iff {r : Router} (hlen : ∀ route ∈ r.routingTable, route.prefixLength ≤ 32)
    {dgram : InternetDatagram} (httl : 2 ≤ dgram.header.ttl) :
    r.ForwardsLongest dgram ↔ r.LongestIsMatched dgram.header.dst := by
  have hcalls := r.callsMade_eq httl
  constructor
  · rintro ⟨_, hbest⟩ route hroute
    have hone := hbest route hroute
    rw [hcalls] at hone
    cases hmatch : r.bestMatch dgram.header.dst with
    | none =>
      rw [hmatch] at hone
      cases hone
    | some route' =>
      rw [hmatch] at hone
      have hcall : callAlong dgram route' = callAlong dgram route := List.singleton_inj.mp hone
      refine Or.inr ⟨route', (bestMatch_eq_some_iff hlen).mp hmatch, ?_⟩
      exact congrArg (fun call => (call.interfaceNum, call.nextHop)) hcall
  · intro hcond
    have hbest : ∀ route, r.IsLongest dgram.header.dst route →
        r.callsMade dgram = [callAlong dgram route] := by
      intro route hroute
      rw [hcalls]
      rcases hcond route hroute with hclear | ⟨route', hroute', htarget⟩
      · rw [(bestMatch_eq_some_iff hlen).mpr (hroute.and hclear)]
        rfl
      · obtain ⟨hinterface, hhop⟩ := Prod.mk.inj htarget
        rw [(bestMatch_eq_some_iff hlen).mpr hroute']
        show [callAlong dgram route'] = _
        rw [callAlong, callAlong, hinterface, hhop]
    refine ⟨⟨fun hne => ?_, fun hcovered => ?_⟩, hbest⟩
    · cases hmatch : r.bestMatch dgram.header.dst with
      | none =>
        rw [hcalls, hmatch] at hne
        exact absurd rfl hne
      | some route =>
        have hroute := (bestMatch_eq_some_iff hlen).mp hmatch
        exact ⟨route, hroute.mem, hroute.1.1⟩
    · obtain ⟨route, hroute⟩ : ∃ route, r.IsLongest dgram.header.dst route :=
        exists_isFirstBest_iff.mpr hcovered
      rw [hbest route hroute]
      exact List.cons_ne_nil _ _

/-- The route `128.30.76.255/16` of the network simulator, and a datagram to `128.30.1.2`. -/
theorem forwardsLongest_fails_on_host_bits :
    ¬ ForwardsLongest
      { interfaces := [{ base := .new (Vector.replicate 6 2) { ip := 0x801e0002 } }]
        routingTable := [{ routePrefix := 0x801e4cff, prefixLength := 16
                           nextHop := some { ip := 0x801e0001 } }] }
      { header := { dst := 0x801e0102 } } := by
  intro h
  have hlongest : IsLongest
      { interfaces := [{ base := .new (Vector.replicate 6 2) { ip := 0x801e0002 } }]
        routingTable := [{ routePrefix := 0x801e4cff, prefixLength := 16
                           nextHop := some { ip := 0x801e0001 } }] } 0x801e0102
      { routePrefix := 0x801e4cff, prefixLength := 16, nextHop := some { ip := 0x801e0001 } } :=
    ⟨by decide, [], [], rfl, by simp, by simp⟩
  exact absurd (h.2 _ hlongest) (by decide)

/-- A router with routes to `10.0.0.0/8` and to `10.1.0.0/16`, the second through `10.0.0.9`, and
with a datagram to `10.1.0.2` in its queue. -/
def nestedRoutes : Router where
  interfaces := [{ base := .new (Vector.replicate 6 2) { ip := 0x0a000001 }
                   datagramsOut := [{ header := { len := 20, dst := 0x0a010002 } }] }]
  routingTable :=
    [{ routePrefix := 0x0a000000, prefixLength := 8 },
     { routePrefix := 0x0a010000, prefixLength := 16, nextHop := some { ip := 0x0a000009 } }]

/-- The one call it makes. -/
def nestedCall : SendCall where
  interfaceNum := 0
  dgram := { header := { len := 20, ttl := 127, dst := 0x0a010002 } }
  nextHop := { ip := 0x0a000009 }

/-- The longer of the two routes is used. -/
theorem forwardsLongest_iff_nested :
    nestedRoutes.ForwardsLongest { header := { len := 20, dst := 0x0a010002 } } ∧
      nestedRoutes.callsMade { header := { len := 20, dst := 0x0a010002 } } = [nestedCall] := by
  have hclear : ∀ route ∈ nestedRoutes.routingTable, route.HostBitsClear := by decide
  refine ⟨(forwardsLongest_iff (by decide) (by decide)).mpr ?_, by decide +kernel⟩
  intro route hroute
  exact Or.inl (hclear route hroute.mem)

end Router

end Sponge
