import Sponge.Forwarding

/-!
# A network of routers

Any number of routers with any tables, and hosts that put frames on the wire.  A frame that was sent
can arrive at any interface of any router, any number of times, in any order and at any time, or
never; so the runs include those of every topology, with its broadcasts, losses and loops.  A call
that throws leaves its router as it is then, and the others go on.

The network makes no datagrams up: what is on a wire comes from a host, and only the routers on its
way have changed it.
-/

namespace Sponge

open Throwing Hoare Run

/-- The frame with these bytes holds the datagram. -/
def Bears (bytes : Buffer) (dgram : InternetDatagram) : Prop :=
  ∃ frame, EthernetFrame.parse {} bytes = .ok (.noError, frame) ∧
    NetworkInterface.Delivers frame dgram

/-- A frame on its way, as bytes. -/
theorem bears_serialize {frame : EthernetFrame} {dgram : InternetDatagram}
    (h : Bears frame.serialize.concatenate dgram) :
    frame.header.type = EthernetHeader.TYPE_IPv4 ∧
      IPv4Datagram.parse {} frame.payload.concatenate = .ok (.noError, dgram) := by
  obtain ⟨got, hparse, htype, hdgram⟩ := h
  rw [EthernetFrame.parse_serialize] at hparse
  cases hparse
  exact ⟨htype, hdgram⟩

theorem inFields_of_bears {bytes : Buffer} {dgram : InternetDatagram} (h : Bears bytes dgram) :
    dgram.header.InFields := by
  obtain ⟨frame, -, -, hparse⟩ := h
  cases hbuffer : frame.payload.toBuffer with
  | error e =>
    rw [hbuffer] at hparse
    cases hparse
  | ok b =>
    rw [hbuffer] at hparse
    exact IPv4Datagram.inFields_of_parse hparse

/-- The frame is one that an interface built: the datagram in it is written as `serialize` writes
it, with zeros for its options, and the checksum of its header is the computed one. -/
structure Rewritten (bytes : Buffer) (dgram : InternetDatagram) : Prop where
  frame : ∃ (frame : EthernetFrame) (out : BufferList),
    bytes = frame.serialize.concatenate ∧ dgram.serialize = .ok out ∧
      frame.payload.concatenate = out.concatenate
  cksum : dgram.header.newCksum = .ok dgram.header.cksum

structure RoutedNetwork where
  routers : List Router
  /-- The frames that have been sent. -/
  wire : List Buffer := []
  /-- Those of them that came from hosts. -/
  hosts : List Buffer := []

inductive NetworkOp where
  | host (bytes : Buffer)
  /-- A frame of the wire arrives at interface `i` of router `k`. -/
  | deliver (k i m : ℕ)
  | tick (k i ms : ℕ)
  | route (k : ℕ)
  /-- The first frame in the queue of an interface is sent. -/
  | transmit (k i : ℕ)
deriving DecidableEq, Repr

namespace RoutedNetwork

/-- `frames_out().pop()` at one interface. -/
def popFrame (i : ℕ) (r : Router) : Router :=
  { r with interfaces := r.interfaces.modify i fun a =>
      { a with base := { a.base with framesOut := a.base.framesOut.tail } } }

/-- `frames_out().front()` at one interface. -/
def frontFrame (net : RoutedNetwork) (k i : ℕ) : Option EthernetFrame := do
  let r ← net.routers[k]?
  let a ← r.interfaces[i]?
  a.base.framesOut.head?

def onRouter (k : ℕ) (f : Router → Router) (net : RoutedNetwork) : RoutedNetwork :=
  { net with routers := net.routers.modify k f }

def send (bytes : Buffer) (net : RoutedNetwork) : RoutedNetwork :=
  { net with wire := net.wire ++ [bytes] }

def networkStep (net : RoutedNetwork) : NetworkOp → RoutedNetwork
  | .host bytes => { net.send bytes with hosts := net.hosts ++ [bytes] }
  | .deliver k i m =>
    match net.wire[m]? with
    | some bytes => net.onRouter k fun r => Router.routerStep r (.frame i bytes)
    | none => net
  | .tick k i ms => net.onRouter k fun r => Router.routerStep r (.tick i ms)
  | .route k => net.onRouter k fun r => Router.routerStep r .route
  | .transmit k i =>
    match net.frontFrame k i with
    | some frame => (net.onRouter k (popFrame i)).send frame.serialize.concatenate
    | none => net

/-! ### Where a datagram comes from -/

/-- The datagram was sent by one of the hosts. -/
def FromHost (hosts : List Buffer) (dgram : InternetDatagram) : Prop :=
  ∃ bytes ∈ hosts, ∃ sent hops, Bears bytes sent ∧ IPv4Datagram.Forwarded hops sent dgram

structure Derived (net : RoutedNetwork) : Prop where
  wire : ∀ bytes ∈ net.wire, ∀ dgram, Bears bytes dgram → FromHost net.hosts dgram
  written : ∀ bytes ∈ net.wire, bytes ∈ net.hosts ∨
    ∀ dgram, Bears bytes dgram → Rewritten bytes dgram
  routers : ∀ r ∈ net.routers, r.CarriesOnly (FromHost net.hosts)

variable {hosts : List Buffer} {net : RoutedNetwork}

theorem FromHost.mono {dgram : InternetDatagram} (h : FromHost hosts dgram) {hosts' : List Buffer}
    (hsub : hosts ⊆ hosts') : FromHost hosts' dgram := by
  obtain ⟨bytes, hmem, hsent⟩ := h
  exact ⟨bytes, hsub hmem, hsent⟩

theorem FromHost.inFields {dgram : InternetDatagram} (h : FromHost hosts dgram) :
    dgram.header.InFields := by
  obtain ⟨bytes, -, sent, hops, hbears, hforwarded⟩ := h
  exact hforwarded.inFields (inFields_of_bears hbears)

theorem FromHost.decremented (dgram : InternetDatagram) (h : FromHost hosts dgram)
    (httl : ¬ dgram.header.ttl ≤ 1) : FromHost hosts (Router.decremented dgram) := by
  obtain ⟨bytes, hmem, sent, hops, hbears, hforwarded⟩ := h
  exact ⟨bytes, hmem, sent, hops + 1, hbears, hforwarded.decremented httl⟩

/-- A frame with the datagram is read again. -/
theorem FromHost.reread {dgram dgram' : InternetDatagram} (h : FromHost hosts dgram)
    {out : BufferList} (hser : dgram.serialize = .ok out)
    (hparse : IPv4Datagram.parse {} out.concatenate = .ok (.noError, dgram')) :
    FromHost hosts dgram' := by
  have hfields := h.inFields
  obtain ⟨bytes, hmem, sent, hops, hbears, hforwarded⟩ := h
  exact ⟨bytes, hmem, sent, hops, hbears, hforwarded.reread hfields hser hparse⟩

/-- One router does something. -/
theorem Derived.onRouter (h : net.Derived) (k : ℕ) {f : Router → Router}
    (hf : ∀ r, r.CarriesOnly (FromHost net.hosts) → (f r).CarriesOnly (FromHost net.hosts)) :
    (net.onRouter k f).Derived where
  wire := h.wire
  written := h.written
  routers r hr := by
    rcases Slices.mem_or_of_mem_modify hr with hold | ⟨r₀, hr₀, rfl⟩
    · exact h.routers r hold
    · exact hf r₀ (h.routers r₀ hr₀)

theorem Derived.send (h : net.Derived) {bytes : Buffer}
    (hbytes : ∀ dgram, Bears bytes dgram →
      FromHost net.hosts dgram ∧ Rewritten bytes dgram) :
    (net.send bytes).Derived where
  wire b hb dgram hdgram := by
    rcases List.mem_append.mp hb with hold | hnew
    · exact h.wire b hold dgram hdgram
    · rw [List.mem_singleton.mp hnew] at hdgram
      exact (hbytes dgram hdgram).1
  written b hb := by
    rcases List.mem_append.mp hb with hold | hnew
    · exact h.written b hold
    · rw [List.mem_singleton.mp hnew]
      exact Or.inr fun dgram hdgram => (hbytes dgram hdgram).2
  routers := h.routers

theorem carriesOnly_popFrame {S : InternetDatagram → Prop} {r : Router} (h : r.CarriesOnly S)
    (i : ℕ) : (popFrame i r).CarriesOnly S := by
  intro a ha
  rcases Slices.mem_or_of_mem_modify ha with hold | ⟨b, hb, rfl⟩
  · exact h a hold
  · exact ⟨(h b hb).base.pop (List.tail_subset _), (h b hb).arrived⟩

/-- What is transmitted was derived from the datagrams of hosts before. -/
theorem Derived.frontFrame (h : net.Derived) {k i : ℕ} {frame : EthernetFrame}
    (hfront : net.frontFrame k i = some frame) (dgram : InternetDatagram)
    (hbears : Bears frame.serialize.concatenate dgram) :
    FromHost net.hosts dgram ∧ Rewritten frame.serialize.concatenate dgram := by
  simp only [RoutedNetwork.frontFrame, Option.bind_eq_bind, Option.bind_eq_some_iff] at hfront
  obtain ⟨r, hr, a, ha, hhead⟩ := hfront
  obtain ⟨htype, hparse⟩ := bears_serialize hbears
  have hcarries := h.routers r (List.mem_of_getElem? hr) a (List.mem_of_getElem? ha)
  obtain ⟨sent, hsent, hser⟩ :=
    hcarries.base.frames frame (List.mem_of_mem_head? hhead) htype
  obtain ⟨hcksum, out, hout, hsame⟩ :=
    IPv4Datagram.serialize_of_parse hsent.inFields hser hparse
  exact ⟨hsent.reread hser hparse, ⟨frame, out, rfl, hout, hsame.symm⟩, hcksum⟩

/-- **One step makes no datagram up.** -/
theorem Derived.step (h : net.Derived) (op : NetworkOp) : (networkStep net op).Derived := by
  cases op with
  | host bytes =>
    have hsub : net.hosts ⊆ net.hosts ++ [bytes] := List.subset_append_left _ _
    constructor
    · intro b hb dgram hdgram
      rcases List.mem_append.mp hb with hold | hnew
      · exact (h.wire b hold dgram hdgram).mono hsub
      · rw [List.mem_singleton.mp hnew] at hdgram
        exact ⟨bytes, List.mem_append_right _ List.mem_cons_self, dgram, 0, hdgram, .refl dgram⟩
    · intro b hb
      rcases List.mem_append.mp hb with hold | hnew
      · exact (h.written b hold).imp_left fun hhost => hsub hhost
      · exact Or.inl (List.mem_append_right _ hnew)
    · intro r hr a ha
      have hcarries := h.routers r hr a ha
      exact ⟨hcarries.base.mono fun _ hd => hd.mono hsub,
        fun dgram hd => (hcarries.arrived dgram hd).mono hsub⟩
  | deliver k i m =>
    simp only [networkStep]
    split
    · rename_i bytes hbytes
      apply h.onRouter
      intro r hr
      have hcall : Keeps (Router.CarriesOnly (FromHost net.hosts))
          (Router.call (.frame i bytes)) := by
        obtain ⟨res, frame, b, hparse, -⟩ := EthernetFrame.parse_ok {} bytes
        intro r hr
        rw [Router.call_frame_eq hparse]
        split
        · rename_i hres
          rw [hres] at hparse
          apply Router.carriesOnly_onInterface _ i r hr
          apply AsyncNetworkInterface.carriesOnly_recvFrame
          intro dgram hdgram
          exact h.wire bytes (List.mem_of_getElem? hbytes) dgram ⟨frame, hparse, hdgram⟩
        · exact returned rfl hr
      exact hcall.after hr
    · exact h
  | tick k i ms =>
    apply h.onRouter
    intro r hr
    have hcall : Keeps (Router.CarriesOnly (FromHost net.hosts)) (Router.call (.tick i ms)) := by
      apply Router.carriesOnly_onInterface
      apply triple_modify
      intro a ha
      exact ⟨ha.base.tick ms, ha.arrived⟩
    exact hcall.after hr
  | route k =>
    apply h.onRouter
    intro r hr
    have hcall : Keeps (Router.CarriesOnly (FromHost net.hosts)) (Router.call .route) :=
      Router.carriesOnly_route FromHost.decremented
    exact hcall.after hr
  | transmit k i =>
    simp only [networkStep]
    split
    · rename_i frame hfront
      apply (h.onRouter k fun r hr => carriesOnly_popFrame hr i).send
      exact h.frontFrame hfront
    · exact h

/-- The routers hold nothing yet. -/
theorem derived_start {routers : List Router}
    (hnew : ∀ r ∈ routers, r.CarriesOnly fun _ => False) : Derived { routers } := by
  refine ⟨List.forall_mem_nil _, List.forall_mem_nil _, fun r hr a ha => ?_⟩
  have hcarries := hnew r hr a ha
  exact ⟨hcarries.base.mono fun _ hd => hd.elim, fun dgram hd => (hcarries.arrived dgram hd).elim⟩

theorem derived_run {routers : List Router}
    (hnew : ∀ r ∈ routers, r.CarriesOnly fun _ => False) (ops : List NetworkOp) :
    (run networkStep { routers } ops).Derived :=
  run_invariant_of_step (fun _ op h => h.step op) (derived_start hnew) ops

/-- **A network of routers makes no datagrams up.**  In every run, whatever the tables and wherever
the frames arrive, every datagram on a wire was sent by a host.  Behind `hops` routers, which are at
most 254, its TTL is lower by `hops`, and the other fields of its header, up to the checksum, and
its payload are as the host sent them.  The frame is the host's own, or its header was written anew
with a new checksum. -/
theorem wire_datagrams_from_hosts (routers : List Router)
    (hnew : ∀ r ∈ routers, r.CarriesOnly fun _ => False) (ops : List NetworkOp) (bytes : Buffer)
    (hwire : bytes ∈ (run networkStep { routers } ops).wire) (dgram : InternetDatagram)
    (hdgram : Bears bytes dgram) :
    ∃ sent hops, hops ≤ 254 ∧ IPv4Datagram.Forwarded hops sent dgram ∧
      (∃ frame ∈ (run networkStep { routers } ops).hosts, Bears frame sent) ∧
      (hops = 0 ∧ bytes ∈ (run networkStep { routers } ops).hosts ∨ Rewritten bytes dgram) := by
  have hnet := derived_run hnew ops
  rcases hnet.written bytes hwire with hhost | hwritten
  · exact ⟨dgram, 0, by decide, .refl dgram, ⟨bytes, hhost, hdgram⟩, Or.inl ⟨rfl, hhost⟩⟩
  · obtain ⟨frame, hmem, sent, hops, hbears, hforwarded⟩ := hnet.wire bytes hwire dgram hdgram
    exact ⟨sent, hops, hforwarded.hops_le, hforwarded, ⟨frame, hmem, hbears⟩,
      Or.inr (hwritten dgram hdgram)⟩

/-- An interface that has not been used. -/
theorem carriesOnly_new (ethernetAddress : EthernetAddress) (ipAddress : Address)
    (S : InternetDatagram → Prop) :
    AsyncNetworkInterface.CarriesOnly S { base := .new ethernetAddress ipAddress } :=
  ⟨⟨List.forall_mem_nil _, List.forall_mem_nil _, List.forall_mem_nil _⟩, List.forall_mem_nil _⟩

/-- A router between the networks 10 and 20. -/
def relay : Router :=
  { interfaces :=
      [{ base := .new #v[2, 0, 0, 0, 0, 1] { ip := 0x0a000001 } },
        { base := .new #v[2, 0, 0, 0, 0, 2] { ip := 0x14000001 } }]
    routingTable := [{ routePrefix := 0x14000000, prefixLength := 8, interfaceNum := 1 }] }

/-- A host of network 20 tells the router its address, and one of network 10 sends it two bytes. -/
def relayed : List NetworkOp :=
  [.host [2, 0, 0, 0, 0, 2, 2, 0, 0, 0, 0, 11, 8, 6, 0, 1, 8, 0, 6, 4, 0, 2, 2, 0, 0, 0, 0, 11,
      20, 0, 0, 2, 2, 0, 0, 0, 0, 2, 20, 0, 0, 1],
    .host [2, 0, 0, 0, 0, 1, 2, 0, 0, 0, 0, 10, 8, 0, 69, 0, 0, 22, 0, 0, 64, 0, 64, 6, 28, 223,
      10, 0, 0, 2, 20, 0, 0, 2, 104, 105],
    .deliver 0 1 0, .deliver 0 0 1, .route 0, .transmit 0 1]

/-- The frame that comes out. -/
def relayedFrame : Buffer :=
  [2, 0, 0, 0, 0, 11, 2, 0, 0, 0, 0, 2, 8, 0, 69, 0, 0, 22, 0, 0, 64, 0, 63, 6, 29, 223,
    10, 0, 0, 2, 20, 0, 0, 2, 104, 105]

/-- The datagram in it. -/
def relayedDatagram : InternetDatagram :=
  { header := { src := 0x0a000002, dst := 0x14000002, len := 22, ttl := 63, cksum := 7647 }
    payload := [[104, 105]] }

theorem wire_datagrams_from_hosts_relayed :
    relayedFrame ∉ (run networkStep { routers := [relay] } relayed).hosts ∧
      ∃ sent hops, hops ≤ 254 ∧ IPv4Datagram.Forwarded hops sent relayedDatagram ∧
        (∃ frame ∈ (run networkStep { routers := [relay] } relayed).hosts, Bears frame sent) ∧
        Rewritten relayedFrame relayedDatagram := by
  have hnew : relayedFrame ∉ (run networkStep { routers := [relay] } relayed).hosts := by
    decide +kernel
  obtain ⟨sent, hops, hle, hforwarded, hhost, hframe⟩ :=
    wire_datagrams_from_hosts [relay] (by simp [relay, Router.CarriesOnly, carriesOnly_new])
      relayed relayedFrame (by decide +kernel) relayedDatagram ⟨_, rfl, rfl, by decide +kernel⟩
  exact ⟨hnew, sent, hops, hle, hforwarded, hhost, hframe.resolve_left fun hown => hnew hown.2⟩

end RoutedNetwork

end Sponge
