import Sponge.EthernetAdapter
import Sponge.SocketPair

/-!
# From one application to the other, over IP

Two sockets whose adapters wrap segments in datagrams: over a TUN device, over Ethernet, and either
behind the lossy wrapper.  On the way, routers may have lowered the TTL of a datagram and computed
its checksum anew.

The last section puts a network of routers between two sockets over Ethernet.  Nothing is assumed
about the routers then: it is the network's own runs that say what becomes of a frame.
-/

namespace Sponge

open Hoare EventLoop MachineInt Run TCPSpongeSocket TcpThread

/-! ### Adapters over IP -/

/-- What an adapter provides that wraps segments in datagrams. -/
structure OverIp {α : Type} (A : FdAdapter α) where
  base : α → TCPOverIPv4Adapter
  /-- The datagrams that have come in. -/
  Came : α → InternetDatagram → Prop
  /-- The datagrams that have gone out. -/
  Went : α → InternetDatagram → Prop
  Tracks : α → List TCPSegment → List TCPSegment → Prop
  /-- No datagram has been made yet. -/
  Unused : α → Prop
  keeps : A.Keeps Tracks
  tracks : ∀ {a taken given}, Tracks a taken given →
    IpTracks (base a) (Came a) (Went a) taken given
  configured : ∀ {a}, Unused a → ∀ cfg, Tracks (A.configure cfg a) [] []
  listening : ∀ {a}, Unused a → ∀ cfg, Tracks (A.setListening true (A.configure cfg a)) [] []

theorem IpTracks.of_subset {base : TCPOverIPv4Adapter} {came went : InternetDatagram → Prop}
    {taken given taken' given' : List TCPSegment} (h : IpTracks base came went taken given)
    (htaken : taken' ⊆ taken) (hgiven : given ⊆ given') :
    IpTracks base came went taken' given' where
  fresh hl := by
    have hnil := h.fresh hl
    rw [hnil] at htaken
    exact List.subset_nil.mp htaken
  heard seg hseg := h.heard seg (htaken hseg)
  told := (h.went_mono hgiven fun _ => Or.inl).told

/-- Nothing has been taken and nothing has gone out. -/
theorem ipTracks_nil (base : TCPOverIPv4Adapter) (came : InternetDatagram → Prop)
    {went : InternetDatagram → Prop} (hwent : ∀ dgram, ¬ went dgram) :
    IpTracks base came went [] [] where
  fresh _ := rfl
  heard := List.forall_mem_nil _
  told dgram hdgram := absurd hdgram (hwent dgram)

def OverIp.tun : OverIp TCPOverIPv4OverTunFdAdapter.adapter where
  base a := a.base
  Came := TCPOverIPv4OverTunFdAdapter.Came
  Went := TCPOverIPv4OverTunFdAdapter.Went
  Tracks := TCPOverIPv4OverTunFdAdapter.Tracks
  Unused a := ∀ dgram, ¬ a.Went dgram
  keeps := TCPOverIPv4OverTunFdAdapter.adapter_keeps
  tracks h := h
  configured hunused _ := ipTracks_nil _ _ hunused
  listening hunused _ := ipTracks_nil _ _ hunused

def OverIp.ethernet : OverIp TCPOverIPv4OverEthernetAdapter.adapter where
  base a := a.base
  Came := TCPOverIPv4OverEthernetAdapter.Came
  Went := TCPOverIPv4OverEthernetAdapter.Went
  Tracks := TCPOverIPv4OverEthernetAdapter.Tracks
  Unused a := (∀ dgram, ¬ a.Went dgram) ∧ a.interface.CarriesOnly fun _ => False
  keeps := TCPOverIPv4OverEthernetAdapter.adapter_keeps
  tracks h := h.ip
  configured hunused _ := ⟨ipTracks_nil _ _ hunused.1, hunused.2.mono fun _ => False.elim⟩
  listening hunused _ := ⟨ipTracks_nil _ _ hunused.1, hunused.2.mono fun _ => False.elim⟩

/-- The lossy wrapper around an adapter over IP. -/
def OverIp.lossy {α : Type} {A : FdAdapter α} (I : OverIp A) :
    OverIp (LossyFdAdapter.lossy A) where
  base a := I.base a.adapter
  Came a := I.Came a.adapter
  Went a := I.Went a.adapter
  Tracks := LossyFdAdapter.Thinned I.Tracks
  Unused a := I.Unused a.adapter
  keeps := LossyFdAdapter.lossy_keeps I.keeps
  tracks := by
    rintro a taken given ⟨taken', given', htaken, hgiven, h⟩
    exact (I.tracks h).of_subset htaken.subset hgiven.subset
  configured hunused cfg := ⟨[], [], .refl _, .refl _, I.configured hunused cfg⟩
  listening hunused cfg := ⟨[], [], .refl _, .refl _, I.listening hunused cfg⟩

/-- The first frame that an adapter over Ethernet sends holds no datagram. -/
theorem TCPOverIPv4OverEthernetAdapter.unused_new {ethAddress : EthernetAddress}
    {ipAddress nextHop : Address} {fd fd' : FileDescriptor} {a : TCPOverIPv4OverEthernetAdapter}
    (h : new ethAddress ipAddress nextHop fd = .ok a fd') : OverIp.ethernet.Unused a := by
  obtain ⟨n, fd₁, -, hrest⟩ := Throwing.ok_of_bind_ok h
  cases hrest
  refine ⟨?_, List.forall_mem_nil _, List.forall_mem_nil _, List.forall_mem_nil _⟩
  rintro dgram ⟨bytes, hbytes, hbears⟩
  rw [List.mem_singleton.mp hbytes] at hbears
  have htype := (bears_serialize hbears).1
  exact absurd htype (by decide)

/-! ### Two sockets over IP -/

namespace SocketSetup

variable {α β : Type} {A : FdAdapter α} {B : FdAdapter β} {u : SocketSetup α} {v : SocketSetup β}

theorem tracks_opened (I : OverIp A) (hunused : I.Unused u.adapter) :
    I.Tracks (u.opened A) [] [] := by
  rw [opened]
  split
  · exact I.listening hunused u.cAd
  · exact I.configured hunused u.cAd

/-- A datagram that has come in with the address of the peer is one that the peer has sent, behind
some routers. -/
def GenuineIp (I : OverIp A) (I' : OverIp B) (peer : α) (self : β) : Prop :=
  ∀ dgram, I'.Came self dgram →
    dgram.header.src = (I'.base self).config.destination.ipv4Numeric →
      ∃ sent hops, I.Went peer sent ∧ IPv4Datagram.Forwarded hops sent dgram

variable {I : OverIp A} {I' : OverIp B}

/-- What a router has left of a datagram is read as the segment that the datagram was made for. -/
theorem linked_of_genuineIp {isn isn' : WrappingInt32} {x : TCPSpongeSocket α}
    {y : TCPSpongeSocket β} (hx : SocketSafe I.Tracks isn x) (hy : SocketSafe I'.Tracks isn' y)
    (hnet : GenuineIp I I' x.datagramAdapter y.datagramAdapter) :
    ∀ seg ∈ y.taken, ∃ given ∈ x.given, SameData seg given := by
  intro seg hseg
  obtain ⟨dgram, hcame, hsource, hextracts⟩ := (I'.tracks hy.tracks).heard seg hseg
  obtain ⟨sent, hops, hwent, hforwarded⟩ := hnet dgram hcame hsource
  obtain ⟨given, hgiven, hread⟩ := (I.tracks hx.tracks).told sent hwent
  exact ⟨given, hgiven, hread.forwarded hforwarded seg hextracts⟩

theorem safe_after (I : OverIp A) (hu : u.New) (hunused : I.Unused u.adapter)
    (events : List LoopEvent) : SocketSafe I.Tracks u.isn (u.after A events).socket :=
  (threadInv_after I.keeps hu (tracks_opened I hunused) events).safe

/-- **Safety from one owner to the other, over IP.**  The two sockets may work over a TUN device or
over Ethernet, and behind the lossy wrapper.  If the datagrams that come with the peer's address are
the peer's own, whatever became of their TTL and of the checksum of the header, then the bytes that
one owner has got are a prefix of the bytes that the other owner's socket has read. -/
theorem owner_gets_only_written_over_ip (I : OverIp A) (I' : OverIp B) (hu : u.New) (hv : v.New)
    (hunused : I.Unused u.adapter) (hunused' : I'.Unused v.adapter)
    (events events' : List LoopEvent)
    (hnet : GenuineIp I I' (u.after A events).socket.datagramAdapter
      (v.after B events').socket.datagramAdapter)
    (hlen : (u.after A events).socket.threadData.received.length < 2 ^ 31 - 2) :
    (v.after B events').socket.threadData.sent <+:
      (u.after A events).socket.threadData.received := by
  have hx := safe_after I hu hunused events
  have hy := safe_after I' hv hunused' events'
  exact sent_of_linked hx hy (linked_of_genuineIp hx hy hnet) hlen

/-- The packets of a talk: SYN, SYN and ACK, ACK, and two bytes. -/
def talkPackets : List Buffer :=
  [[69, 0, 0, 40, 0, 0, 64, 0, 128, 6, 220, 204, 10, 0, 0, 2, 20, 0, 0, 2, 3, 232, 7, 208,
      0, 0, 0, 0, 0, 0, 0, 0, 80, 2, 0, 0, 134, 39, 0, 0],
    [69, 0, 0, 40, 0, 0, 64, 0, 128, 6, 220, 204, 20, 0, 0, 2, 10, 0, 0, 2, 7, 208, 3, 232,
      0, 0, 0, 100, 0, 0, 0, 1, 80, 18, 0, 8, 133, 170, 0, 0],
    [69, 0, 0, 40, 0, 0, 64, 0, 128, 6, 220, 204, 10, 0, 0, 2, 20, 0, 0, 2, 3, 232, 7, 208,
      0, 0, 0, 1, 0, 0, 0, 101, 80, 16, 0, 8, 133, 171, 0, 0],
    [69, 0, 0, 42, 0, 0, 64, 0, 128, 6, 220, 202, 10, 0, 0, 2, 20, 0, 0, 2, 3, 232, 7, 208,
      0, 0, 0, 1, 0, 0, 0, 101, 80, 16, 0, 8, 29, 64, 0, 0, 104, 105]]

/-- The one that connects. -/
def tunCaller : SocketSetup TCPOverIPv4OverTunFdAdapter where
  cTcp := caller.cTcp
  cAd :=
    { source := { ip := 0x0a000002, port := 1000 }
      destination := { ip := 0x14000002, port := 2000 } }
  random := ⟨0⟩
  adapter :=
    { tun :=
      { reads := [.ok (talkPackets.getD 1 [])], writes := [.ok 40, .ok 40, .ok 42] } }
  threadData := caller.threadData
  listens := false
  now := 0

/-- The one that listens; the bytes come before the ACK that was sent before them, and twice. -/
def tunCallee : SocketSetup TCPOverIPv4OverTunFdAdapter where
  cTcp := callee.cTcp
  cAd := { source := { ip := 0x14000002, port := 2000 } }
  random := ⟨0⟩
  adapter :=
    { tun :=
      { reads := [.ok (talkPackets.getD 0 []), .ok (talkPackets.getD 3 []),
          .ok (talkPackets.getD 2 []), .ok (talkPackets.getD 3 [])]
        writes := [.ok 40] } }
  threadData := callee.threadData
  listens := true
  now := 0

theorem owner_gets_only_written_over_ip_talk :
    let x := tunCaller.after TCPOverIPv4OverTunFdAdapter.adapter callerTurns
    let y := tunCallee.after TCPOverIPv4OverTunFdAdapter.adapter calleeTurns
    y.socket.threadData.sent = [104, 105] ∧
      y.socket.threadData.sent <+: x.socket.threadData.received := by
  have hread : (tunCallee.after TCPOverIPv4OverTunFdAdapter.adapter
      calleeTurns).socket.datagramAdapter.packetsIn ⊆
        (tunCaller.after TCPOverIPv4OverTunFdAdapter.adapter
          callerTurns).socket.datagramAdapter.packetsOut := by
    decide +kernel
  refine ⟨by decide +kernel, owner_gets_only_written_over_ip .tun .tun
    ⟨by decide, by decide, rfl, rfl⟩ ⟨by decide, by decide, rfl, rfl⟩ ?_ ?_ callerTurns
    calleeTurns ?_ (by decide +kernel)⟩
  · rintro _ ⟨_, ⟨⟩, -⟩
  · rintro _ ⟨_, ⟨⟩, -⟩
  · rintro dgram ⟨bytes, hbytes, hparse⟩ -
    exact ⟨dgram, 0, ⟨bytes, hread hbytes, hparse⟩, .refl dgram⟩

/-! ### Through a network of routers -/

section Routed

variable {u v : SocketSetup TCPOverIPv4OverEthernetAdapter}

/-- The datagrams that a host reads from the wire with the address of its peer are the peer's, if no
other host uses that address. -/
theorem genuineIp_of_derived {net : RoutedNetwork} (hnet : net.Derived)
    {x y : TCPOverIPv4OverEthernetAdapter} (hread : y.framesIn ⊆ net.wire)
    (hown : ∀ bytes ∈ net.hosts, ∀ dgram, Bears bytes dgram →
      dgram.header.src = y.base.config.destination.ipv4Numeric → bytes ∈ x.framesSent) :
    GenuineIp .ethernet .ethernet x y := by
  rintro dgram ⟨bytes, hbytes, hbears⟩ hsource
  obtain ⟨frame, hframe, sent, hops, hsent, hforwarded⟩ :=
    hnet.wire bytes (hread hbytes) dgram hbears
  obtain ⟨ttl, cksum, hheader⟩ := hforwarded.header
  rw [hheader] at hsource
  exact ⟨sent, hops, ⟨frame, hown frame hframe sent hsent hsource, hsent⟩, hforwarded⟩

/-- **Safety from one owner to the other, through routers.**  Between the two hosts is any number of
routers with any tables and any wiring, with other hosts that send what they like; only the address
of the one that writes is not used by another host.  What the owner at one end has got is a prefix
of what the owner at the other end wrote, at every moment of every run. -/
theorem owner_gets_only_written_through_routers (routers : List Router)
    (hnew : ∀ r ∈ routers, r.CarriesOnly fun _ => False) (ops : List NetworkOp) (hu : u.New)
    (hv : v.New) (hunused : OverIp.ethernet.Unused u.adapter)
    (hunused' : OverIp.ethernet.Unused v.adapter) (events events' : List LoopEvent)
    (hread : (v.after TCPOverIPv4OverEthernetAdapter.adapter
        events').socket.datagramAdapter.framesIn ⊆
      (run RoutedNetwork.networkStep { routers } ops).wire)
    (hown : ∀ bytes ∈ (run RoutedNetwork.networkStep { routers } ops).hosts, ∀ dgram,
      Bears bytes dgram →
        dgram.header.src = (v.after TCPOverIPv4OverEthernetAdapter.adapter
          events').socket.datagramAdapter.base.config.destination.ipv4Numeric →
          bytes ∈ (u.after TCPOverIPv4OverEthernetAdapter.adapter
            events).socket.datagramAdapter.framesSent)
    (hlen : (u.after TCPOverIPv4OverEthernetAdapter.adapter
      events).socket.threadData.received.length < 2 ^ 31 - 2) :
    (v.after TCPOverIPv4OverEthernetAdapter.adapter events').socket.threadData.sent <+:
      (u.after TCPOverIPv4OverEthernetAdapter.adapter events).socket.threadData.received := by
  have hx := safe_after .ethernet hu hunused events
  have hy := safe_after .ethernet hv hunused' events'
  have hnet := genuineIp_of_derived (RoutedNetwork.derived_run hnew ops) hread hown
  exact sent_of_linked hx hy (linked_of_genuineIp hx hy hnet) hlen

/-- A router between the networks 10 and 20, in both directions. -/
def crossing : Router :=
  { RoutedNetwork.relay with
    routingTable :=
      [{ routePrefix := 0x14000000, prefixLength := 8, interfaceNum := 1 },
        { routePrefix := 0x0a000000, prefixLength := 8, interfaceNum := 0 }] }

/-- The frames of a talk in the order in which they are sent: the caller asks for the router, and
the router for the callee. -/
def talkFrames : List Buffer :=
  [[255, 255, 255, 255, 255, 255, 2, 0, 0, 0, 0, 10, 8, 6, 0, 1, 8, 0, 6, 4, 0, 1,
      2, 0, 0, 0, 0, 10, 10, 0, 0, 2, 0, 0, 0, 0, 0, 0, 10, 0, 0, 1],
    [2, 0, 0, 0, 0, 10, 2, 0, 0, 0, 0, 1, 8, 6, 0, 1, 8, 0, 6, 4, 0, 2,
      2, 0, 0, 0, 0, 1, 10, 0, 0, 1, 2, 0, 0, 0, 0, 10, 10, 0, 0, 2],
    [2, 0, 0, 0, 0, 1, 2, 0, 0, 0, 0, 10, 8, 0, 69, 0, 0, 40, 0, 0, 64, 0, 128, 6, 220, 204,
      10, 0, 0, 2, 20, 0, 0, 2, 3, 232, 7, 208, 0, 0, 0, 0, 0, 0, 0, 0, 80, 2, 0, 0,
      134, 39, 0, 0],
    [255, 255, 255, 255, 255, 255, 2, 0, 0, 0, 0, 2, 8, 6, 0, 1, 8, 0, 6, 4, 0, 1,
      2, 0, 0, 0, 0, 2, 20, 0, 0, 1, 0, 0, 0, 0, 0, 0, 20, 0, 0, 2],
    [2, 0, 0, 0, 0, 2, 2, 0, 0, 0, 0, 11, 8, 6, 0, 1, 8, 0, 6, 4, 0, 2,
      2, 0, 0, 0, 0, 11, 20, 0, 0, 2, 2, 0, 0, 0, 0, 2, 20, 0, 0, 1],
    [2, 0, 0, 0, 0, 11, 2, 0, 0, 0, 0, 2, 8, 0, 69, 0, 0, 40, 0, 0, 64, 0, 127, 6, 221, 204,
      10, 0, 0, 2, 20, 0, 0, 2, 3, 232, 7, 208, 0, 0, 0, 0, 0, 0, 0, 0, 80, 2, 0, 0,
      134, 39, 0, 0],
    [2, 0, 0, 0, 0, 2, 2, 0, 0, 0, 0, 11, 8, 0, 69, 0, 0, 40, 0, 0, 64, 0, 128, 6, 220, 204,
      20, 0, 0, 2, 10, 0, 0, 2, 7, 208, 3, 232, 0, 0, 0, 100, 0, 0, 0, 1, 80, 18, 0, 8,
      133, 170, 0, 0],
    [2, 0, 0, 0, 0, 10, 2, 0, 0, 0, 0, 1, 8, 0, 69, 0, 0, 40, 0, 0, 64, 0, 127, 6, 221, 204,
      20, 0, 0, 2, 10, 0, 0, 2, 7, 208, 3, 232, 0, 0, 0, 100, 0, 0, 0, 1, 80, 18, 0, 8,
      133, 170, 0, 0],
    [2, 0, 0, 0, 0, 1, 2, 0, 0, 0, 0, 10, 8, 0, 69, 0, 0, 40, 0, 0, 64, 0, 128, 6, 220, 204,
      10, 0, 0, 2, 20, 0, 0, 2, 3, 232, 7, 208, 0, 0, 0, 1, 0, 0, 0, 101, 80, 16, 0, 8,
      133, 171, 0, 0],
    [2, 0, 0, 0, 0, 11, 2, 0, 0, 0, 0, 2, 8, 0, 69, 0, 0, 40, 0, 0, 64, 0, 127, 6, 221, 204,
      10, 0, 0, 2, 20, 0, 0, 2, 3, 232, 7, 208, 0, 0, 0, 1, 0, 0, 0, 101, 80, 16, 0, 8,
      133, 171, 0, 0],
    [2, 0, 0, 0, 0, 1, 2, 0, 0, 0, 0, 10, 8, 0, 69, 0, 0, 42, 0, 0, 64, 0, 128, 6, 220, 202,
      10, 0, 0, 2, 20, 0, 0, 2, 3, 232, 7, 208, 0, 0, 0, 1, 0, 0, 0, 101, 80, 16, 0, 8,
      29, 64, 0, 0, 104, 105],
    [2, 0, 0, 0, 0, 11, 2, 0, 0, 0, 0, 2, 8, 0, 69, 0, 0, 42, 0, 0, 64, 0, 127, 6, 221, 202,
      10, 0, 0, 2, 20, 0, 0, 2, 3, 232, 7, 208, 0, 0, 0, 1, 0, 0, 0, 101, 80, 16, 0, 8,
      29, 64, 0, 0, 104, 105]]

def talkFrame (k : ℕ) : Buffer := talkFrames.getD k []

/-- What the network does with them. -/
def talkOps : List NetworkOp :=
  [.host (talkFrame 0), .deliver 0 0 0, .transmit 0 0,
    .host (talkFrame 2), .deliver 0 0 2, .route 0, .transmit 0 1,
    .host (talkFrame 4), .deliver 0 1 4, .transmit 0 1,
    .host (talkFrame 6), .deliver 0 1 6, .route 0, .transmit 0 0,
    .host (talkFrame 8), .deliver 0 0 8, .route 0, .transmit 0 1,
    .host (talkFrame 10), .deliver 0 0 10, .route 0, .transmit 0 1]

def routedCaller : SocketSetup TCPOverIPv4OverEthernetAdapter where
  cTcp := caller.cTcp
  cAd := tunCaller.cAd
  random := ⟨0⟩
  adapter :=
    { tap :=
      { reads := [.ok (talkFrame 1), .ok (talkFrame 7)]
        writes := [.ok 42, .ok 54, .ok 54, .ok 56] }
      interface := .new #v[2, 0, 0, 0, 0, 10] { ip := 0x0a000002 }
      nextHop := { ip := 0x0a000001 } }
  threadData := caller.threadData
  listens := false
  now := 0

def routedCallee : SocketSetup TCPOverIPv4OverEthernetAdapter where
  cTcp := callee.cTcp
  cAd := tunCallee.cAd
  random := ⟨0⟩
  adapter :=
    { tap :=
      { reads := [.ok (talkFrame 3), .ok (talkFrame 5), .ok (talkFrame 9), .ok (talkFrame 11)]
        writes := [.ok 42, .ok 54] }
      interface := .new #v[2, 0, 0, 0, 0, 11] { ip := 0x14000002 }
      nextHop := { ip := 0x14000001 } }
  threadData := callee.threadData
  listens := true
  now := 0

/-- The caller's turns, with one more for the router's Ethernet address. -/
def routedCallerTurns : List LoopEvent :=
  [turn [0, 0, 0, 4], turn [1], turn [1], turn [], turn [0, 1, 0, 4]]

/-- The callee's turns; the first one answers the router's question. -/
def routedCalleeTurns : List LoopEvent :=
  [turn [1], turn [1], turn [0, 0, 0, 4], turn [1], turn [], turn [1], turn [0, 0, 4]]

/-- The datagram that a frame bears, if there is one. -/
def datagramIn (bytes : Buffer) : Option InternetDatagram :=
  match EthernetFrame.parse {} bytes with
  | .ok (.noError, frame) =>
    match frame.payload.toBuffer >>= IPv4Datagram.parse {} with
    | .ok (.noError, dgram) =>
      if frame.header.type = EthernetHeader.TYPE_IPv4 then some dgram else none
    | _ => none
  | _ => none

theorem mem_datagramIn {bytes : Buffer} {dgram : InternetDatagram} (h : Bears bytes dgram) :
    dgram ∈ datagramIn bytes := by
  obtain ⟨frame, hparse, htype, hdgram⟩ := h
  simp [datagramIn, hparse, hdgram, htype]

theorem owner_gets_only_written_through_routers_talk :
    let x := routedCaller.after TCPOverIPv4OverEthernetAdapter.adapter routedCallerTurns
    let y := routedCallee.after TCPOverIPv4OverEthernetAdapter.adapter routedCalleeTurns
    y.socket.threadData.sent = [104, 105] ∧
      y.socket.threadData.sent <+: x.socket.threadData.received := by
  refine ⟨by decide +kernel, owner_gets_only_written_through_routers [crossing] ?_ talkOps
    ⟨by decide, by decide, rfl, rfl⟩ ⟨by decide, by decide, rfl, rfl⟩ ?_ ?_ routedCallerTurns
    routedCalleeTurns (by decide +kernel) ?_ (by decide +kernel)⟩
  · simp [crossing, RoutedNetwork.relay, Router.CarriesOnly, RoutedNetwork.carriesOnly_new]
  · refine ⟨?_, List.forall_mem_nil _, List.forall_mem_nil _, List.forall_mem_nil _⟩
    rintro _ ⟨_, ⟨⟩, -⟩
  · refine ⟨?_, List.forall_mem_nil _, List.forall_mem_nil _, List.forall_mem_nil _⟩
    rintro _ ⟨_, ⟨⟩, -⟩
  · -- the two frames of the callee are an ARP message and a datagram with its own address
    have hown : ∀ bytes ∈ (run RoutedNetwork.networkStep { routers := [crossing] } talkOps).hosts,
        ∀ dgram ∈ datagramIn bytes, dgram.header.src = (routedCallee.after
          TCPOverIPv4OverEthernetAdapter.adapter
          routedCalleeTurns).socket.datagramAdapter.base.config.destination.ipv4Numeric →
          bytes ∈ (routedCaller.after TCPOverIPv4OverEthernetAdapter.adapter
            routedCallerTurns).socket.datagramAdapter.framesSent := by
      decide +kernel
    exact fun bytes hbytes dgram hbears => hown bytes hbytes dgram (mem_datagramIn hbears)

end Routed

end SocketSetup

end Sponge
