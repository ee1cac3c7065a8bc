import Sponge.NetworkInterface
import Sponge.TcpWire
import Sponge.Lib.Run

/-!
# TCP segments in IPv4 datagrams

The adapter between a connection and the datagram layer.  It has two modes: while it listens it
takes the first SYN for its port, from anybody, and records both ends; from then on it takes
segments between these two ends only.
-/

namespace Sponge

open Throwing Run

structure FdAdapterConfig where
  source : Address := { ip := 0 }
  destination : Address := { ip := 0 }
  lossRateDn : UInt16 := 0
  lossRateUp : UInt16 := 0
deriving DecidableEq, Repr

/-- The loss rates, up and down. -/
def FdAdapterConfig.rates (cfg : FdAdapterConfig) : UInt16 × UInt16 :=
  (cfg.lossRateUp, cfg.lossRateDn)

structure TCPOverIPv4Adapter where
  cfg : FdAdapterConfig := {}
  listen : Bool := false
deriving DecidableEq, Repr

namespace TCPOverIPv4Adapter

def config (a : TCPOverIPv4Adapter) : FdAdapterConfig := a.cfg

def listening (a : TCPOverIPv4Adapter) : Bool := a.listen

/-- The adapter after a SYN from a new peer: it answers from the address that was contacted. -/
def target (a : TCPOverIPv4Adapter) (header : IPv4Header) (tcpSeg : TCPSegment) :
    TCPOverIPv4Adapter :=
  { cfg :=
      { a.cfg with
        source := { ip := header.dst, port := a.config.source.port }
        destination := { ip := header.src, port := tcpSeg.header.sport } }
    listen := false }

def unwrapTcpInIp (ipDgram : InternetDatagram) : Call TCPOverIPv4Adapter (Option TCPSegment) := do
  let a ← get
  if ¬ a.listening ∧ ipDgram.header.dst ≠ a.config.source.ipv4Numeric then return none
  if ¬ a.listening ∧ ipDgram.header.src ≠ a.config.destination.ipv4Numeric then return none
  if ipDgram.header.proto ≠ IPv4Header.PROTO_TCP then return none
  let (res, tcpSeg) ← ofExcept (ipDgram.payload.toBuffer >>= fun buffer =>
    TCPSegment.parse {} buffer ipDgram.header.pseudoCksum)
  if res ≠ .noError then return none
  if tcpSeg.header.dport ≠ a.config.source.port then return none
  if a.listening then
    if tcpSeg.header.syn ∧ ¬ tcpSeg.header.rst then
      set (a.target ipDgram.header tcpSeg)
    else return none
  if tcpSeg.header.sport ≠ (← get).config.destination.port then return none
  return some tcpSeg

/-- The assignments to the ports of a segment. -/
def setPorts (a : TCPOverIPv4Adapter) (seg : TCPSegment) : TCPSegment :=
  { seg with
    header := { seg.header with
      sport := a.config.source.port, dport := a.config.destination.port } }

/-- The header of the datagram for a segment. -/
def datagramHeader (a : TCPOverIPv4Adapter) (seg : TCPSegment) : IPv4Header :=
  { src := a.config.source.ipv4Numeric, dst := a.config.destination.ipv4Numeric
    len := UInt16.ofNat (({} : IPv4Header).hlen.toNat * 4 + seg.header.doff.toNat * 4 +
      Buffer.size seg.payload) }

/-- The datagram, and the segment with its port numbers set. -/
def wrapTcpInIp (a : TCPOverIPv4Adapter) (seg : TCPSegment) :
    Except Exception (InternetDatagram × TCPSegment) := do
  let payload ← (a.setPorts seg).serialize (a.datagramHeader (a.setPorts seg)).pseudoCksum
  return ({ header := a.datagramHeader (a.setPorts seg), payload }, a.setPorts seg)

/-! ### What one datagram does -/

/-- **What `unwrap_tcp_in_ip` does**, check by check. -/
theorem unwrapTcpInIp_eq (ipDgram : InternetDatagram) (a : TCPOverIPv4Adapter) :
    unwrapTcpInIp ipDgram a =
      if ¬ a.listening ∧ ipDgram.header.dst ≠ a.config.source.ipv4Numeric then .ok none a
      else if ¬ a.listening ∧ ipDgram.header.src ≠ a.config.destination.ipv4Numeric then
        .ok none a
      else if ipDgram.header.proto ≠ IPv4Header.PROTO_TCP then .ok none a
      else match ipDgram.payload.toBuffer >>= fun buffer =>
          TCPSegment.parse {} buffer ipDgram.header.pseudoCksum with
        | .error e => .error e a
        | .ok (res, tcpSeg) =>
          if res ≠ .noError then .ok none a
          else if tcpSeg.header.dport ≠ a.config.source.port then .ok none a
          else if a.listening then
            if tcpSeg.header.syn ∧ ¬ tcpSeg.header.rst then
              .ok (some tcpSeg) (a.target ipDgram.header tcpSeg)
            else .ok none a
          else if tcpSeg.header.sport ≠ a.config.destination.port then .ok none a
          else .ok (some tcpSeg) a := by
  show (if ¬ a.listening ∧ ipDgram.header.dst ≠ a.config.source.ipv4Numeric then _
    else if ¬ a.listening ∧ ipDgram.header.src ≠ a.config.destination.ipv4Numeric then _
    else if ipDgram.header.proto ≠ IPv4Header.PROTO_TCP then _ else _ :
      Call TCPOverIPv4Adapter (Option TCPSegment)) a = _
  split
  · rfl
  split
  · rfl
  split
  · rfl
  cases ipDgram.payload.toBuffer >>= fun buffer =>
      TCPSegment.parse {} buffer ipDgram.header.pseudoCksum with
  | error e => rfl
  | ok r =>
    obtain ⟨res, tcpSeg⟩ := r
    simp only
    show (if res ≠ .noError then _ else if tcpSeg.header.dport ≠ a.config.source.port then _
      else if a.listening then if tcpSeg.header.syn ∧ ¬ tcpSeg.header.rst then _ else _ else _ :
        Call TCPOverIPv4Adapter (Option TCPSegment)) a = _
    split
    · rfl
    split
    · rfl
    split
    · split
      · -- the ports agree with the configuration that was just written
        exact congrArg (fun f : Call TCPOverIPv4Adapter (Option TCPSegment) =>
          f (a.target ipDgram.header tcpSeg)) (if_neg (not_not.mpr rfl))
      · rfl
    · show (if tcpSeg.header.sport ≠ a.config.destination.port then _ else _ :
        Call TCPOverIPv4Adapter (Option TCPSegment)) a = _
      split
      · rfl
      · rfl

/-! ### Through the datagram and back -/

/-- A datagram from the peer to this end holds a segment for it. -/
theorem unwrapTcpInIp_some {a : TCPOverIPv4Adapter} {ipDgram : InternetDatagram}
    {buffer : Buffer} {tcpSeg : TCPSegment} (hlisten : a.listening = false)
    (hdst : ipDgram.header.dst = a.config.source.ipv4Numeric)
    (hsrc : ipDgram.header.src = a.config.destination.ipv4Numeric)
    (hproto : ipDgram.header.proto = IPv4Header.PROTO_TCP) (hpayload : ipDgram.payload = [buffer])
    (hparse : TCPSegment.parse {} buffer ipDgram.header.pseudoCksum = .ok (.noError, tcpSeg))
    (hdport : tcpSeg.header.dport = a.config.source.port)
    (hsport : tcpSeg.header.sport = a.config.destination.port) :
    unwrapTcpInIp ipDgram a = .ok (some tcpSeg) a := by
  have hbuffer : (ipDgram.payload.toBuffer >>= fun buffer =>
      TCPSegment.parse {} buffer ipDgram.header.pseudoCksum) = .ok (.noError, tcpSeg) := by
    rw [hpayload]
    exact hparse
  rw [unwrapTcpInIp_eq, if_neg (fun h => h.2 hdst), if_neg (fun h => h.2 hsrc),
    if_neg (not_not.mpr hproto), hbuffer]
  simp only
  rw [if_neg (not_not.mpr rfl), if_neg (not_not.mpr hdport), if_neg (by rw [hlisten]; decide),
    if_neg (not_not.mpr hsport)]

theorem datagramHeader_encodable (a : TCPOverIPv4Adapter) (seg : TCPSegment) :
    (a.datagramHeader seg).Encodable :=
  ⟨rfl, (by decide : 5 ≤ (5 : UInt8).toNat), (by decide : (5 : UInt8).toNat ≤ 15),
    (by decide : (0 : UInt16).toNat < 2 ^ 13)⟩

/-- The length that the datagram header announces. -/
theorem datagramHeader_len (a : TCPOverIPv4Adapter) {seg : TCPSegment}
    (h : 20 + 4 * seg.header.doff.toNat + seg.payload.length ≤ 65535) :
    (a.datagramHeader seg).len.toNat =
      20 + (4 * seg.header.doff.toNat + seg.payload.length) := by
  show (UInt16.ofNat (20 + seg.header.doff.toNat * 4 + seg.payload.length)).toNat = _
  rw [UInt16.toNat_ofNat_of_lt' (by simp only [UInt16.size]; omega)]
  omega

/-- **A segment survives its way through a datagram.**  Between two adapters whose
configurations mirror each other the payload and the header arrive as they were sent, apart from
the checksum, with the ports of the connection. -/
theorem tcp_in_ip_round_trip (a b : TCPOverIPv4Adapter) (seg : TCPSegment) (old : IPv4Datagram)
    (hlisten : b.listening = false) (hsource : a.config.source = b.config.destination)
    (hdestination : a.config.destination = b.config.source)
    (hdoff : 5 ≤ seg.header.doff.toNat ∧ seg.header.doff.toNat ≤ 15)
    (hsize : 20 + 4 * seg.header.doff.toNat + seg.payload.length ≤ 65535) :
    ∃ dgram seg' out dgram' got,
      a.wrapTcpInIp seg = .ok (dgram, seg') ∧ dgram.serialize = .ok out ∧
      old.parse out.concatenate = .ok (.noError, dgram') ∧
      unwrapTcpInIp dgram' b = .ok (some got) b ∧ got.payload = seg.payload ∧
      got.header.setCksum seg.header.cksum = { seg.header with
        sport := a.config.source.port, dport := a.config.destination.port } := by
  have henc : (a.setPorts seg).header.Encodable := ⟨hdoff.1, hdoff.2⟩
  obtain ⟨cksum, hser, hparse⟩ := TCPSegment.parse_serialize henc (by
    show 4 * seg.header.doff.toNat + seg.payload.length ≤ 65535
    omega) ((a.datagramHeader (a.setPorts seg)).pseudoCksum_lt.trans (by decide)) {}
  obtain ⟨bytes, hbytes⟩ : ∃ bytes, bytes = ((a.setPorts seg).header.setCksum cksum).bytes :=
    ⟨_, rfl⟩
  rw [← hbytes] at hser hparse
  have hlength : bytes.length = 4 * seg.header.doff.toNat := by
    rw [hbytes]
    exact TCPHeader.Encodable.length_bytes ⟨hdoff.1, hdoff.2⟩
  have hlen : (a.datagramHeader (a.setPorts seg)).len.toNat =
      4 * 5 + (BufferList.concatenate [bytes, seg.payload]).length := by
    refine (datagramHeader_len a hsize).trans ?_
    simp [BufferList.concatenate, hlength]
  obtain ⟨dgram, hdgram⟩ : ∃ dgram : IPv4Datagram,
    dgram = ⟨a.datagramHeader (a.setPorts seg), [bytes, seg.payload]⟩ := ⟨_, rfl⟩
  obtain ⟨out, cksum', hout, hread⟩ := IPv4Datagram.parse_serialize
    (show dgram.header.Encodable by rw [hdgram]; exact datagramHeader_encodable a _)
    (by rw [hdgram]; exact hlen) old
  have hwrap : a.wrapTcpInIp seg = .ok (dgram, a.setPorts seg) := by
    rw [wrapTcpInIp, hser, hdgram]
    rfl
  have hjoin : dgram.payload.concatenate = bytes ++ seg.payload := by
    rw [hdgram]
    simp [BufferList.concatenate]
  subst hdgram
  exact ⟨_, _, out, _, ⟨(a.setPorts seg).header.setCksum cksum, seg.payload⟩, hwrap, hout, hread,
    unwrapTcpInIp_some hlisten (congrArg Address.ipv4Numeric hdestination)
      (congrArg Address.ipv4Numeric hsource) rfl (congrArg (fun buffer => [buffer]) hjoin) hparse
      (congrArg Address.port hdestination) (congrArg Address.port hsource), rfl, rfl⟩

/-- A data segment with options between two adapters. -/
theorem tcp_in_ip_round_trip_options :
    ∃ dgram seg' out dgram' got,
      wrapTcpInIp ⟨{ source := ⟨1, 10⟩, destination := ⟨2, 20⟩ }, false⟩
          { header := { doff := 6 }, payload := [97] } =
        .ok (dgram, seg') ∧ dgram.serialize = .ok out ∧
      IPv4Datagram.parse {} out.concatenate = .ok (.noError, dgram') ∧
      unwrapTcpInIp dgram' ⟨{ source := ⟨2, 20⟩, destination := ⟨1, 10⟩ }, false⟩ =
        .ok (some got) ⟨{ source := ⟨2, 20⟩, destination := ⟨1, 10⟩ }, false⟩ ∧ got.payload = [97] ∧
      got.header.setCksum 0 = { doff := 6, sport := 10, dport := 20 } :=
  tcp_in_ip_round_trip ⟨{ source := ⟨1, 10⟩, destination := ⟨2, 20⟩ }, false⟩
    ⟨{ source := ⟨2, 20⟩, destination := ⟨1, 10⟩ }, false⟩
    { header := { doff := 6 }, payload := [97] } {} rfl rfl rfl (by decide) (by decide)

/-! ### One peer for the whole life of an adapter -/

/-- The segment came in a datagram between the two ends of the configuration, and carries their
ports. -/
structure Between (a : TCPOverIPv4Adapter) (e : InternetDatagram × TCPSegment) : Prop where
  dst : e.1.header.dst = a.config.source.ipv4Numeric
  src : e.1.header.src = a.config.destination.ipv4Numeric
  dport : e.2.header.dport = a.config.source.port
  sport : e.2.header.sport = a.config.destination.port

/-- Two segments came between the same addresses and the same ports. -/
structure SameEnds (e e' : InternetDatagram × TCPSegment) : Prop where
  dst : e'.1.header.dst = e.1.header.dst
  src : e'.1.header.src = e.1.header.src
  dport : e'.2.header.dport = e.2.header.dport
  sport : e'.2.header.sport = e.2.header.sport

theorem Between.sameEnds {a : TCPOverIPv4Adapter} {e e' : InternetDatagram × TCPSegment}
    (h : a.Between e) (h' : a.Between e') : SameEnds e e' :=
  ⟨h'.dst.trans h.dst.symm, h'.src.trans h.src.symm, h'.dport.trans h.dport.symm,
    h'.sport.trans h.sport.symm⟩

/-- **The ways a call can end.**  It throws or returns nothing and leaves the adapter alone, or it
returns a segment between the two ends of the configuration it leaves; a listening adapter takes
only a SYN without RST, and only a listening adapter changes.  The loss rates stay. -/
theorem unwrapTcpInIp_cases (ipDgram : InternetDatagram) (a : TCPOverIPv4Adapter) :
    (∃ e, unwrapTcpInIp ipDgram a = .error e a ∧ ipDgram.payload.toBuffer = .error e) ∨
      unwrapTcpInIp ipDgram a = .ok none a ∨
      ∃ tcpSeg a', unwrapTcpInIp ipDgram a = .ok (some tcpSeg) a' ∧ a'.listening = false ∧
        a'.Between (ipDgram, tcpSeg) ∧ a'.config.rates = a.config.rates ∧
        if a.listening then tcpSeg.header.syn = true ∧ tcpSeg.header.rst = false else a' = a := by
  -- the tests are split in the equation for the outcome, which stands three times in the goal
  obtain ⟨out, hout⟩ : ∃ out, unwrapTcpInIp ipDgram a = out := ⟨_, rfl⟩
  rw [hout]
  rw [unwrapTcpInIp_eq] at hout
  split at hout
  · exact Or.inr (Or.inl hout.symm)
  rename_i hdst
  split at hout
  · exact Or.inr (Or.inl hout.symm)
  rename_i hsrc
  split at hout
  · exact Or.inr (Or.inl hout.symm)
  cases hparse : ipDgram.payload.toBuffer >>= fun buffer =>
      TCPSegment.parse {} buffer ipDgram.header.pseudoCksum with
  | error e =>
    rw [hparse] at hout
    exact Or.inl ⟨e, hout.symm, NetworkInterface.toBuffer_error
      (fun b => TCPSegment.parse_ok {} b _) hparse⟩
  | ok r =>
    obtain ⟨res, tcpSeg⟩ := r
    rw [hparse] at hout
    simp only at hout
    split at hout
    · exact Or.inr (Or.inl hout.symm)
    split at hout
    · exact Or.inr (Or.inl hout.symm)
    rename_i hdport
    by_cases hlisten : a.listening = true
    · rw [if_pos hlisten] at hout
      split at hout
      · rename_i hsyn
        refine Or.inr (Or.inr ⟨tcpSeg, _, hout.symm, rfl, ⟨rfl, rfl, not_not.mp hdport, rfl⟩,
          rfl, ?_⟩)
        rw [if_pos hlisten]
        simpa using hsyn
      · exact Or.inr (Or.inl hout.symm)
    · rw [if_neg hlisten] at hout
      split at hout
      · exact Or.inr (Or.inl hout.symm)
      · rename_i hsport
        refine Or.inr (Or.inr ⟨tcpSeg, a, hout.symm, by simpa using hlisten,
          ⟨?_, ?_, not_not.mp hdport, not_not.mp hsport⟩, rfl, ?_⟩)
        · exact not_not.mp fun hne => hdst ⟨hlisten, hne⟩
        · exact not_not.mp fun hne => hsrc ⟨hlisten, hne⟩
        · rw [if_neg hlisten]

/-- An adapter and the segments it has returned, each with its datagram. -/
structure AdapterTrace where
  adapter : TCPOverIPv4Adapter
  returned : List (InternetDatagram × TCPSegment) := []

/-- The segments a call returns. -/
def returns (ipDgram : InternetDatagram) (a : TCPOverIPv4Adapter) :
    List (InternetDatagram × TCPSegment) :=
  match unwrapTcpInIp ipDgram a with
  | .ok (some tcpSeg) _ => [(ipDgram, tcpSeg)]
  | _ => []

def AdapterTrace.step (t : AdapterTrace) (ipDgram : InternetDatagram) : AdapterTrace :=
  { adapter := after (unwrapTcpInIp ipDgram) t.adapter
    returned := t.returned ++ returns ipDgram t.adapter }

/-- Either the adapter still listens, or it is bound to the ends of its first segment. -/
def Bound (t : AdapterTrace) : Prop :=
  (t.adapter.listening = true ∧ t.returned = []) ∨
    (t.adapter.listening = false ∧ (∀ e ∈ t.returned, t.adapter.Between e) ∧
      ∃ first rest, t.returned = first :: rest ∧ first.2.header.syn = true ∧
        first.2.header.rst = false)

theorem Bound.step {t : AdapterTrace} (h : Bound t) (ipDgram : InternetDatagram) :
    Bound (t.step ipDgram) := by
  unfold AdapterTrace.step returns
  rcases unwrapTcpInIp_cases ipDgram t.adapter with ⟨e, hcall, _⟩ | hcall | ⟨seg, a', hcall, hrest⟩
  · rw [after_error hcall, hcall]
    simpa using h
  · rw [after_ok hcall, hcall]
    simpa using h
  · obtain ⟨hlisten, hbetween, -, hmode⟩ := hrest
    rw [after_ok hcall, hcall]
    simp only
    rcases h with ⟨hlisten', hnil⟩ | ⟨hlisten', hall, first, rest, hreturned, hsyn, hrst⟩
    · rw [if_pos hlisten'] at hmode
      refine Or.inr ⟨hlisten, ?_, (ipDgram, seg), [], by rw [hnil]; rfl, hmode.1, hmode.2⟩
      simpa [hnil] using hbetween
    · rw [if_neg (by simp [hlisten'])] at hmode
      subst hmode
      refine Or.inr ⟨hlisten, ?_, first, rest ++ [(ipDgram, seg)], by rw [hreturned]; rfl, hsyn,
        hrst⟩
      intro e he
      rcases List.mem_append.mp he with hold | hnew
      · exact hall e hold
      · rw [List.mem_singleton.mp hnew]
        exact hbetween

/-- **An adapter serves one peer.**  However an adapter that starts to listen is configured and
whatever datagrams it gets: the first segment it returns is a SYN without RST, all others came
between the same addresses and ports, and a call that returns nothing changes nothing. -/
theorem adapter_isolates (cfg : FdAdapterConfig) (dgrams : List InternetDatagram) :
    let t := run AdapterTrace.step { adapter := { cfg, listen := true } } dgrams
    (∀ first rest, t.returned = first :: rest →
      first.2.header.syn = true ∧ first.2.header.rst = false ∧
        ∀ e ∈ t.returned, SameEnds first e) ∧
    ∀ ipDgram a', unwrapTcpInIp ipDgram t.adapter = .ok none a' →
      a'.config = t.adapter.config ∧ a'.listening = t.adapter.listening := by
  intro t
  have hbound : Bound t :=
    run_invariant_of_step (I := Bound) (fun _ d h => h.step d) (Or.inl ⟨rfl, rfl⟩) dgrams
  refine ⟨fun first rest hfirst => ?_, fun ipDgram a' hempty => ?_⟩
  · rcases hbound with ⟨_, hnil⟩ | ⟨_, hall, first', rest', hreturned, hsyn, hrst⟩
    · rw [hnil] at hfirst
      cases hfirst
    · obtain ⟨rfl, rfl⟩ := List.cons.inj (hfirst.symm.trans hreturned)
      have hmem : first ∈ t.returned := hfirst ▸ List.mem_cons_self
      exact ⟨hsyn, hrst, fun e he => (hall first hmem).sameEnds (hall e he)⟩
  · rcases unwrapTcpInIp_cases ipDgram t.adapter with ⟨e, hcall, _⟩ | hcall | ⟨_, _, hcall, _⟩
    · rw [hcall] at hempty
      cases hempty
    · rw [hcall] at hempty
      cases hempty
      exact ⟨rfl, rfl⟩
    · rw [hcall] at hempty
      cases hempty

end TCPOverIPv4Adapter

end Sponge
