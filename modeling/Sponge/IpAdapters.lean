import Sponge.FdAdapter
import Sponge.RoutedNetwork

/-!
# TCP in IP over a TUN device

The adapter wraps a segment in a datagram and hands the datagram to the kernel.  `packetsIn` and
`packetsOut` record what was read and what was handed over, and are read by no function.

`IpTracks` says what every adapter that wraps segments in datagrams keeps: a segment that was taken
came in a datagram from the peer, and a datagram that went out can only be read as a segment that
was given.
-/

namespace Sponge

open Throwing Hoare MachineInt

/-- A call of the network layer that changes a state. -/
def ofCall {σ α : Type} (m : Call σ α) : SysCall σ α := fun s =>
  match m s with
  | .ok a s' => .ok a s'
  | .error e s' => .error (.network e) s'

/-- A listening adapter takes the addresses of its peer, and keeps its loss rates. -/
theorem rates_unwrapTcpInIp (rates : UInt16 × UInt16) (dgram : InternetDatagram) :
    Keeps (fun base => base.config.rates = rates)
      (ofCall (TCPOverIPv4Adapter.unwrapTcpInIp dgram)) := by
  intro base h
  rcases TCPOverIPv4Adapter.unwrapTcpInIp_cases dgram base with
    ⟨e, hcall, -⟩ | hcall | ⟨seg, base', hcall, -, -, hrates, -⟩
  · exact thrown (by rw [ofCall, hcall]) h
  · exact returned (by rw [ofCall, hcall]) h
  · exact returned (by rw [ofCall, hcall]) (hrates.trans h)

/-! ### A datagram and its segment -/

/-- A parsed datagram has its payload in one piece. -/
theorem IPv4Datagram.payload_of_parse {bytes : Buffer} {res : ParseResult}
    {dgram : InternetDatagram} (h : IPv4Datagram.parse {} bytes = .ok (res, dgram)) :
    ∃ b, dgram.payload = [b] := by
  have hsafe := IPv4Header.safe_parse ({} : IPv4Datagram).header { buffer := bytes }
  obtain ⟨⟨r, header⟩, p, hp⟩ := hsafe
  rw [IPv4Datagram.parse, hp] at h
  simp only at h
  split at h <;> cases h <;> exact ⟨_, rfl⟩

/-- The datagram holds the segment. -/
def Extracts (dgram : InternetDatagram) (seg : TCPSegment) : Prop :=
  TCPSegment.parse {} dgram.payload.concatenate dgram.header.pseudoCksum = .ok (.noError, seg)

/-- What comes out of the datagram is the segment, up to the fields that change on the way. -/
def ReadAs (dgram : InternetDatagram) (seg : TCPSegment) : Prop :=
  ∀ got, Extracts dgram got → SameData got seg

/-- The datagram was made for the segment, and can be serialized. -/
structure Wraps (dgram : InternetDatagram) (seg : TCPSegment) : Prop where
  writable : dgram.Writable
  fields : dgram.header.InFields
  short : dgram.payload.concatenate.length < 2 ^ 16
  read : ReadAs dgram seg

/-- Routers do not touch what TCP looks at. -/
theorem ReadAs.forwarded {dgram dgram' : InternetDatagram} {seg : TCPSegment}
    (h : ReadAs dgram seg) {hops : ℕ} (hf : IPv4Datagram.Forwarded hops dgram dgram') :
    ReadAs dgram' seg := by
  obtain ⟨ttl, cksum, hheader⟩ := hf.header
  intro got hgot
  rw [Extracts, hf.payload, hheader] at hgot
  exact h got hgot

namespace TCPOverIPv4Adapter

variable {a a' : TCPOverIPv4Adapter} {seg : TCPSegment} {ipDgram : InternetDatagram}

/-- **A segment of a connection can be wrapped**, and the datagram serialized. -/
theorem wrapTcpInIp_of_compact (h : seg.Compact) (a : TCPOverIPv4Adapter) :
    ∃ dgram, a.wrapTcpInIp seg = .ok (dgram, a.setPorts seg) ∧ Wraps dgram seg := by
  have hports : (a.setPorts seg).Compact := ⟨h.doff, h.payload⟩
  have hsize := hports.size_le
  have hencodable := datagramHeader_encodable a (a.setPorts seg)
  obtain ⟨cksum, hser, hparse⟩ := TCPSegment.parse_serialize hports.encodable
    (hsize.trans (by decide))
    ((a.datagramHeader (a.setPorts seg)).pseudoCksum_lt.trans (by decide)) {}
  have hlength := TCPSegment.length_bytesWith hports.encodable cksum
  rw [TCPSegment.bytesWith, List.length_append] at hlength
  have hjoin : BufferList.concatenate [((a.setPorts seg).header.setCksum cksum).bytes,
      seg.payload] = ((a.setPorts seg).header.setCksum cksum).bytes ++ seg.payload := by
    simp [BufferList.concatenate]
  have hshort : (((a.setPorts seg).header.setCksum cksum).bytes ++ seg.payload).length <
      2 ^ 16 := by
    rw [List.length_append]
    show _ + (a.setPorts seg).payload.length < _
    omega
  refine ⟨⟨a.datagramHeader (a.setPorts seg),
    [((a.setPorts seg).header.setCksum cksum).bytes, seg.payload]⟩, ?_, ?_, ?_, ?_, ?_⟩
  · rw [wrapTcpInIp, hser]
    rfl
  · refine ⟨?_, hencodable.ver, hencodable.hlen_ge⟩
    have hfits : 20 + 4 * (a.setPorts seg).header.doff.toNat + (a.setPorts seg).payload.length ≤
        65535 := by
      omega
    have hlen := datagramHeader_len a hfits
    have hpayload : (a.datagramHeader (a.setPorts seg)).payloadLength.toNat =
        4 * (a.setPorts seg).header.doff.toNat + (a.setPorts seg).payload.length :=
      hencodable.payloadLength_eq hlen
    show BufferList.size _ = _
    rw [hpayload, ← hlength, BufferList.size_of_lt (by rw [hjoin]; exact hshort.trans (by decide)),
      hjoin, List.length_append]
    rfl
  · exact ⟨hencodable.hlen_le, hencodable.offset⟩
  · show (BufferList.concatenate _).length < _
    rw [hjoin]
    exact hshort
  · intro got hgot
    rw [Extracts, hjoin] at hgot
    have hgot := hgot.symm.trans hparse
    cases hgot
    exact ⟨rfl, rfl, rfl, rfl⟩

/-- A segment is returned only if the datagram holds it. -/
theorem extracts_of_unwrap {b : Buffer} (hpayload : ipDgram.payload = [b])
    (h : unwrapTcpInIp ipDgram a = .ok (some seg) a') : Extracts ipDgram seg := by
  have hone : BufferList.concatenate [b] = b := by simp [BufferList.concatenate]
  rw [Extracts, hpayload, hone]
  rw [unwrapTcpInIp_eq, hpayload] at h
  split at h
  · cases h
  split at h
  · cases h
  split at h
  · cases h
  have hbuffer : (BufferList.toBuffer [b] >>= fun buffer =>
      TCPSegment.parse {} buffer ipDgram.header.pseudoCksum) =
        TCPSegment.parse {} b ipDgram.header.pseudoCksum := rfl
  rw [hbuffer] at h
  cases hparse : TCPSegment.parse {} b ipDgram.header.pseudoCksum with
  | error e =>
    rw [hparse] at h
    cases h
  | ok r =>
    obtain ⟨res, got⟩ := r
    rw [hparse] at h
    simp only at h
    split at h
    · cases h
    rename_i hres
    have hgot : got = seg := by
      split at h
      · cases h
      split at h
      · split at h
        · cases h
          rfl
        · cases h
      split at h
      · cases h
      · cases h
        rfl
    rw [not_not.mp hres, hgot]

end TCPOverIPv4Adapter

/-- The segments taken came in datagrams from the peer, and none came while the adapter listens;
the datagrams that went out carry the segments given. -/
structure IpTracks (base : TCPOverIPv4Adapter) (came went : InternetDatagram → Prop)
    (taken given : List TCPSegment) : Prop where
  fresh : base.listening = true → taken = []
  heard : ∀ seg ∈ taken, ∃ dgram, came dgram ∧
    dgram.header.src = base.config.destination.ipv4Numeric ∧ Extracts dgram seg
  told : ∀ dgram, went dgram → ∃ seg ∈ given, ReadAs dgram seg

section IpTracks

variable {base : TCPOverIPv4Adapter} {came went came' went' : InternetDatagram → Prop}
  {taken given : List TCPSegment}

theorem IpTracks.came_mono (h : IpTracks base came went taken given)
    (hcame : ∀ dgram, came dgram → came' dgram) : IpTracks base came' went taken given where
  fresh := h.fresh
  heard seg hseg := by
    obtain ⟨dgram, hdgram, hheard⟩ := h.heard seg hseg
    exact ⟨dgram, hcame dgram hdgram, hheard⟩
  told := h.told

/-- More is given, and what goes out besides carries one of the segments given. -/
theorem IpTracks.went_mono (h : IpTracks base came went taken given) {given' : List TCPSegment}
    (hgiven : given ⊆ given')
    (hwent : ∀ dgram, went' dgram → went dgram ∨ ∃ seg ∈ given', ReadAs dgram seg) :
    IpTracks base came went' taken given' where
  fresh := h.fresh
  heard := h.heard
  told dgram hdgram := by
    rcases hwent dgram hdgram with hold | hnew
    · obtain ⟨seg, hseg, hread⟩ := h.told dgram hold
      exact ⟨seg, hgiven hseg, hread⟩
    · exact hnew

/-- **What the adapter makes of a datagram that has come in.** -/
theorem ipTracks_unwrap {dgram : InternetDatagram} {b : Buffer} (hpayload : dgram.payload = [b])
    (hcame : came dgram) :
    Triple (fun base => IpTracks base came went taken given)
      (ofCall (TCPOverIPv4Adapter.unwrapTcpInIp dgram))
      (fun ret base => IpTracks base came went (taken ++ ret.toList) given)
      fun _ _ => False := by
  intro base h
  rcases TCPOverIPv4Adapter.unwrapTcpInIp_cases dgram base with
    ⟨e, -, hbuffer⟩ | hcall | ⟨seg, base', hcall, hlisten, hbetween, -, hmode⟩
  · rw [hpayload] at hbuffer
    cases hbuffer
  · have hcall : ofCall (TCPOverIPv4Adapter.unwrapTcpInIp dgram) base =
        .ok none base := by
      rw [ofCall, hcall]
    refine returned hcall ?_
    rw [Option.toList_none, List.append_nil]
    exact h
  · have hextracts := TCPOverIPv4Adapter.extracts_of_unwrap hpayload hcall
    have hcall : ofCall (TCPOverIPv4Adapter.unwrapTcpInIp dgram) base =
        .ok (some seg) base' := by
      rw [ofCall, hcall]
    refine returned hcall ⟨?_, ?_, h.told⟩
    · rw [hlisten]
      simp
    · intro seg' hseg'
      rcases List.mem_append.mp hseg' with hold | hnew
      · -- an adapter that has taken a segment does not listen, and stays as it is
        split at hmode
        · rename_i hwas
          rw [h.fresh hwas] at hold
          cases hold
        · rw [hmode]
          exact h.heard seg' hold
      · rw [Option.toList_some, List.mem_singleton] at hnew
        rw [hnew]
        exact ⟨dgram, hcame, hbetween.src, hextracts⟩

end IpTracks

/-! ### Over a TUN device -/

structure TCPOverIPv4OverTunFdAdapter where
  base : TCPOverIPv4Adapter := {}
  tun : FileDescriptor := {}
  packetsIn : List Buffer := []
  packetsOut : List Buffer := []

namespace TCPOverIPv4OverTunFdAdapter

def setBase (a : TCPOverIPv4OverTunFdAdapter) (base : TCPOverIPv4Adapter) :
    TCPOverIPv4OverTunFdAdapter := { a with base }

def onBase {β : Type} (m : Call TCPOverIPv4Adapter β) : SysCall TCPOverIPv4OverTunFdAdapter β :=
  zoom base setBase (ofCall m)

def setTun (a : TCPOverIPv4OverTunFdAdapter) (tun : FileDescriptor) :
    TCPOverIPv4OverTunFdAdapter := { a with tun }

def onTun {β : Type} (m : SysCall FileDescriptor β) : SysCall TCPOverIPv4OverTunFdAdapter β :=
  zoom tun setTun m

/-- A packet was read. -/
def took (bytes : Buffer) (a : TCPOverIPv4OverTunFdAdapter) : TCPOverIPv4OverTunFdAdapter :=
  { a with packetsIn := a.packetsIn ++ [bytes] }

/-- A packet is handed to the kernel. -/
def emit (bytes : Buffer) (a : TCPOverIPv4OverTunFdAdapter) : TCPOverIPv4OverTunFdAdapter :=
  { a with packetsOut := a.packetsOut ++ [bytes] }

def read : SysCall TCPOverIPv4OverTunFdAdapter (Option TCPSegment) := do
  let bytes ← onTun (FileDescriptor.read FileDescriptor.NO_LIMIT)
  modify (took bytes)
  let (res, ipDgram) ← ofNetwork (IPv4Datagram.parse {} bytes)
  if res ≠ .noError then return none
  else onBase (TCPOverIPv4Adapter.unwrapTcpInIp ipDgram)

def write (seg : TCPSegment) : SysCall TCPOverIPv4OverTunFdAdapter Unit := do
  let a ← get
  let (ipDgram, _) ← ofNetwork (a.base.wrapTcpInIp seg)
  let out ← ofNetwork ipDgram.serialize
  modify (emit out.concatenate)
  let _ ← onTun (FileDescriptor.write out true)
  return ()

section Rates

variable (rates : UInt16 × UInt16)

theorem rates_onTun {β : Type} (m : SysCall FileDescriptor β) :
    Keeps (fun a => a.base.config.rates = rates) (onTun m) := by
  apply keeps_zoom
  intro a tun h
  exact h

theorem rates_read : Keeps (fun a => a.base.config.rates = rates) read := by
  apply Keeps.bind (rates_onTun rates _)
  intro bytes
  apply Keeps.bind
  · apply triple_modify
    exact fun _ h => h
  intro _
  apply Keeps.bind (keeps_ofNetwork _)
  intro parsed
  apply Keeps.ite (keeps_pure none)
  apply Triple.zoom (rates_unwrapTcpInIp rates parsed.2)
  · exact fun _ => id
  · exact fun _ _ _ _ => id
  · exact fun _ _ _ _ => id

theorem rates_write (seg : TCPSegment) :
    Keeps (fun a => a.base.config.rates = rates) (write seg) := by
  apply Keeps.get_bind
  intro a _
  apply Keeps.bind (keeps_ofNetwork _)
  intro wrapped
  apply Keeps.bind (keeps_ofNetwork _)
  intro out
  apply Keeps.bind
  · apply triple_modify
    exact fun _ h => h
  intro _
  apply Keeps.bind (rates_onTun rates _)
  intro _
  exact keeps_pure ()

end Rates

def adapter : FdAdapter TCPOverIPv4OverTunFdAdapter where
  fd a := a.tun
  config a := a.base.config
  read := read
  write := write
  tick _ := pure ()
  configure cfg a := a.setBase { a.base with cfg }
  setListening l a := a.setBase { a.base with listen := l }
  readRates := rates_read
  writeRates := rates_write
  tickRates _ _ := keeps_pure ()

/-- The datagrams that were read. -/
def Came (a : TCPOverIPv4OverTunFdAdapter) (dgram : InternetDatagram) : Prop :=
  ∃ bytes ∈ a.packetsIn, IPv4Datagram.parse {} bytes = .ok (.noError, dgram)

/-- The datagrams that were written. -/
def Went (a : TCPOverIPv4OverTunFdAdapter) (dgram : InternetDatagram) : Prop :=
  ∃ bytes ∈ a.packetsOut, IPv4Datagram.parse {} bytes = .ok (.noError, dgram)

def Tracks (a : TCPOverIPv4OverTunFdAdapter) (taken given : List TCPSegment) : Prop :=
  IpTracks a.base a.Came a.Went taken given

variable {taken given : List TCPSegment} {a : TCPOverIPv4OverTunFdAdapter}

theorem Tracks.took (h : a.Tracks taken given) (bytes : Buffer) :
    (a.took bytes).Tracks taken given := by
  apply IpTracks.came_mono h
  rintro dgram ⟨b, hb, hparse⟩
  exact ⟨b, List.mem_append_left _ hb, hparse⟩

/-- A read keeps the relation and is counted. -/
theorem tracks_read (taken given : List TCPSegment) (count : UInt32) :
    Triple (fun a => a.Tracks taken given ∧ a.tun.readCount = count) read
      (fun ret a => a.Tracks (taken ++ ret.toList) given ∧ a.tun.readCount = count + 1)
      fun e a => KernelFault e ∧ a.Tracks taken given := by
  apply Triple.bind (Q := fun _ a => a.Tracks taken given ∧ a.tun.readCount = count + 1)
  · apply Triple.zoom (FileDescriptor.read_counts FileDescriptor.NO_LIMIT count)
    · exact fun _ h => h.2
    · exact fun _ _ _ h hcount => ⟨h.1, hcount⟩
    · exact fun _ _ _ h he => ⟨he, h.1⟩
  intro bytes
  apply Triple.bind
    (Q := fun _ a => (a.Tracks taken given ∧ bytes ∈ a.packetsIn) ∧ a.tun.readCount = count + 1)
  · apply triple_modify
    intro a h
    exact ⟨⟨h.1.took bytes, List.mem_append_right _ List.mem_cons_self⟩, h.2⟩
  intro _
  obtain ⟨⟨res, dgram⟩, hparse⟩ := IPv4Datagram.parse_ok {} bytes
  rw [ofNetwork_ok hparse]
  apply Triple.ite
  · intro _
    apply triple_pure
    intro a h
    rw [Option.toList_none, List.append_nil]
    exact ⟨h.1.1, h.2⟩
  · intro hres a h
    rw [not_not.mp hres] at hparse
    obtain ⟨b, hb⟩ := IPv4Datagram.payload_of_parse hparse
    have hcame : a.Came dgram := ⟨bytes, h.1.2, hparse⟩
    have hunwrap : Triple (fun a' => a' = a) (onBase (TCPOverIPv4Adapter.unwrapTcpInIp dgram))
        (fun ret a => a.Tracks (taken ++ ret.toList) given ∧ a.tun.readCount = count + 1)
        fun e a => KernelFault e ∧ a.Tracks taken given := by
      apply Triple.zoom (ipTracks_unwrap hb hcame)
      · rintro _ rfl
        exact h.1.1
      · rintro _ _ _ rfl htracks
        exact ⟨htracks, h.2⟩
      · exact fun _ _ _ _ hno => hno.elim
    exact hunwrap a rfl

theorem Tracks.give (h : a.Tracks taken given) {seg : TCPSegment} {dgram : InternetDatagram}
    (hwraps : Wraps dgram seg) {out : BufferList} (hser : dgram.serialize = .ok out) :
    (a.emit out.concatenate).Tracks taken (given ++ [seg]) := by
  apply IpTracks.went_mono h (List.subset_append_left _ _)
  rintro dgram' ⟨bytes, hbytes, hparse⟩
  rcases List.mem_append.mp hbytes with hold | hnew
  · exact Or.inl ⟨bytes, hold, hparse⟩
  · rw [List.mem_singleton.mp hnew] at hparse
    have hforwarded := (IPv4Datagram.Forwarded.refl dgram).reread hwraps.fields hser hparse
    exact Or.inr ⟨seg, List.mem_append_right _ List.mem_cons_self,
      hwraps.read.forwarded hforwarded⟩

theorem tracks_write (taken given : List TCPSegment) {seg : TCPSegment} (hseg : seg.Compact) :
    Triple (fun a => a.Tracks taken given) (write seg)
      (fun _ a => a.Tracks taken (given ++ [seg]))
      fun e a => KernelFault e ∧ a.Tracks taken (given ++ [seg]) := by
  apply triple_get_bind
  intro a
  obtain ⟨dgram, hwrap, hwraps⟩ := a.base.wrapTcpInIp_of_compact hseg
  obtain ⟨out, hser⟩ := (IPv4Datagram.serializable_iff dgram).mpr hwraps.writable
  rw [ofNetwork_ok hwrap]
  simp only
  rw [ofNetwork_ok hser]
  apply Triple.bind (Q := fun _ a => a.Tracks taken (given ++ [seg]))
  · apply triple_modify
    rintro _ ⟨rfl, h⟩
    exact h.give hwraps hser
  intro _
  have hsmall : out.flatten.length < 2 ^ 63 :=
    (IPv4Datagram.length_of_serialize hwraps.short hser).trans (by decide)
  apply Triple.bind (Q := fun _ a => a.Tracks taken (given ++ [seg]))
  · intro a h
    have hwrite : Triple (fun a' => a' = a) (onTun (FileDescriptor.write out true))
        (fun _ a => a.Tracks taken (given ++ [seg]))
        fun e a => KernelFault e ∧ a.Tracks taken (given ++ [seg]) := by
      apply Triple.zoom (FileDescriptor.write_counts hsmall a.tun.readCount)
      · rintro _ rfl
        rfl
      · rintro _ _ _ rfl _
        exact h
      · rintro _ _ _ rfl he
        exact ⟨he, h⟩
    exact hwrite a rfl
  · intro _
    exact triple_pure _ fun _ => id

theorem adapter_keeps : adapter.Keeps Tracks where
  read taken given a h := by
    have hread := tracks_read taken given a.tun.readCount a ⟨h, rfl⟩
    exact ⟨fun ret a' hok => (hread.1 ret a' hok).1, hread.2⟩
  write taken given _ hseg := tracks_write taken given hseg
  tick _ _ _ := triple_pure _ fun _ => id
  readCounts {a _ _ taken given} h hok := by
    have hread := (tracks_read taken given a.tun.readCount).ok ⟨h, rfl⟩ hok
    exact hread.2

end TCPOverIPv4OverTunFdAdapter

end Sponge
