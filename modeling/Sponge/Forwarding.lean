import Sponge.DatagramParse
import Sponge.Lib.Hoare
import Sponge.RouterSafety

/-!
# What interfaces and routers do to datagrams

`Forwarded` relates a datagram to what becomes of it on its way through some routers: each lowers
its TTL by one and computes the checksum of the header anew, and the rest stays as it was.

`CarriesOnly S` says that every datagram an interface or a router holds, or has put into a frame,
has the property `S`.  Every call keeps it, returning or throwing, if the datagrams that are passed
in have the property, and if a router's decrement does not lose it.
-/

namespace Sponge

open Throwing Hoare MachineInt Ipv4Order

/-! ### Serialized and read again -/

namespace IPv4Header

/-- The two fields that share bytes with others fit into their bits. -/
def InFields (header : IPv4Header) : Prop :=
  header.hlen.toNat ≤ 15 ∧ header.offset.toNat < 2 ^ 13

theorem inFields_fieldsOf (b : Buffer) : (fieldsOf b).InFields := by
  constructor
  · rw [fieldsOf_hlen, hlenNibble]
    omega
  · have hand : (fieldsOf b).offset.toNat =
        (UInt16.ofNat (NetParser.fieldAt b 6 2)).toNat % 2 ^ 13 := by
      simp only [fieldsOf, UInt16.toNat_and]
      exact Nat.and_two_pow_sub_one_eq_mod _ 13
    rw [hand]
    exact Nat.mod_lt _ (by decide)

theorem length_bytes {header : IPv4Header} (h : header.Encodable) :
    header.bytes.length = 4 * header.hlen.toNat := by
  have hge := h.hlen_ge
  simp only [bytes, List.length_append, length_fieldBytes, List.length_replicate, LENGTH]
  omega

theorem length_of_serialize {header : IPv4Header} {bytes : List UInt8}
    (h : header.serialize = .ok bytes) : bytes.length = 4 * header.hlen.toNat := by
  rw [serialize] at h
  split at h
  · cases h
  split at h
  · cases h
  · cases h
    exact List.takeD_length ..

/-- The fields of a header that was written. -/
theorem fieldsOf_bytes {header : IPv4Header} (h : header.Encodable) (rest : List UInt8) :
    fieldsOf (header.bytes ++ rest) = header := by
  have hlong : LENGTH ≤ (header.bytes ++ rest).length := by
    have hge := h.hlen_ge
    rw [List.length_append, length_bytes h, LENGTH]
    omega
  have hread : readFields { buffer := header.bytes ++ rest } =
      .ok (fieldsOf (header.bytes ++ rest)) { buffer := (header.bytes ++ rest).drop LENGTH } :=
    readsAt_readFields hlong
  have hwritten := h.reads_readFields
    (List.replicate (4 * header.hlen.toNat - LENGTH) 0 ++ rest)
  rw [← List.append_assoc, ← bytes, hread] at hwritten
  injection hwritten

/-- The checksum that `IPv4Datagram::serialize` writes: that of the header with a zero in its
place. -/
def newCksum (header : IPv4Header) : Except Exception UInt16 := do
  let headerZeroChecksum ← (header.setCksum 0).serialize
  return (InternetChecksum.add {} headerZeroChecksum).value

end IPv4Header

namespace IPv4Datagram

open IPv4Header (fieldsOf cutAt InFields)

/-- A parsed header fits, also when the object it was read into is used as it was. -/
theorem inFields_of_parse {b : Buffer} {res : ParseResult} {dgram : IPv4Datagram}
    (h : IPv4Datagram.parse {} b = .ok (res, dgram)) : dgram.header.InFields := by
  by_cases hshort : b.length < IPv4Header.LENGTH
  · rw [parse_of_header (IPv4Header.parse_short hshort _)] at h
    cases h
    show InFields {}
    exact ⟨by decide, by decide⟩
  · obtain ⟨r, hparse⟩ := IPv4Header.parse_long (not_lt.mp hshort) ({} : IPv4Datagram).header
    rw [parse_of_header hparse] at h
    cases h
    exact IPv4Header.inFields_fieldsOf b

/-- **A serialized datagram** is its payload behind its header, which has a new checksum. -/
theorem serialize_eq_ok_iff (dgram : IPv4Datagram) (out : BufferList) :
    dgram.serialize = .ok out ↔ dgram.Sized ∧ ∃ cksum headerOut,
      dgram.header.newCksum = .ok cksum ∧
        (dgram.header.setCksum cksum).serialize = .ok headerOut ∧
        out = headerOut :: dgram.payload := by
  rw [serialize, IPv4Header.newCksum, Sized]
  by_cases hsized : dgram.payload.size = dgram.header.payloadLength.toNat
  · rw [if_neg (not_not.mpr hsized), and_iff_right hsized]
    cases (dgram.header.setCksum 0).serialize with
    | error e =>
      constructor
      · intro h
        cases h
      · rintro ⟨_, _, hcksum, -⟩
        cases hcksum
    | ok zero =>
      obtain ⟨cksum, hvalue⟩ : ∃ cksum, cksum = (InternetChecksum.add {} zero).value := ⟨_, rfl⟩
      show (IPv4Header.serialize (dgram.header.setCksum (InternetChecksum.add {} zero).value) >>=
        fun headerOut => pure (headerOut :: dgram.payload)) = .ok out ↔
          ∃ cksum headerOut, Except.ok (InternetChecksum.add {} zero).value = .ok cksum ∧ _
      rw [← hvalue]
      cases hheader : (dgram.header.setCksum cksum).serialize with
      | error e =>
        constructor
        · intro h
          cases h
        · rintro ⟨_, _, ⟨⟩, hout, -⟩
          rw [hheader] at hout
          cases hout
      | ok headerOut =>
        constructor
        · intro h
          cases h
          exact ⟨cksum, headerOut, rfl, hheader, rfl⟩
        · rintro ⟨_, _, ⟨⟩, hout, rfl⟩
          rw [hheader] at hout
          cases hout
          rfl
  · rw [if_pos hsized]
    constructor
    · intro h
      cases h
    · intro h
      exact absurd h.1 hsized

theorem length_of_serialize {dgram : IPv4Datagram} {out : BufferList}
    (hshort : dgram.payload.concatenate.length < 2 ^ 16) (h : dgram.serialize = .ok out) :
    out.concatenate.length < 2 ^ 17 := by
  obtain ⟨-, cksum, headerOut, -, hheader, rfl⟩ := (serialize_eq_ok_iff dgram out).mp h
  have hlength := IPv4Header.length_of_serialize hheader
  have hhlen := (dgram.header.setCksum cksum).hlen.toNat_lt
  show (headerOut ++ dgram.payload.concatenate).length < 2 ^ 17
  rw [List.length_append, hlength]
  omega

/-- **What is read back from a serialized datagram**, also from one that should not have been
accepted when it was received: the same fields, with the checksum that was written, and the same
payload. -/
theorem parse_of_serialize {dgram dgram' old : IPv4Datagram} {out : BufferList}
    (hfields : dgram.header.InFields) (hser : dgram.serialize = .ok out)
    (hparse : old.parse out.concatenate = .ok (.noError, dgram')) :
    (∃ cksum, dgram.header.newCksum = .ok cksum ∧
        dgram'.header = dgram.header.setCksum cksum) ∧
      dgram'.payload.concatenate = dgram.payload.concatenate := by
  have hwritable := (serializable_iff dgram).mp ⟨out, hser⟩
  have hsized : dgram.payload.size = dgram.header.payloadLength.toNat := hwritable.sized
  obtain ⟨-, cksum, headerOut, hcksum, hheader, rfl⟩ := (serialize_eq_ok_iff dgram out).mp hser
  have henc : (dgram.header.setCksum cksum).Encodable :=
    ⟨hwritable.ver, hwritable.hlen, hfields.1, hfields.2⟩
  rw [henc.serialize_eq] at hheader
  cases hheader
  have hsize : (dgram.header.setCksum cksum).bytes.length = 4 * dgram.header.hlen.toNat :=
    IPv4Header.length_bytes henc
  have hfieldsOf := IPv4Header.fieldsOf_bytes henc dgram.payload.concatenate
  have hge := hwritable.hlen
  have hle := hfields.1
  obtain ⟨b, hb⟩ : ∃ b, b = (dgram.header.setCksum cksum).bytes ++ dgram.payload.concatenate :=
    ⟨_, rfl⟩
  have hlength : b.length = 4 * dgram.header.hlen.toNat + dgram.payload.concatenate.length := by
    rw [hb, List.length_append, hsize]
  have hparse : old.parse b = .ok (.noError, dgram') := by
    rw [hb]
    exact hparse
  obtain ⟨res, hread⟩ := IPv4Header.parse_long (b := b)
    (by rw [hlength, IPv4Header.LENGTH]; omega) old.header
  rw [← hb] at hfieldsOf
  rw [hfieldsOf] at hread
  rw [parse_of_header hread] at hparse
  -- the payload has the announced length only if the options were skipped
  have hcut : cutAt b = 4 * dgram.header.hlen.toNat := by
    by_contra hcut
    rw [cutAt] at hcut hparse
    split at hcut
    · rw [← IPv4Header.fieldsOf_hlen, hfieldsOf] at hcut
      exact hcut rfl
    · rename_i hpass
      have hannounced : (dgram.header.setCksum cksum).payloadLength = dgram.header.payloadLength :=
        rfl
      rw [if_neg hpass, if_neg ?_] at hparse
      · cases hparse
      · rw [List.length_drop, hlength, hannounced, ← hsized, BufferList.size_eq]
        simp only [IPv4Header.LENGTH, u64] at hcut ⊢
        omega
  rw [hcut, ← hsize, hb, List.drop_left] at hparse
  cases (Prod.mk.inj (Except.ok.inj hparse)).2
  exact ⟨⟨cksum, hcksum, rfl⟩, List.append_nil _⟩

/-- What is read back has the checksum of its header, and is written with the same bytes again. -/
theorem serialize_of_parse {dgram dgram' old : IPv4Datagram} {out : BufferList}
    (hfields : dgram.header.InFields) (hser : dgram.serialize = .ok out)
    (hparse : old.parse out.concatenate = .ok (.noError, dgram')) :
    dgram'.header.newCksum = .ok dgram'.header.cksum ∧
      ∃ out', dgram'.serialize = .ok out' ∧ out'.concatenate = out.concatenate := by
  obtain ⟨⟨cksum, hcksum, hheader⟩, hpayload⟩ := parse_of_serialize hfields hser hparse
  obtain ⟨hsized, cksum', headerOut, hcksum', hout, rfl⟩ := (serialize_eq_ok_iff dgram out).mp hser
  cases hcksum.symm.trans hcksum'
  have hnew : dgram'.header.newCksum = .ok cksum := by
    rw [hheader]
    exact hcksum
  have hsized' : dgram'.Sized := by
    rw [Sized, BufferList.size_eq, hpayload, ← BufferList.size_eq, hheader]
    exact hsized
  refine ⟨?_, headerOut :: dgram'.payload, ?_, ?_⟩
  · rw [hnew, hheader]
    rfl
  · apply (serialize_eq_ok_iff dgram' _).mpr
    refine ⟨hsized', cksum, headerOut, hnew, ?_, rfl⟩
    rw [hheader]
    exact hout
  · show headerOut ++ dgram'.payload.concatenate = headerOut ++ dgram.payload.concatenate
    rw [hpayload]

/-! ### Forwarded -/

/-- The second datagram is the first one behind `hops` routers. -/
structure Forwarded (hops : ℕ) (dgram dgram' : IPv4Datagram) : Prop where
  header : ∃ ttl cksum, dgram'.header = { dgram.header with ttl, cksum }
  ttl : dgram.header.ttl.toNat = dgram'.header.ttl.toNat + hops
  alive : 0 < hops → 0 < dgram'.header.ttl.toNat
  payload : dgram'.payload.concatenate = dgram.payload.concatenate

theorem Forwarded.refl (dgram : IPv4Datagram) : Forwarded 0 dgram dgram :=
  ⟨⟨_, _, rfl⟩, rfl, by simp, rfl⟩

theorem Forwarded.trans {hops hops' : ℕ} {d d' d'' : IPv4Datagram} (h : Forwarded hops d d')
    (h' : Forwarded hops' d' d'') : Forwarded (hops + hops') d d'' := by
  obtain ⟨ttl, cksum, hheader⟩ := h.header
  obtain ⟨ttl', cksum', hheader'⟩ := h'.header
  have httl := h.ttl
  have httl' := h'.ttl
  have halive := h.alive
  have halive' := h'.alive
  refine ⟨⟨ttl', cksum', ?_⟩, by omega, by omega, h'.payload.trans h.payload⟩
  rw [hheader', hheader]

/-- A router that does not drop the datagram. -/
theorem Forwarded.decremented {hops : ℕ} {d d' : IPv4Datagram} (h : Forwarded hops d d')
    (httl : ¬ d'.header.ttl ≤ 1) : Forwarded (hops + 1) d (Router.decremented d') := by
  have hlt : 1 < d'.header.ttl.toNat := by
    rw [UInt8.le_iff_toNat_le] at httl
    exact not_le.mp httl
  have hsub : (Router.decremented d').header.ttl.toNat = d'.header.ttl.toNat - 1 :=
    UInt8.toNat_sub_of_le _ _ (UInt8.le_iff_toNat_le.mpr hlt.le)
  exact h.trans ⟨⟨_, _, rfl⟩, by omega, by omega, rfl⟩

/-- The TTL is a byte, so that there is an end. -/
theorem Forwarded.hops_le {hops : ℕ} {d d' : IPv4Datagram} (h : Forwarded hops d d') :
    hops ≤ 254 := by
  have hlt := d.header.ttl.toNat_lt
  have httl := h.ttl
  have halive := h.alive
  omega

theorem Forwarded.reread {hops : ℕ} {d d' d'' old : IPv4Datagram} (h : Forwarded hops d d')
    (hfields : d'.header.InFields) {out : BufferList} (hser : d'.serialize = .ok out)
    (hparse : old.parse out.concatenate = .ok (.noError, d'')) : Forwarded hops d d'' := by
  obtain ⟨⟨cksum, -, hheader⟩, hpayload⟩ := parse_of_serialize hfields hser hparse
  have hsame : Forwarded 0 d' d'' := by
    refine ⟨⟨_, cksum, hheader⟩, ?_, by simp, hpayload⟩
    rw [hheader]
    rfl
  exact h.trans hsame

theorem Forwarded.inFields {hops : ℕ} {d d' : IPv4Datagram} (h : Forwarded hops d d')
    (hd : d.header.InFields) : d'.header.InFields := by
  obtain ⟨ttl, cksum, hheader⟩ := h.header
  rw [hheader]
  exact hd

end IPv4Datagram

/-! ### Interfaces -/

theorem ARPMessage.length_bytes (msg : ARPMessage) : msg.bytes.length = 28 := by
  simp [bytes, NetUnparser.ethernetAddress_eq, NetUnparser.u8, NetUnparser.u16, NetUnparser.u32]

namespace NetworkInterface

/-- Every datagram that waits for an address or is in a frame has the property. -/
structure CarriesOnly (S : InternetDatagram → Prop) (n : NetworkInterface) : Prop where
  held : ∀ e ∈ n.arpQueue, S e.1
  frames : ∀ frame ∈ n.framesOut, frame.header.type = EthernetHeader.TYPE_IPv4 →
    ∃ dgram, S dgram ∧ dgram.serialize = .ok frame.payload
  /-- The other frames are ARP messages. -/
  others : ∀ frame ∈ n.framesOut, frame.header.type ≠ EthernetHeader.TYPE_IPv4 →
    frame.payload.concatenate.length = 28

variable {S : InternetDatagram → Prop} {n n' : NetworkInterface} {dgram : InternetDatagram}
  {nextHop : Address}

theorem CarriesOnly.mono {S' : InternetDatagram → Prop} (h : n.CarriesOnly S)
    (hS : ∀ dgram, S dgram → S' dgram) : n.CarriesOnly S' where
  held e he := hS _ (h.held e he)
  frames frame hframe htype := by
    obtain ⟨dgram, hdgram, hser⟩ := h.frames frame hframe htype
    exact ⟨dgram, hS dgram hdgram, hser⟩
  others := h.others

theorem CarriesOnly.learn (h : n.CarriesOnly S) (msg : ARPMessage) :
    (n.learn msg).CarriesOnly S := ⟨h.held, h.frames, h.others⟩

theorem CarriesOnly.tick (h : n.CarriesOnly S) (ms : ℕ) : (n.tick ms).CarriesOnly S :=
  ⟨h.held, h.frames, h.others⟩

/-- The queue loses entries. -/
theorem CarriesOnly.queue (h : n.CarriesOnly S) {queue : List (InternetDatagram × Address)}
    (hqueue : queue ⊆ n.arpQueue) : CarriesOnly S { n with arpQueue := queue } :=
  ⟨fun e he => h.held e (hqueue he), h.frames, h.others⟩

/-- The frames that are sent leave the queue. -/
theorem CarriesOnly.pop (h : n.CarriesOnly S) {frames : List EthernetFrame}
    (hframes : frames ⊆ n.framesOut) : CarriesOnly S { n with framesOut := frames } :=
  ⟨h.held, fun frame hframe => h.frames frame (hframes hframe),
    fun frame hframe => h.others frame (hframes hframe)⟩

theorem CarriesOnly.pushArp (h : n.CarriesOnly S) (dst : EthernetAddress) (msg : ARPMessage) :
    (n.push (n.frameTo dst EthernetHeader.TYPE_ARP [msg.bytes])).CarriesOnly S where
  held := h.held
  others frame hframe htype := by
    rcases List.mem_append.mp hframe with hold | hnew
    · exact h.others frame hold htype
    · rw [List.mem_singleton.mp hnew]
      have hlength : msg.bytes.length = 28 := msg.length_bytes
      simp [frameTo, BufferList.concatenate, hlength]
  frames frame hframe htype := by
    rcases List.mem_append.mp hframe with hold | hnew
    · exact h.frames frame hold htype
    · rw [List.mem_singleton.mp hnew] at htype
      exact absurd htype (by simp [frameTo, EthernetHeader.TYPE_ARP, EthernetHeader.TYPE_IPv4])

theorem CarriesOnly.pushIpv4 (h : n.CarriesOnly S) (hS : S dgram) {payload : BufferList}
    (hser : dgram.serialize = .ok payload) (dst : EthernetAddress) :
    (n.push (n.frameTo dst EthernetHeader.TYPE_IPv4 payload)).CarriesOnly S where
  held := h.held
  others frame hframe htype := by
    rcases List.mem_append.mp hframe with hold | hnew
    · exact h.others frame hold htype
    · rw [List.mem_singleton.mp hnew] at htype
      exact absurd rfl htype
  frames frame hframe htype := by
    rcases List.mem_append.mp hframe with hold | hnew
    · exact h.frames frame hold htype
    · rw [List.mem_singleton.mp hnew]
      exact ⟨dgram, hS, hser⟩

theorem CarriesOnly.resolve (h : n.CarriesOnly S) (hS : S dgram) (nextHop : Address) :
    (n.resolve dgram nextHop).CarriesOnly S where
  held e he := by
    rcases List.mem_append.mp he with hold | hnew
    · exact h.held e hold
    · rw [List.mem_singleton.mp hnew]
      exact hS
  frames := (h.pushArp ETHERNET_BROADCAST (n.arpRequest nextHop.ipv4Numeric)).frames
  others := (h.pushArp ETHERNET_BROADCAST (n.arpRequest nextHop.ipv4Numeric)).others

theorem carriesOnly_sendDatagram (hS : S dgram) (nextHop : Address) :
    Keeps (CarriesOnly S) (sendDatagram dgram nextHop) := by
  intro n h
  cases hfind : n.mappingCache.find? nextHop.ipv4Numeric with
  | none => exact returned (sendDatagram_unknown hfind) (h.resolve hS nextHop)
  | some entry =>
    obtain ⟨known, age⟩ := entry
    by_cases hpending : known = ETHERNET_BROADCAST
    · rw [hpending] at hfind
      exact returned (sendDatagram_pending hfind) h
    · cases hser : dgram.serialize with
      | ok payload =>
        exact returned (sendDatagram_known hfind hpending hser) (h.pushIpv4 hS hser known)
      | error e => exact thrown (sendDatagram_throws hfind hpending hser) h

theorem carriesOnly_recvArp (msg : ARPMessage) : Keeps (CarriesOnly S) (recvArp msg) := by
  intro n h
  by_cases hreply : msg.opcode = ARPMessage.OPCODE_REPLY
  · obtain hnone | ⟨front, dgram, nextHop, rest, hq, hfront, hhop⟩ :=
      n.held_cases msg.senderIpAddress
    · exact returned (recvArp_idle hreply hnone) (h.learn msg)
    · have hrest : front ++ rest ⊆ n.arpQueue := by
        rw [hq]
        simp
      have hfirst : S dgram := h.held (dgram, nextHop) (by rw [hq]; simp)
      by_cases heth : msg.senderEthernetAddress = ETHERNET_BROADCAST
      · exact returned (recvArp_discards hreply heth hq hfront hhop) ((h.learn msg).queue hrest)
      · cases hser : dgram.serialize with
        | ok payload =>
          apply returned (recvArp_sends hreply heth hq hfront hhop hser)
          exact ((h.learn msg).pushIpv4 hfirst hser msg.senderEthernetAddress).queue hrest
        | error e =>
          exact thrown (recvArp_throws hreply heth hq hfront hhop hser) (h.learn msg)
  · rcases recvArp_request hreply n with hcall | hcall
    · exact returned hcall (h.learn msg)
    · exact returned hcall ((h.learn msg).pushArp _ _)

/-- The datagram in a frame. -/
def Delivers (frame : EthernetFrame) (dgram : InternetDatagram) : Prop :=
  frame.header.type = EthernetHeader.TYPE_IPv4 ∧
    (frame.payload.toBuffer >>= IPv4Datagram.parse {}) = .ok (.noError, dgram)

/-- Only a frame with a datagram returns one. -/
theorem delivers_of_recvFrame {frame : EthernetFrame}
    (h : recvFrame frame n = .ok (some dgram) n') : Delivers frame dgram := by
  rw [recvFrame_eq] at h
  split at h
  · cases h
  split at h
  · rename_i htype
    split at h
    · rename_i res got hparse
      split at h
      · rename_i hres
        cases h
        rw [hres] at hparse
        exact ⟨htype, hparse⟩
      · cases h
    · cases h
  split at h
  · split at h
    · rename_i res msg hparse
      split at h
      · cases hcall : recvArp msg n with
        | ok u n₁ =>
          rw [bind_ok hcall] at h
          cases h
        | error e n₁ =>
          rw [bind_error hcall] at h
          cases h
      · cases h
    · cases h
  · cases h

theorem carriesOnly_recvFrame (frame : EthernetFrame) :
    Keeps (CarriesOnly S) (recvFrame frame) := by
  intro n h
  cases hacc : n.acceptedArp frame with
  | some msg =>
    have hrecv : Keeps (CarriesOnly S)
        (recvArp msg >>= fun _ => pure (none : Option InternetDatagram)) := by
      apply Keeps.bind (carriesOnly_recvArp msg)
      intro _
      exact triple_pure _ fun _ => id
    rw [recvFrame_arp hacc]
    exact hrecv n h
  | none =>
    rcases recvFrame_other hacc with ⟨ret, hcall⟩ | ⟨e, hcall, -⟩
    · exact returned hcall h
    · exact thrown hcall h

end NetworkInterface

/-! ### Routers -/

namespace AsyncNetworkInterface

/-- The datagrams that have arrived have the property as well. -/
structure CarriesOnly (S : InternetDatagram → Prop) (a : AsyncNetworkInterface) : Prop where
  base : a.base.CarriesOnly S
  arrived : ∀ dgram ∈ a.datagramsOut, S dgram

variable {S : InternetDatagram → Prop}

theorem carriesOnly_onBase {β : Type} {m : Call NetworkInterface β}
    (hm : Keeps (NetworkInterface.CarriesOnly S) m) : Keeps (CarriesOnly S) (onBase m) :=
  Triple.zoom hm (fun _ h => h.base) (fun _ _ _ h hbase => ⟨hbase, h.arrived⟩)
    fun _ _ _ h hbase => ⟨hbase, h.arrived⟩

theorem carriesOnly_recvFrame {frame : EthernetFrame}
    (hframe : ∀ dgram, NetworkInterface.Delivers frame dgram → S dgram) :
    Keeps (CarriesOnly S) (AsyncNetworkInterface.recvFrame frame) := by
  intro a h
  have hrecv := carriesOnly_onBase (NetworkInterface.carriesOnly_recvFrame (S := S) frame)
  rw [recvFrame]
  cases hcall : onBase (NetworkInterface.recvFrame frame) a with
  | error e a' =>
    rw [bind_error hcall]
    exact thrown rfl (hrecv.error h hcall)
  | ok ret a' =>
    rw [bind_ok hcall]
    have hkept := hrecv.ok h hcall
    cases ret with
    | none => exact returned rfl hkept
    | some dgram =>
      obtain ⟨n', hbase, -⟩ := ok_of_zoom_ok hcall
      refine returned rfl ⟨hkept.base, fun d hd => ?_⟩
      rcases List.mem_append.mp hd with hold | hnew
      · exact hkept.arrived d hold
      · rw [List.mem_singleton.mp hnew]
        exact hframe dgram (NetworkInterface.delivers_of_recvFrame hbase)

end AsyncNetworkInterface

namespace Router

def CarriesOnly (S : InternetDatagram → Prop) (r : Router) : Prop :=
  ∀ a ∈ r.interfaces, a.CarriesOnly S

variable {S : InternetDatagram → Prop} {r : Router}

theorem CarriesOnly.arrived (h : r.CarriesOnly S) (i : ℕ) : ∀ dgram ∈ r.arrived i, S dgram := by
  intro dgram hdgram
  rw [Router.arrived] at hdgram
  split at hdgram
  · rename_i a ha
    exact (h a (List.mem_of_getElem? ha)).arrived dgram hdgram
  · cases hdgram

theorem CarriesOnly.onQueue (h : r.CarriesOnly S) (i : ℕ)
    {change : List InternetDatagram → List InternetDatagram}
    (hchange : ∀ queue, (∀ dgram ∈ queue, S dgram) → ∀ dgram ∈ change queue, S dgram) :
    (Router.onQueue i change r).CarriesOnly S := by
  intro a ha
  rcases Slices.mem_or_of_mem_modify ha with hold | ⟨b, hb, rfl⟩
  · exact h a hold
  · exact ⟨(h b hb).base, hchange _ (h b hb).arrived⟩

theorem carriesOnly_onInterface {β : Type} {m : Call AsyncNetworkInterface β}
    (hm : Keeps (AsyncNetworkInterface.CarriesOnly S) m) (N : ℕ) :
    Keeps (CarriesOnly S) (onInterface N m) := by
  intro r h
  cases ha : r.interfaces[N]? with
  | none =>
    have hcall : onInterface N m r = .error (.outOfRange "vector::_M_range_check") r := by
      simp only [onInterface, get_bind, ha]
      rfl
    exact thrown hcall h
  | some a =>
    have hset : ∀ a', a'.CarriesOnly S →
        CarriesOnly S { r with interfaces := r.interfaces.set N a' } := by
      intro a' ha' b hb
      rcases List.mem_or_eq_of_mem_set hb with hold | rfl
      · exact h b hold
      · exact ha'
    rw [onInterface_eq ha]
    have hmem := h a (List.mem_of_getElem? ha)
    cases hcall : m a with
    | ok x a' => exact returned (zoom_ok hcall) (hset a' (hm.ok hmem hcall))
    | error e a' => exact thrown (zoom_error hcall) (hset a' (hm.error hmem hcall))

theorem carriesOnly_popFront (i : ℕ) :
    Keeps (CarriesOnly S) (modify (popFront i) : Call Router PUnit) := by
  apply triple_modify
  intro r hr
  apply hr.onQueue
  intro queue hqueue dgram hdgram
  exact hqueue dgram (List.mem_of_mem_tail hdgram)

section Route

-- a property that a router which does not drop a datagram leaves intact
variable (hS : ∀ dgram, S dgram → ¬ dgram.header.ttl ≤ 1 → S (decremented dgram))

include hS

theorem carriesOnly_routeOneDatagram :
    Keeps (fun s : Router × InternetDatagram => s.1.CarriesOnly S ∧ S s.2) routeOneDatagram := by
  rintro ⟨r, dgram⟩ ⟨hr, hdgram⟩
  rw [routeOneDatagram_eq]
  cases hfwd : r.forwardTo dgram with
  | none =>
    refine returned rfl ⟨hr, ?_⟩
    simp only
    split
    · exact hdgram
    · rename_i httl
      exact hS dgram hdgram httl
  | some hop =>
    obtain ⟨k, nextHop⟩ := hop
    have httl : ¬ dgram.header.ttl ≤ 1 := by
      intro httl
      rw [forwardTo, if_pos httl] at hfwd
      cases hfwd
    have hless := hS dgram hdgram httl
    have hsend : Keeps (CarriesOnly S)
        (onInterface k (AsyncNetworkInterface.sendDatagram (decremented dgram) nextHop)) :=
      carriesOnly_onInterface (AsyncNetworkInterface.carriesOnly_onBase
        (NetworkInterface.carriesOnly_sendDatagram hless nextHop)) k
    have hzoom : Keeps (fun s : Router × InternetDatagram => s.1.CarriesOnly S ∧ S s.2)
        (zoom Prod.fst (fun s r => (r, s.2))
          (onInterface k (AsyncNetworkInterface.sendDatagram (decremented dgram) nextHop))) :=
      Triple.zoom hsend (fun _ h => h.1) (fun _ _ _ h hr => ⟨hr, h.2⟩)
        fun _ _ _ h hr => ⟨hr, h.2⟩
    exact hzoom _ ⟨hr, hless⟩

/-- The front of a queue is passed by reference, so the queue keeps what routing made of it. -/
theorem carriesOnly_routeFront (i : ℕ) {front : InternetDatagram} (hfront : S front) :
    Keeps (CarriesOnly S) (routing.routeFront i front) := by
  have hset : ∀ s : Router × InternetDatagram, s.1.CarriesOnly S ∧ S s.2 →
      (s.1.setFront i s.2).CarriesOnly S := by
    intro s hs
    apply hs.1.onQueue
    intro queue hqueue dgram hdgram
    rcases List.mem_or_eq_of_mem_set hdgram with hold | rfl
    · exact hqueue dgram hold
    · exact hs.2
  apply Triple.zoom (carriesOnly_routeOneDatagram hS)
  · intro r hr
    exact ⟨hr, hfront⟩
  · intro _ _ s _ hs
    exact hset s hs
  · intro _ _ s _ hs
    exact hset s hs

theorem carriesOnly_drain (i turns : ℕ) : Keeps (CarriesOnly S) (drain i turns) := by
  induction turns with
  | zero => exact triple_pure _ fun _ => id
  | succ turns ih =>
    intro r h
    cases hq : r.arrived i with
    | nil => exact returned (Routing.drain_of_nil hq (turns + 1)) h
    | cons front rest =>
      have hfront : S front := h.arrived i front (by rw [hq]; simp)
      rw [drain_succ hq]
      apply Keeps.bind (carriesOnly_routeFront hS i hfront) ?_ r h
      exact fun _ => Keeps.bind (carriesOnly_popFront i) fun _ => ih

theorem carriesOnly_route : Keeps (CarriesOnly S) route := by
  apply Keeps.get_bind
  intro r _
  apply Keeps.forM
  intro i _
  apply Keeps.get_bind
  intro r' _
  exact carriesOnly_drain hS i (r'.arrived i).length

end Route

end Router

end Sponge
