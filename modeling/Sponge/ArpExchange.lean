import Sponge.NetworkInterface

/-!
# Address resolution between two interfaces

Two interfaces on one wire, each frame as bytes in between.  `send_datagram` for an unknown
neighbour starts a conversation of three frames: the request to everybody, the answer, and the
datagram that waited for it.  Three codecs take part, so the conversation rests on their round
trips: `EthernetFrame.parse_serialize`, `ARPMessage.parse_bytes` and
`IPv4Datagram.parse_serialize`.
-/

namespace Sponge

open Throwing Ipv4Order

namespace NetworkInterface

/-- A frame of the other interface arrives as bytes. -/
def recvBytes (frame : EthernetFrame) : Call NetworkInterface (Option InternetDatagram) := do
  let (res, parsed) ← ofExcept (EthernetFrame.parse {} frame.serialize.concatenate)
  if res = .noError then recvFrame parsed else return none

/-- The wire only joins the buffers of the payload. -/
theorem recvBytes_eq (frame : EthernetFrame) (n : NetworkInterface) :
    recvBytes frame n = recvFrame { frame with payload := [frame.payload.concatenate] } n := by
  rw [recvBytes, EthernetFrame.parse_serialize]
  rfl

/-- An ARP message for this interface, or for all, arrives as it was sent. -/
theorem recvBytes_arp (frame : EthernetFrame) (n : NetworkInterface) {msg : ARPMessage}
    (hmsg : msg.supported = true)
    (hdst : frame.header.dst = ETHERNET_BROADCAST ∨ frame.header.dst = n.ethernetAddress)
    (htype : frame.header.type = EthernetHeader.TYPE_ARP) (hpayload : frame.payload = [msg.bytes]) :
    recvBytes frame n = (recvArp msg >>= fun _ => pure none) n := by
  have hbytes : frame.payload.concatenate = msg.bytes := by
    rw [hpayload]
    exact List.append_nil _
  have hmine : ¬ (frame.header.dst ≠ ETHERNET_BROADCAST ∧
      frame.header.dst ≠ n.ethernetAddress) := by
    tauto
  have hparse : (BufferList.toBuffer [msg.bytes] >>= ARPMessage.parse {}) = .ok (.noError, msg) :=
    ARPMessage.parse_bytes hmsg {}
  rw [recvBytes_eq, hbytes]
  refine recvFrame_arp ?_
  rw [acceptedArp, if_neg hmine, if_pos htype, hparse]

/-- A datagram for this interface arrives as it was sent, up to the checksum, and the interface
stays as it is. -/
theorem recvBytes_ipv4 (frame : EthernetFrame) (n : NetworkInterface) {dgram : InternetDatagram}
    (hd : dgram.header.Encodable)
    (hlen : dgram.header.len.toNat =
      4 * dgram.header.hlen.toNat + dgram.payload.concatenate.length)
    (hdst : frame.header.dst = n.ethernetAddress)
    (htype : frame.header.type = EthernetHeader.TYPE_IPv4)
    (hpayload : dgram.serialize = .ok frame.payload) :
    ∃ cksum, recvBytes frame n =
      .ok (some ⟨dgram.header.setCksum cksum, [dgram.payload.concatenate]⟩) n := by
  obtain ⟨out, cksum, hout, hparse⟩ := IPv4Datagram.parse_serialize hd hlen {}
  have hsame : out = frame.payload := Except.ok.inj (hout.symm.trans hpayload)
  have hbuffer : (BufferList.toBuffer [frame.payload.concatenate] >>= IPv4Datagram.parse {}) =
      .ok (.noError, ⟨dgram.header.setCksum cksum, [dgram.payload.concatenate]⟩) := by
    rw [← hsame]
    exact hparse
  refine ⟨cksum, ?_⟩
  rw [recvBytes_eq, recvFrame_eq, if_neg (by rw [hdst]; tauto), if_pos htype, hbuffer]
  exact congrArg (fun r => EStateM.Result.ok r n) (if_pos rfl)

/-! ### The conversation -/

/-- The three frames of a resolution, the states the calls leave, and the datagram returned. -/
structure Conversation where
  request : EthernetFrame
  reply : EthernetFrame
  data : EthernetFrame
  asked : NetworkInterface
  answered : NetworkInterface
  sent : NetworkInterface
  arrived : InternetDatagram

/-- `a` is asked to send `dgram` to `b`; each new frame is given to the other interface, and each
call emits the next frame and no other. -/
structure Conversation.Delivers (c : Conversation) (a b : NetworkInterface)
    (dgram : InternetDatagram) (nextHop : Address) : Prop where
  send : sendDatagram dgram nextHop a = .ok () c.asked
  asks : c.asked.framesOut = a.framesOut ++ [c.request]
  request_eq : c.request = a.frameTo ETHERNET_BROADCAST EthernetHeader.TYPE_ARP
    [(a.arpRequest nextHop.ipv4Numeric).bytes]
  recv_request : recvBytes c.request b = .ok none c.answered
  answers : c.answered.framesOut = b.framesOut ++ [c.reply]
  reply_eq : c.reply = b.frameTo a.ethernetAddress EthernetHeader.TYPE_ARP
    [(b.arpReply (a.arpRequest nextHop.ipv4Numeric)).bytes]
  recv_reply : recvBytes c.reply c.asked = .ok none c.sent
  sends : c.sent.framesOut = c.asked.framesOut ++ [c.data]
  data_dst : c.data.header.dst = b.ethernetAddress
  data_type : c.data.header.type = EthernetHeader.TYPE_IPv4
  recv_data : recvBytes c.data c.answered = .ok (some c.arrived) c.answered
  header : c.arrived.header.setCksum dgram.header.cksum = dgram.header
  payload : c.arrived.payload.concatenate = dgram.payload.concatenate

/-- **Address resolution delivers the datagram.**  Whatever the two interfaces hold otherwise: if
the sender neither knows the next hop nor has a datagram waiting for it, the three frames of the
conversation are exchanged and the datagram comes out at the other end. -/
theorem resolution_delivers (a b : NetworkInterface) (dgram : InternetDatagram)
    (nextHop : Address) (hhop : nextHop.ipv4Numeric = b.ipAddress.ipv4Numeric)
    (haddress : b.ethernetAddress ≠ ETHERNET_BROADCAST)
    (hunknown : a.mappingCache.find? nextHop.ipv4Numeric = none)
    (hidle : ∀ e ∈ a.arpQueue, e.2.ipv4Numeric ≠ nextHop.ipv4Numeric)
    (hd : dgram.header.Encodable)
    (hlen : dgram.header.len.toNat =
      4 * dgram.header.hlen.toNat + dgram.payload.concatenate.length) :
    ∃ c : Conversation, c.Delivers a b dgram nextHop := by
  obtain ⟨out, _, hser, _⟩ := IPv4Datagram.parse_serialize hd hlen {}
  obtain ⟨question, hquestion⟩ : ∃ msg, msg = a.arpRequest nextHop.ipv4Numeric := ⟨_, rfl⟩
  obtain ⟨asked, hasked⟩ : ∃ n, n = a.resolve dgram nextHop := ⟨_, rfl⟩
  have hsend : sendDatagram dgram nextHop a = .ok () asked := by
    rw [hasked]
    exact sendDatagram_unknown hunknown
  -- the request, and the answer of its target
  have hrequest := recvBytes_arp (a.frameTo ETHERNET_BROADCAST EthernetHeader.TYPE_ARP
    [question.bytes]) b (by rw [hquestion]; rfl) (Or.inl rfl) rfl rfl
  have hanswer : recvArp question b = _ :=
    recvArp_answered (by rw [hquestion]; rfl) (by rw [hquestion]; exact hhop.symm)
  rw [bind_ok hanswer] at hrequest
  -- the answer releases the datagram, which is the only one that waits for it
  have hreply := recvBytes_arp (b.frameTo a.ethernetAddress EthernetHeader.TYPE_ARP
    [(b.arpReply question).bytes]) asked rfl (Or.inr (by rw [hasked]; rfl)) rfl rfl
  have hqueue : asked.arpQueue = a.arpQueue ++ (dgram, nextHop) :: [] := by
    rw [hasked]
    rfl
  have hrelease : recvArp (b.arpReply question) asked = _ :=
    recvArp_sends rfl haddress hqueue (fun e he heq => hidle e he (heq.trans hhop.symm)) hhop hser
  rw [bind_ok hrelease] at hreply
  obtain ⟨cksum, hdata⟩ := recvBytes_ipv4 (asked.frameTo b.ethernetAddress
    EthernetHeader.TYPE_IPv4 out) ((b.learn question).push (b.frameTo
      question.senderEthernetAddress EthernetHeader.TYPE_ARP [(b.arpReply question).bytes]))
    hd hlen rfl rfl hser
  subst hquestion hasked
  exact ⟨⟨_, _, _, _, _, _, _⟩, hsend, rfl, rfl, hrequest, rfl, rfl, hreply, rfl, rfl, rfl, hdata,
    rfl, List.append_nil _⟩

/-- Two new interfaces and a datagram of one byte. -/
theorem resolution_delivers_new :
    ∃ c : Conversation, c.Delivers (.new #v[2, 0, 0, 0, 0, 1] { ip := 1 })
      (.new #v[2, 0, 0, 0, 0, 2] { ip := 2 }) { header := { len := 21 }, payload := [[97]] }
      { ip := 2 } :=
  resolution_delivers _ _ _ _ rfl (by decide) rfl (by simp [new])
    ⟨rfl, by decide, by decide, by decide⟩ rfl

end NetworkInterface

end Sponge
