import Sponge.EthernetFrame

/-!
# ARP messages
-/

namespace Sponge

open Throwing

structure ARPMessage where
  hardwareType : UInt16 := 1
  protocolType : UInt16 := EthernetHeader.TYPE_IPv4
  hardwareAddressSize : UInt8 := 6
  protocolAddressSize : UInt8 := 4
  opcode : UInt16 := 0
  senderEthernetAddress : EthernetAddress := EthernetAddress.zero
  senderIpAddress : UInt32 := 0
  targetEthernetAddress : EthernetAddress := EthernetAddress.zero
  targetIpAddress : UInt32 := 0
deriving DecidableEq, Repr

namespace ARPMessage

def LENGTH : ℕ := 28

def TYPE_ETHERNET : UInt16 := 1

def OPCODE_REQUEST : UInt16 := 1

def OPCODE_REPLY : UInt16 := 2

def supported (msg : ARPMessage) : Bool :=
  msg.hardwareType = TYPE_ETHERNET && msg.protocolType = EthernetHeader.TYPE_IPv4 &&
    msg.hardwareAddressSize = 6 && msg.protocolAddressSize = 4 &&
    (msg.opcode = OPCODE_REQUEST || msg.opcode = OPCODE_REPLY)

/-- The body of `parse`, on the parser of the given buffer. -/
def parseFields (msg : ARPMessage) : Call NetParser (ParseResult × ARPMessage) := do
  if (← get).buffer.size < LENGTH then return (.packetTooShort, msg)
  let hardwareType ← NetParser.u16
  let protocolType ← NetParser.u16
  let hardwareAddressSize ← NetParser.u8
  let protocolAddressSize ← NetParser.u8
  let opcode ← NetParser.u16
  let msg :=
    { msg with hardwareType, protocolType, hardwareAddressSize, protocolAddressSize, opcode }
  if ¬ msg.supported then return (.unsupported, msg)
  let senderEthernetAddress ← NetParser.ethernetAddress
  let senderIpAddress ← NetParser.u32
  let targetEthernetAddress ← NetParser.ethernetAddress
  let targetIpAddress ← NetParser.u32
  return ((← get).error, { msg with
    senderEthernetAddress, senderIpAddress, targetEthernetAddress, targetIpAddress })

/-- The return value and the message afterwards. -/
def parse (msg : ARPMessage) (buffer : Buffer) : Except Exception (ParseResult × ARPMessage) :=
  match msg.parseFields { buffer } with
  | .ok r _ => .ok r
  | .error e _ => .error e

/-- The bytes of a message, in the order of the wire. -/
def bytes (msg : ARPMessage) : List UInt8 :=
  let ret := NetUnparser.u16 [] msg.hardwareType
  let ret := NetUnparser.u16 ret msg.protocolType
  let ret := NetUnparser.u8 ret msg.hardwareAddressSize
  let ret := NetUnparser.u8 ret msg.protocolAddressSize
  let ret := NetUnparser.u16 ret msg.opcode
  let ret := NetUnparser.ethernetAddress ret msg.senderEthernetAddress
  let ret := NetUnparser.u32 ret msg.senderIpAddress
  let ret := NetUnparser.ethernetAddress ret msg.targetEthernetAddress
  NetUnparser.u32 ret msg.targetIpAddress

def serialize (msg : ARPMessage) : Except Exception (List UInt8) :=
  if ¬ msg.supported then
    .error (.runtimeError ("ARPMessage::serialize(): unsupported field combination " ++
      "(must be Ethernet/IP, and request or reply)"))
  else .ok msg.bytes

theorem safe_parseFields (msg : ARPMessage) : Safe msg.parseFields := by
  refine safe_get.bind fun _ => Safe.ite (safe_pure _) ?_
  refine NetParser.safe_u16.bind fun _ => NetParser.safe_u16.bind fun _ => ?_
  refine NetParser.safe_u8.bind fun _ => NetParser.safe_u8.bind fun _ => ?_
  refine NetParser.safe_u16.bind fun _ => Safe.ite (safe_pure _) ?_
  refine NetParser.safe_ethernetAddress.bind fun _ => NetParser.safe_u32.bind fun _ => ?_
  refine NetParser.safe_ethernetAddress.bind fun _ => NetParser.safe_u32.bind fun _ => ?_
  exact safe_get.bind fun _ => safe_pure _

/-- Parsing a message never throws. -/
theorem parse_ok (msg : ARPMessage) (buffer : Buffer) : ∃ r, msg.parse buffer = .ok r := by
  obtain ⟨r, p, hp⟩ := safe_parseFields msg { buffer }
  refine ⟨r, ?_⟩
  rw [parse, hp]

theorem serialize_ok {msg : ARPMessage} (h : msg.supported = true) :
    msg.serialize = .ok msg.bytes := if_neg (not_not.mpr h)

/-- **A message is read back.** -/
theorem reads_parseFields {msg : ARPMessage} (h : msg.supported = true) (old : ARPMessage) :
    NetParser.Reads old.parseFields msg.bytes (.noError, msg) := by
  have hbytes : msg.bytes = NetUnparser.unparseInt 2 msg.hardwareType.toNat ++
      (NetUnparser.unparseInt 2 msg.protocolType.toNat ++
      (NetUnparser.unparseInt 1 msg.hardwareAddressSize.toNat ++
      (NetUnparser.unparseInt 1 msg.protocolAddressSize.toNat ++
      (NetUnparser.unparseInt 2 msg.opcode.toNat ++ (msg.senderEthernetAddress.toList ++
      (NetUnparser.unparseInt 4 msg.senderIpAddress.toNat ++ (msg.targetEthernetAddress.toList ++
      (NetUnparser.unparseInt 4 msg.targetIpAddress.toNat ++ [])))))))) := by
    simp [bytes, NetUnparser.ethernetAddress_eq, NetUnparser.u8, NetUnparser.u16, NetUnparser.u32]
  have hlong : LENGTH ≤ msg.bytes.length := by
    simp [hbytes, LENGTH]
  refine NetParser.Reads.of_size hlong ?_
  rw [hbytes]
  refine (NetParser.reads_u16 _).bind ((NetParser.reads_u16 _).bind ((NetParser.reads_u8 _).bind
    ((NetParser.reads_u8 _).bind ((NetParser.reads_u16 _).bind ?_))))
  refine NetParser.Reads.ite_neg (not_not.mpr h) ?_
  exact (NetParser.reads_ethernetAddress _).bind ((NetParser.reads_u32 _).bind
    ((NetParser.reads_ethernetAddress _).bind ((NetParser.reads_u32 _).bind
      (NetParser.reads_error _))))

theorem parse_bytes {msg : ARPMessage} (h : msg.supported = true) (old : ARPMessage) :
    old.parse msg.bytes = .ok (.noError, msg) := by
  have hread := reads_parseFields h old []
  rw [List.append_nil] at hread
  rw [parse, hread]

end ARPMessage

end Sponge
