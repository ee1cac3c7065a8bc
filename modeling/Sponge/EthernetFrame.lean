import Sponge.NetParser

/-!
# Ethernet frames

The header parser reports a short buffer only through its return value, which the frame parser
drops: a frame of fewer than 14 bytes is accepted with the header it had before.
-/

namespace Sponge

open Throwing

abbrev EthernetAddress := Vector UInt8 6

def ETHERNET_BROADCAST : EthernetAddress := #v[0xff, 0xff, 0xff, 0xff, 0xff, 0xff]

/-- The address that a header or message has before it is filled in. -/
def EthernetAddress.zero : EthernetAddress := #v[0, 0, 0, 0, 0, 0]

namespace NetParser

/-- `for (auto &byte : address) byte = p.u8()`. -/
def ethernetAddress : Call NetParser EthernetAddress := do
  let b0 ← u8
  let b1 ← u8
  let b2 ← u8
  let b3 ← u8
  let b4 ← u8
  let b5 ← u8
  return #v[b0, b1, b2, b3, b4, b5]

theorem safe_ethernetAddress : Safe ethernetAddress :=
  safe_u8.bind fun _ => safe_u8.bind fun _ => safe_u8.bind fun _ => safe_u8.bind fun _ =>
    safe_u8.bind fun _ => safe_u8.bind fun _ => safe_pure _

end NetParser

/-- `for (auto &byte : address) NetUnparser::u8(s, byte)`. -/
def NetUnparser.ethernetAddress (s : List UInt8) (address : EthernetAddress) : List UInt8 :=
  address.toList.foldl NetUnparser.u8 s

namespace NetUnparser

/-- An address is appended byte by byte. -/
theorem ethernetAddress_eq (s : List UInt8) (address : EthernetAddress) :
    NetUnparser.ethernetAddress s address = s ++ address.toList := by
  have hfold : ∀ (bytes s : List UInt8), bytes.foldl NetUnparser.u8 s = s ++ bytes := by
    intro bytes
    induction bytes with
    | nil => simp
    | cons b bytes ih =>
      intro s
      rw [List.foldl_cons, ih, NetUnparser.u8, unparseInt_one, List.append_assoc,
        List.singleton_append]
  exact hfold address.toList s

end NetUnparser

theorem NetParser.reads_ethernetAddress (address : EthernetAddress) :
    Reads NetParser.ethernetAddress address.toList address := by
  have hbyte : ∀ b, Reads u8 [b] b := by
    intro b
    rw [← NetUnparser.unparseInt_one]
    exact reads_u8 b
  obtain ⟨⟨bytes⟩, hsize⟩ := address
  match bytes, hsize with
  | [b0, b1, b2, b3, b4, b5], _ =>
    show Reads _ ([b0] ++ ([b1] ++ ([b2] ++ ([b3] ++ ([b4] ++ ([b5] ++ [])))))) _
    exact (hbyte b0).bind ((hbyte b1).bind ((hbyte b2).bind ((hbyte b3).bind ((hbyte b4).bind
      ((hbyte b5).bind (reads_pure _))))))

structure EthernetHeader where
  dst : EthernetAddress := EthernetAddress.zero
  src : EthernetAddress := EthernetAddress.zero
  type : UInt16 := 0
deriving DecidableEq, Repr

namespace EthernetHeader

def LENGTH : ℕ := 14

def TYPE_IPv4 : UInt16 := 0x800

def TYPE_ARP : UInt16 := 0x806

/-- The return value and the header afterwards. -/
def parse (header : EthernetHeader) : Call NetParser (ParseResult × EthernetHeader) := do
  if (← get).buffer.size < LENGTH then return (.packetTooShort, header)
  let dst ← NetParser.ethernetAddress
  let src ← NetParser.ethernetAddress
  let type ← NetParser.u16
  return ((← get).error, { dst, src, type })

def serialize (header : EthernetHeader) : List UInt8 :=
  NetUnparser.u16 (NetUnparser.ethernetAddress
    (NetUnparser.ethernetAddress [] header.dst) header.src) header.type

theorem safe_parse (header : EthernetHeader) : Safe header.parse := by
  refine safe_get.bind fun p => Safe.ite (safe_pure _) ?_
  exact NetParser.safe_ethernetAddress.bind fun _ => NetParser.safe_ethernetAddress.bind fun _ =>
    NetParser.safe_u16.bind fun _ => safe_get.bind fun _ => safe_pure _

theorem serialize_eq (header : EthernetHeader) :
    header.serialize = header.dst.toList ++ (header.src.toList ++
      (NetUnparser.unparseInt 2 header.type.toNat ++ [])) := by
  simp [serialize, NetUnparser.ethernetAddress_eq, NetUnparser.u16]

theorem length_serialize (header : EthernetHeader) : header.serialize.length = LENGTH := by
  simp [serialize_eq, LENGTH]

/-- **A header is read back.** -/
theorem reads_parse (header old : EthernetHeader) :
    NetParser.Reads old.parse header.serialize (.noError, header) := by
  refine NetParser.Reads.of_size (length_serialize header).ge ?_
  rw [serialize_eq]
  exact (NetParser.reads_ethernetAddress _).bind ((NetParser.reads_ethernetAddress _).bind
    ((NetParser.reads_u16 _).bind (NetParser.reads_error _)))

/-- Every fourteen bytes are a header. -/
theorem exists_serialize {bytes : List UInt8} (h : bytes.length = LENGTH) :
    ∃ header : EthernetHeader, header.serialize = bytes := by
  match bytes, h with
  | [d0, d1, d2, d3, d4, d5, s0, s1, s2, s3, s4, s5, t0, t1], _ =>
    have hlt : NetParser.bigEndian [t0, t1] < 2 ^ 16 := NetParser.bigEndian_lt [t0, t1]
    have htype : (UInt16.ofNat (NetParser.bigEndian [t0, t1])).toNat =
        NetParser.bigEndian [t0, t1] := UInt16.toNat_ofNat_of_lt' hlt
    have hbytes : NetUnparser.unparseInt 2 (NetParser.bigEndian [t0, t1]) = [t0, t1] :=
      NetUnparser.unparseInt_bigEndian [t0, t1]
    refine ⟨⟨#v[d0, d1, d2, d3, d4, d5], #v[s0, s1, s2, s3, s4, s5],
      UInt16.ofNat (NetParser.bigEndian [t0, t1])⟩, ?_⟩
    rw [serialize_eq, htype, hbytes]
    rfl

end EthernetHeader

structure EthernetFrame where
  header : EthernetHeader := {}
  payload : BufferList := []
deriving DecidableEq, Repr

namespace EthernetFrame

/-- The return value and the frame afterwards. -/
def parse (frame : EthernetFrame) (buffer : Buffer) :
    Except Exception (ParseResult × EthernetFrame) :=
  match frame.header.parse { buffer } with
  | .ok (_, header) p => .ok (p.error, { header, payload := [p.buffer] })
  | .error e _ => .error e

def serialize (frame : EthernetFrame) : BufferList := frame.header.serialize :: frame.payload

/-- A frame parser never throws, and the payload it leaves is one buffer. -/
theorem parse_ok (frame : EthernetFrame) (buffer : Buffer) :
    ∃ res frame' b, frame.parse buffer = .ok (res, frame') ∧ frame'.payload = [b] := by
  obtain ⟨⟨res, header⟩, p, hp⟩ := EthernetHeader.safe_parse frame.header { buffer }
  refine ⟨p.error, { header, payload := [p.buffer] }, p.buffer, ?_, rfl⟩
  rw [parse, hp]

/-- **A frame is read back**, with its payload as one buffer. -/
theorem parse_serialize (frame old : EthernetFrame) :
    old.parse frame.serialize.concatenate =
      .ok (.noError, { frame with payload := [frame.payload.concatenate] }) := by
  have hheader := EthernetHeader.reads_parse frame.header old.header frame.payload.concatenate
  rw [parse, show frame.serialize.concatenate =
    frame.header.serialize ++ frame.payload.concatenate from rfl, hheader]

/-! ### What the parser gives back -/

/-- If the parser accepts the byte string, then the frame it has read serializes to it. -/
def GivesBack (old : EthernetFrame) (b : Buffer) : Prop :=
  ∀ frame, old.parse b = .ok (.noError, frame) → frame.serialize.concatenate = b

/-- A short buffer is accepted whole as the payload. -/
theorem parse_of_short (old : EthernetFrame) {b : Buffer} (h : b.length < EthernetHeader.LENGTH) :
    old.parse b = .ok (.noError, { header := old.header, payload := [b] }) := by
  have hheader : old.header.parse { buffer := b } =
      .ok (.packetTooShort, old.header) { buffer := b } := by
    rw [EthernetHeader.parse, bind_ok (show (get : Call NetParser NetParser) _ = .ok _ _ from rfl)]
    exact congrFun (if_pos h) _
  rw [parse, hheader]

theorem givesBack_of_long (old : EthernetFrame) {b : Buffer}
    (h : EthernetHeader.LENGTH ≤ b.length) : old.GivesBack b := by
  have hsplit := List.take_append_drop EthernetHeader.LENGTH b
  obtain ⟨header, hheader⟩ := EthernetHeader.exists_serialize
    (List.length_take_of_le h)
  have hserialize : (serialize { header, payload := [b.drop EthernetHeader.LENGTH] }).concatenate =
      b := by
    show header.serialize ++ (b.drop EthernetHeader.LENGTH ++ []) = b
    rw [hheader, List.append_nil, hsplit]
  have hparse := parse_serialize { header, payload := [b.drop EthernetHeader.LENGTH] } old
  rw [hserialize] at hparse
  intro frame hframe
  rw [hparse] at hframe
  cases hframe
  show header.serialize ++ (BufferList.concatenate [b.drop EthernetHeader.LENGTH] ++ []) = b
  rw [List.append_nil]
  exact hserialize

/-- **The codec of Ethernet frames.**  Every frame is read back.  The other way round, a byte
string that is accepted is given back if and only if it is as long as a header. -/
theorem codec_iff_long (frame old : EthernetFrame) (b : Buffer) :
    (∃ frame', old.parse frame.serialize.concatenate = .ok (.noError, frame') ∧
        frame'.header = frame.header ∧
        frame'.payload.concatenate = frame.payload.concatenate) ∧
      (old.GivesBack b ↔ 14 ≤ b.length) := by
  refine ⟨⟨_, parse_serialize frame old, rfl, List.append_nil _⟩, ?_⟩
  by_cases hlong : EthernetHeader.LENGTH ≤ b.length
  · exact iff_of_true (givesBack_of_long old hlong) hlong
  · refine iff_of_false (fun hback => ?_) hlong
    have hbytes := hback _ (parse_of_short old (not_le.mp hlong))
    have hlength : (old.header.serialize ++ (b ++ [])).length = b.length :=
      congrArg List.length hbytes
    rw [List.append_nil, List.length_append, EthernetHeader.length_serialize] at hlength
    exact absurd hlength (by simp [EthernetHeader.LENGTH])

/-- The empty byte string is accepted, and the header that is written for it is not empty. -/
theorem codec_fails_on_empty : ¬ GivesBack {} [] := by
  intro h
  exact absurd (h _ (parse_of_short {} (by decide))) (by decide)

end EthernetFrame

end Sponge
