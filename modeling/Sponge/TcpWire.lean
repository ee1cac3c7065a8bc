import Sponge.InternetChecksum
import Sponge.NetParser
import Sponge.TcpSegment
import Sponge.Lib.Slices

/-!
# TCP segments on the wire

The header parser reports a data offset below five only through its return value, which the
segment parser drops.  The checksum is taken over the whole segment and starts from a number
that the datagram layer supplies; `TCPSegment.parse_serialize` says that a segment written with
such a number is read back with the same number, whatever it is, as long as the 32-bit sum does
not overflow.
-/

namespace Sponge

open Throwing MachineInt

namespace TCPHeader

def LENGTH : ℕ := 20

/-- `header.cksum = cksum`. -/
def setCksum (header : TCPHeader) (cksum : UInt16) : TCPHeader := { header with cksum }

/-- The reads of `parse`, in the order of the wire. -/
def readFields : Call NetParser TCPHeader := do
  let sport ← NetParser.u16
  let dport ← NetParser.u16
  let seqno ← NetParser.u32
  let ackno ← NetParser.u32
  let offsetByte ← NetParser.u8
  let flB ← NetParser.u8
  let win ← NetParser.u16
  let cksum ← NetParser.u16
  let uptr ← NetParser.u16
  return {
    sport, dport, seqno := ⟨seqno⟩, ackno := ⟨ackno⟩, doff := offsetByte >>> 4
    urg := flB &&& 0x20 ≠ 0, ack := flB &&& 0x10 ≠ 0, psh := flB &&& 0x08 ≠ 0
    rst := flB &&& 0x04 ≠ 0, syn := flB &&& 0x02 ≠ 0, fin := flB &&& 0x01 ≠ 0
    win, cksum, uptr }

/-- The return value and the header afterwards. -/
def parse : Call NetParser (ParseResult × TCPHeader) := do
  let header ← readFields
  if header.doff < 5 then return (.headerTooShort, header)
  NetParser.removePrefix (sub64 (header.doff.toNat * 4) LENGTH)
  let p ← get
  if p.hasError then return (p.error, header)
  return (.noError, header)

/-- The byte of the flags. -/
def flags (header : TCPHeader) : UInt8 :=
  (if header.urg then 0x20 else 0) ||| (if header.ack then 0x10 else 0) |||
    (if header.psh then 0x08 else 0) ||| (if header.rst then 0x04 else 0) |||
    (if header.syn then 0x02 else 0) ||| (if header.fin then 0x01 else 0)

def serialize (header : TCPHeader) : Except Exception (List UInt8) :=
  if header.doff < 5 then .error (.runtimeError "TCP header too short")
  else
    let ret := NetUnparser.u16 [] header.sport
    let ret := NetUnparser.u16 ret header.dport
    let ret := NetUnparser.u32 ret header.seqno.rawValue
    let ret := NetUnparser.u32 ret header.ackno.rawValue
    let ret := NetUnparser.u8 ret (header.doff <<< 4)
    let ret := NetUnparser.u8 ret header.flags
    let ret := NetUnparser.u16 ret header.win
    let ret := NetUnparser.u16 ret header.cksum
    let ret := NetUnparser.u16 ret header.uptr
    -- `resize` pads the options with zeros
    .ok (ret.takeD (4 * header.doff.toNat) 0)

theorem safe_parse : Safe parse := by
  have hread : Safe readFields := by
    refine NetParser.safe_u16.bind fun _ => NetParser.safe_u16.bind fun _ => ?_
    refine NetParser.safe_u32.bind fun _ => NetParser.safe_u32.bind fun _ => ?_
    refine NetParser.safe_u8.bind fun _ => NetParser.safe_u8.bind fun _ => ?_
    refine NetParser.safe_u16.bind fun _ => NetParser.safe_u16.bind fun _ => ?_
    exact NetParser.safe_u16.bind fun _ => safe_pure _
  refine hread.bind fun _ => Safe.ite (safe_pure _) ?_
  refine (NetParser.safe_removePrefix _).bind fun _ => safe_get.bind fun _ => ?_
  exact Safe.ite (safe_pure _) (safe_pure _)

/-! ### Reading a header back -/

/-- The data offset covers the fields and fits its four bits. -/
structure Encodable (header : TCPHeader) : Prop where
  doff_ge : 5 ≤ header.doff.toNat
  doff_le : header.doff.toNat ≤ 15

/-- The bytes before the checksum. -/
def front (header : TCPHeader) : List UInt8 :=
  NetUnparser.unparseInt 2 header.sport.toNat ++ (NetUnparser.unparseInt 2 header.dport.toNat ++
    (NetUnparser.unparseInt 4 header.seqno.rawValue.toNat ++
    (NetUnparser.unparseInt 4 header.ackno.rawValue.toNat ++
    (NetUnparser.unparseInt 1 (header.doff <<< 4).toNat ++
    (NetUnparser.unparseInt 1 header.flags.toNat ++
    NetUnparser.unparseInt 2 header.win.toNat)))))

/-- The bytes of the fields, without the options. -/
def fieldBytes (header : TCPHeader) : List UInt8 :=
  header.front ++ (NetUnparser.unparseInt 2 header.cksum.toNat ++
    NetUnparser.unparseInt 2 header.uptr.toNat)

/-- The bytes of the header; the options are zeros. -/
def bytes (header : TCPHeader) : List UInt8 :=
  header.fieldBytes ++ List.replicate (4 * header.doff.toNat - LENGTH) 0

/-- The bytes after the checksum. -/
def back (header : TCPHeader) : List UInt8 :=
  NetUnparser.unparseInt 2 header.uptr.toNat ++
    List.replicate (4 * header.doff.toNat - LENGTH) 0

theorem bytes_eq (header : TCPHeader) :
    header.bytes =
      header.front ++ (NetUnparser.unparseInt 2 header.cksum.toNat ++ header.back) := by
  rw [bytes, fieldBytes, back, List.append_assoc, List.append_assoc]

theorem length_front (header : TCPHeader) : header.front.length = 16 := by
  simp [front]

theorem length_fieldBytes (header : TCPHeader) : header.fieldBytes.length = LENGTH := by
  simp [fieldBytes, length_front, LENGTH]

section Encodable

variable {header : TCPHeader}

theorem Encodable.length_bytes (h : header.Encodable) :
    header.bytes.length = 4 * header.doff.toNat := by
  have := h.doff_ge
  rw [bytes, List.length_append, length_fieldBytes, List.length_replicate]
  simp only [LENGTH]
  omega

theorem Encodable.doff_shift (h : header.Encodable) : (header.doff <<< 4) >>> 4 = header.doff := by
  have hall : ∀ k < 16, (UInt8.ofNat k <<< 4) >>> 4 = UInt8.ofNat k := by decide
  exact uint8_of_forall_lt (P := fun x => (x <<< 4) >>> 4 = x) hall (Nat.lt_succ_of_le h.doff_le)

/-- The flags are read back bit by bit. -/
theorem flags_eq (header : TCPHeader) :
    decide (header.flags &&& 0x20 ≠ 0) = header.urg ∧
      decide (header.flags &&& 0x10 ≠ 0) = header.ack ∧
      decide (header.flags &&& 0x08 ≠ 0) = header.psh ∧
      decide (header.flags &&& 0x04 ≠ 0) = header.rst ∧
      decide (header.flags &&& 0x02 ≠ 0) = header.syn ∧
      decide (header.flags &&& 0x01 ≠ 0) = header.fin := by
  unfold flags
  generalize header.urg = urg
  generalize header.ack = ack
  generalize header.psh = psh
  generalize header.rst = rst
  generalize header.syn = syn
  generalize header.fin = fin
  revert urg ack psh rst syn fin
  decide

theorem Encodable.serialize_eq (h : header.Encodable) : header.serialize = .ok header.bytes := by
  have hge := h.doff_ge
  have hlong : LENGTH ≤ 4 * header.doff.toNat := by
    simp only [LENGTH]
    omega
  have hpad := Slices.takeD_of_length_le header.fieldBytes 0
    ((length_fieldBytes header).trans_le hlong)
  rw [length_fieldBytes] at hpad
  rw [serialize, if_neg (by rw [UInt8.lt_iff_toNat_lt]; exact not_lt.mpr hge), bytes, ← hpad]
  simp [fieldBytes, front, NetUnparser.u8, NetUnparser.u16, NetUnparser.u32]

/-- **The fields are read back.** -/
theorem Encodable.reads_readFields (h : header.Encodable) :
    NetParser.Reads readFields header.fieldBytes header := by
  have hbytes : header.fieldBytes = NetUnparser.unparseInt 2 header.sport.toNat ++
      (NetUnparser.unparseInt 2 header.dport.toNat ++
      (NetUnparser.unparseInt 4 header.seqno.rawValue.toNat ++
      (NetUnparser.unparseInt 4 header.ackno.rawValue.toNat ++
      (NetUnparser.unparseInt 1 (header.doff <<< 4).toNat ++
      (NetUnparser.unparseInt 1 header.flags.toNat ++
      (NetUnparser.unparseInt 2 header.win.toNat ++ (NetUnparser.unparseInt 2 header.cksum.toNat ++
      (NetUnparser.unparseInt 2 header.uptr.toNat ++ [])))))))) := by
    simp [fieldBytes, front]
  rw [hbytes]
  refine (NetParser.reads_u16 _).bind ((NetParser.reads_u16 _).bind ((NetParser.reads_u32 _).bind
    ((NetParser.reads_u32 _).bind ((NetParser.reads_u8 _).bind ((NetParser.reads_u8 _).bind
    ((NetParser.reads_u16 _).bind ((NetParser.reads_u16 _).bind
    ((NetParser.reads_u16 _).bind ?_))))))))
  obtain ⟨hurg, hack, hpsh, hrst, hsyn, hfin⟩ := header.flags_eq
  rw [h.doff_shift, hurg, hack, hpsh, hrst, hsyn, hfin]
  exact NetParser.reads_pure header

/-- **A header is read back**, options included. -/
theorem Encodable.reads_parse (h : header.Encodable) :
    NetParser.Reads parse header.bytes (.noError, header) := by
  have hge := h.doff_ge
  have hle := h.doff_le
  have hskip : sub64 (header.doff.toNat * 4) LENGTH = 4 * header.doff.toNat - LENGTH := by
    rw [sub64_of_le (by omega) (by simp only [LENGTH]; omega)]
    omega
  have hoptions := NetParser.reads_removePrefix
    (List.length_replicate (n := 4 * header.doff.toNat - LENGTH) (a := (0 : UInt8)))
  have hbytes : header.bytes = header.fieldBytes ++
      (List.replicate (4 * header.doff.toNat - LENGTH) 0 ++ []) := by
    rw [List.append_nil, bytes]
  have hlong : ¬ header.doff < 5 := by
    rw [UInt8.lt_iff_toNat_lt]
    exact not_lt.mpr hge
  rw [hbytes]
  refine h.reads_readFields.bind (NetParser.Reads.ite_neg hlong ?_)
  rw [hskip]
  exact hoptions.bind fun _ => rfl

end Encodable

end TCPHeader

namespace TCPSegment

/-- The return value and the segment afterwards. -/
def parse (seg : TCPSegment) (buffer : Buffer) (datagramLayerChecksum : UInt32) :
    Except Exception (ParseResult × TCPSegment) :=
  let check := InternetChecksum.add { sum := datagramLayerChecksum } buffer
  if check.value ≠ 0 then .ok (.badChecksum, seg)
  else
    match TCPHeader.parse { buffer } with
    | .ok (_, header) p => .ok (p.error, { header, payload := p.buffer })
    | .error e _ => .error e

def serialize (seg : TCPSegment) (datagramLayerChecksum : UInt32) :
    Except Exception BufferList := do
  let headerZero ← (seg.header.setCksum 0).serialize
  let check := (InternetChecksum.add { sum := datagramLayerChecksum } headerZero).add seg.payload
  let headerOut ← (seg.header.setCksum check.value).serialize
  return [headerOut, seg.payload]

/-- Parsing a segment never throws. -/
theorem parse_ok (seg : TCPSegment) (buffer : Buffer) (datagramLayerChecksum : UInt32) :
    ∃ r, seg.parse buffer datagramLayerChecksum = .ok r := by
  obtain ⟨⟨res, header⟩, p, hp⟩ := TCPHeader.safe_parse { buffer }
  rw [parse, hp]
  simp only
  split
  · exact ⟨_, rfl⟩
  · exact ⟨_, rfl⟩

/-- A segment with a wrong checksum is refused and the object keeps its content. -/
theorem parse_of_badChecksum {b : Buffer} {start : UInt32} {old : TCPSegment}
    (h : (InternetChecksum.add { sum := start } b).value ≠ 0) :
    old.parse b start = .ok (.badChecksum, old) := by
  rw [parse, if_pos h]

/-- Whatever the header parser returned, its parser's error decides. -/
theorem parse_of_header {b : Buffer} {start : UInt32} {old : TCPSegment}
    (h : (InternetChecksum.add { sum := start } b).value = 0)
    {res : ParseResult} {header : TCPHeader} {p : NetParser}
    (hparse : TCPHeader.parse { buffer := b } = .ok (res, header) p) :
    old.parse b start = .ok (p.error, { header, payload := p.buffer }) := by
  rw [parse, if_neg (not_not.mpr h), hparse]

/-! ### Reading a segment back -/

theorem unparseInt_two (val : UInt16) :
    NetUnparser.unparseInt 2 val.toNat = InternetChecksum.wordBytes val := by
  have hlt := val.toNat_lt
  have hhigh : UInt8.ofNat (val.toNat / 256 % 256) = (val >>> 8).toUInt8 := by
    apply UInt8.toNat_inj.mp
    rw [UInt8.toNat_ofNat', InternetChecksum.toNat_highByte]
    omega
  have hlow : UInt8.ofNat (val.toNat % 256) = val.toUInt8 := by
    apply UInt8.toNat_inj.mp
    rw [UInt8.toNat_ofNat', UInt16.toNat_toUInt8]
    omega
  rw [NetUnparser.unparseInt_succ, NetUnparser.unparseInt_succ, hhigh, hlow]
  rfl

/-- The bytes of a segment with a given checksum. -/
def bytesWith (seg : TCPSegment) (cksum : UInt16) : List UInt8 :=
  (seg.header.setCksum cksum).bytes ++ seg.payload

theorem bytesWith_eq (seg : TCPSegment) (cksum : UInt16) :
    seg.bytesWith cksum = seg.header.front ++ (InternetChecksum.wordBytes cksum ++
      (seg.header.back ++ seg.payload)) := by
  rw [bytesWith, TCPHeader.bytes_eq, ← unparseInt_two, List.append_assoc, List.append_assoc]
  rfl

/-- The checksum that `serialize` writes. -/
def cksumFrom (seg : TCPSegment) (start : UInt32) : UInt16 :=
  (InternetChecksum.add { sum := start } (seg.bytesWith 0)).value

section

variable {seg : TCPSegment} (h : seg.header.Encodable)

include h

theorem length_bytesWith (cksum : UInt16) :
    (seg.bytesWith cksum).length = 4 * seg.header.doff.toNat + seg.payload.length := by
  have hcksum : (seg.header.setCksum cksum).Encodable := ⟨h.doff_ge, h.doff_le⟩
  rw [bytesWith, List.length_append, hcksum.length_bytes]
  rfl

theorem serialize_eq (start : UInt32) :
    seg.serialize start =
      .ok [(seg.header.setCksum (seg.cksumFrom start)).bytes, seg.payload] := by
  have hcksum : ∀ cksum, (seg.header.setCksum cksum).Encodable :=
    fun _ => ⟨h.doff_ge, h.doff_le⟩
  rw [serialize, (hcksum 0).serialize_eq]
  show (TCPHeader.serialize (seg.header.setCksum ((InternetChecksum.add { sum := start }
    (seg.header.setCksum 0).bytes).add seg.payload).value) >>= _) = _
  rw [← InternetChecksum.add_append]
  show (TCPHeader.serialize (seg.header.setCksum (seg.cksumFrom start)) >>= _) = _
  rw [(hcksum _).serialize_eq]
  rfl

variable (hsize : 4 * seg.header.doff.toNat + seg.payload.length ≤ 65535) {start : UInt32}
  (hstart : start.toNat < 2 ^ 20)

include hsize hstart

/-- The checksum stands at an even offset, where it verifies. -/
theorem value_bytesWith :
    (InternetChecksum.add { sum := start } (seg.bytesWith (seg.cksumFrom start))).value = 0 := by
  have hzero := seg.bytesWith_eq 0
  have hlength := length_bytesWith h 0
  rw [hzero] at hlength
  rw [bytesWith_eq]
  refine InternetChecksum.value_of_field ?_ ?_ ?_
  · rw [TCPHeader.length_front]
  · have hbound : start.toNat + 65535 * ((65535 + 1) / 2) < 2 ^ 32 := by omega
    exact lt_of_le_of_lt (by gcongr; exact hlength.trans_le hsize) hbound
  · rw [cksumFrom, hzero]
    rfl

/-- **A segment is read back**, with the checksum that was written. -/
theorem parse_serialize (old : TCPSegment) :
    ∃ cksum, seg.serialize start = .ok [(seg.header.setCksum cksum).bytes, seg.payload] ∧
      old.parse ((seg.header.setCksum cksum).bytes ++ seg.payload) start =
        .ok (.noError, { seg with header := seg.header.setCksum cksum }) := by
  have hcksum : (seg.header.setCksum (seg.cksumFrom start)).Encodable := ⟨h.doff_ge, h.doff_le⟩
  refine ⟨seg.cksumFrom start, serialize_eq h start, ?_⟩
  exact parse_of_header (value_bytesWith h hsize hstart) (hcksum.reads_parse seg.payload)

end

end TCPSegment

end Sponge
