import Sponge.InternetChecksum
import Sponge.NetParser
import Sponge.Lib.MachineInt
import Sponge.Lib.Slices

/-!
# IPv4 datagrams

`IPv4Datagram.parse` drops the return value of the header parser: it accepts whatever has a
payload of the length that the header announces, whichever of the header's own checks failed.
`serialize` repeats two of those checks and throws.  `parse_serializable` puts the two together.
-/

namespace Sponge

open Throwing MachineInt

structure IPv4Header where
  ver : UInt8 := 4
  hlen : UInt8 := 5
  tos : UInt8 := 0
  len : UInt16 := 0
  id : UInt16 := 0
  df : Bool := true
  mf : Bool := false
  offset : UInt16 := 0
  ttl : UInt8 := 128
  proto : UInt8 := 6
  cksum : UInt16 := 0
  src : UInt32 := 0
  dst : UInt32 := 0
deriving DecidableEq, Repr

namespace IPv4Header

def LENGTH : ℕ := 20

def PROTO_TCP : UInt8 := 6

def payloadLength (header : IPv4Header) : UInt16 := header.len - 4 * header.hlen.toUInt16

/-- The part of the checksum of an encapsulated TCP segment that is taken over its addresses,
protocol and length. -/
def pseudoCksum (header : IPv4Header) : UInt32 :=
  let pcksum : UInt32 := (header.src >>> 16) + (header.src &&& (0xffff : UInt32))
  let pcksum : UInt32 := pcksum + ((header.dst >>> 16) + (header.dst &&& (0xffff : UInt32)))
  let pcksum : UInt32 := pcksum + header.proto.toUInt32
  pcksum + header.payloadLength.toUInt32

/-- `header.cksum = cksum`. -/
def setCksum (header : IPv4Header) (cksum : UInt16) : IPv4Header := { header with cksum }

theorem pseudoCksum_lt (header : IPv4Header) : header.pseudoCksum.toNat < 2 ^ 19 := by
  have hsrc := InternetChecksum.toNat_fold header.src
  have hdst := InternetChecksum.toNat_fold header.dst
  have hproto : header.proto.toUInt32.toNat = header.proto.toNat := UInt8.toNat_toUInt32 _
  have hlength : header.payloadLength.toUInt32.toNat = header.payloadLength.toNat :=
    UInt16.toNat_toUInt32 _
  have := header.src.toNat_lt
  have := header.dst.toNat_lt
  have := header.proto.toNat_lt
  have := header.payloadLength.toNat_lt
  rw [pseudoCksum, UInt32.toNat_add, UInt32.toNat_add, UInt32.toNat_add, hsrc, hdst, hproto,
    hlength]
  omega

/-- The reads of `parse`, in the order of the wire. -/
def readFields : Call NetParser IPv4Header := do
  let firstByte ← NetParser.u8
  let tos ← NetParser.u8
  let len ← NetParser.u16
  let id ← NetParser.u16
  let foVal ← NetParser.u16
  let ttl ← NetParser.u8
  let proto ← NetParser.u8
  let cksum ← NetParser.u16
  let src ← NetParser.u32
  let dst ← NetParser.u32
  return {
    ver := firstByte >>> 4, hlen := firstByte &&& 0x0f, tos, len, id
    df := foVal &&& 0x4000 ≠ 0, mf := foVal &&& 0x2000 ≠ 0, offset := foVal &&& 0x1fff
    ttl, proto, cksum, src, dst }

/-- The return value and the header afterwards. -/
def parse (header : IPv4Header) : Call NetParser (ParseResult × IPv4Header) := do
  let original := (← get).buffer
  let dataSize := original.size
  if dataSize < LENGTH then return (.packetTooShort, header)
  let header ← readFields
  if dataSize < 4 * header.hlen.toNat then return (.packetTooShort, header)
  if header.ver ≠ 4 then return (.wrongIPVersion, header)
  if header.hlen < 5 then return (.headerTooShort, header)
  if dataSize ≠ header.len.toNat then return (.truncatedPacket, header)
  NetParser.removePrefix (sub64 (header.hlen.toNat * 4) LENGTH)
  let p ← get
  if p.hasError then return (p.error, header)
  let check := InternetChecksum.add {} (original.take (4 * header.hlen.toNat))
  if check.value ≠ 0 then return (.badChecksum, header)
  return (.noError, header)

def serialize (header : IPv4Header) : Except Exception (List UInt8) :=
  if header.ver ≠ 4 then .error (.runtimeError "wrong IP version")
  else if 4 * header.hlen.toNat < LENGTH then .error (.runtimeError "IP header too short")
  else
    let ret := NetUnparser.u8 [] ((header.ver <<< 4) ||| (header.hlen &&& 0xf))
    let ret := NetUnparser.u8 ret header.tos
    let ret := NetUnparser.u16 ret header.len
    let ret := NetUnparser.u16 ret header.id
    let foVal : UInt16 := (if header.df then 0x4000 else 0) ||| (if header.mf then 0x2000 else 0)
      ||| (header.offset &&& 0x1fff)
    let ret := NetUnparser.u16 ret foVal
    let ret := NetUnparser.u8 ret header.ttl
    let ret := NetUnparser.u8 ret header.proto
    let ret := NetUnparser.u16 ret header.cksum
    let ret := NetUnparser.u32 ret header.src
    let ret := NetUnparser.u32 ret header.dst
    -- `resize` pads the options with zeros
    .ok (ret.takeD (4 * header.hlen.toNat) 0)

theorem safe_readFields : Safe readFields := by
  refine NetParser.safe_u8.bind fun _ => NetParser.safe_u8.bind fun _ => ?_
  refine NetParser.safe_u16.bind fun _ => NetParser.safe_u16.bind fun _ => ?_
  refine NetParser.safe_u16.bind fun _ => NetParser.safe_u8.bind fun _ => ?_
  refine NetParser.safe_u8.bind fun _ => NetParser.safe_u16.bind fun _ => ?_
  exact NetParser.safe_u32.bind fun _ => NetParser.safe_u32.bind fun _ => safe_pure _

theorem safe_parse (header : IPv4Header) : Safe header.parse := by
  refine safe_get.bind fun _ => Safe.ite (safe_pure _) ?_
  refine safe_readFields.bind fun _ => Safe.ite (safe_pure _) (Safe.ite (safe_pure _) ?_)
  refine Safe.ite (safe_pure _) (Safe.ite (safe_pure _) ?_)
  refine (NetParser.safe_removePrefix _).bind fun _ => safe_get.bind fun _ => ?_
  exact Safe.ite (safe_pure _) (Safe.ite (safe_pure _) (safe_pure _))

/-- The checks that `serialize` makes on a header. -/
theorem serialize_ok_iff (header : IPv4Header) :
    (∃ bytes, header.serialize = .ok bytes) ↔ header.ver = 4 ∧ 5 ≤ header.hlen.toNat := by
  by_cases hver : header.ver = 4
  · by_cases hlen : 4 * header.hlen.toNat < LENGTH
    · have h5 : ¬ 5 ≤ header.hlen.toNat := by
        simp only [LENGTH] at hlen
        omega
      simp [serialize, hver, hlen, h5]
    · have h5 : 5 ≤ header.hlen.toNat := by
        simp only [LENGTH] at hlen
        omega
      simp [serialize, hver, hlen, h5]
  · simp [serialize, hver]

/-! ### Reading a header back -/

/-- The header fields fit their bits on the wire. -/
structure Encodable (header : IPv4Header) : Prop where
  ver : header.ver = 4
  hlen_ge : 5 ≤ header.hlen.toNat
  hlen_le : header.hlen.toNat ≤ 15
  offset : header.offset.toNat < 2 ^ 13

/-- Version and header length share the first byte. -/
def firstByte (header : IPv4Header) : UInt8 := (header.ver <<< 4) ||| (header.hlen &&& 0xf)

/-- The fragmentation flags share two bytes with the offset. -/
def fragment (header : IPv4Header) : UInt16 :=
  (if header.df then 0x4000 else 0) ||| (if header.mf then 0x2000 else 0)
    ||| (header.offset &&& 0x1fff)

/-- The bytes of the fields, without the options. -/
def fieldBytes (header : IPv4Header) : List UInt8 :=
  NetUnparser.unparseInt 1 header.firstByte.toNat ++ (NetUnparser.unparseInt 1 header.tos.toNat ++
    (NetUnparser.unparseInt 2 header.len.toNat ++ (NetUnparser.unparseInt 2 header.id.toNat ++
    (NetUnparser.unparseInt 2 header.fragment.toNat ++
    (NetUnparser.unparseInt 1 header.ttl.toNat ++ (NetUnparser.unparseInt 1 header.proto.toNat ++
    (NetUnparser.unparseInt 2 header.cksum.toNat ++ (NetUnparser.unparseInt 4 header.src.toNat ++
    (NetUnparser.unparseInt 4 header.dst.toNat ++ [])))))))))

/-- The bytes of the header; the options are zeros. -/
def bytes (header : IPv4Header) : List UInt8 :=
  header.fieldBytes ++ List.replicate (4 * header.hlen.toNat - LENGTH) 0

section Encodable

variable {header : IPv4Header}

theorem length_fieldBytes (header : IPv4Header) : header.fieldBytes.length = LENGTH := by
  simp [fieldBytes, LENGTH]

theorem Encodable.serialize_eq (h : header.Encodable) :
    header.serialize = .ok header.bytes := by
  have hlong : LENGTH ≤ 4 * header.hlen.toNat := by
    have := h.hlen_ge
    simp only [LENGTH]
    omega
  have hpad := Slices.takeD_of_length_le header.fieldBytes 0
    ((length_fieldBytes header).trans_le hlong)
  rw [length_fieldBytes] at hpad
  rw [serialize, if_neg (not_not.mpr h.ver), if_neg (not_lt.mpr hlong), bytes, ← hpad]
  simp [fieldBytes, firstByte, fragment, NetUnparser.u8, NetUnparser.u16, NetUnparser.u32]

theorem Encodable.firstByte_eq (h : header.Encodable) :
    header.firstByte >>> 4 = header.ver ∧ header.firstByte &&& 0x0f = header.hlen := by
  have hall : ∀ k < 16, ((4 : UInt8) <<< 4 ||| (UInt8.ofNat k &&& 0xf)) >>> 4 = 4 ∧
      ((4 : UInt8) <<< 4 ||| (UInt8.ofNat k &&& 0xf)) &&& 0x0f = UInt8.ofNat k := by decide
  rw [firstByte, h.ver]
  exact uint8_of_forall_lt (P := fun x => ((4 : UInt8) <<< 4 ||| (x &&& 0xf)) >>> 4 = 4 ∧
    ((4 : UInt8) <<< 4 ||| (x &&& 0xf)) &&& 0x0f = x) hall (Nat.lt_succ_of_le h.hlen_le)

theorem Encodable.offset_and (h : header.Encodable) : header.offset &&& 0x1fff = header.offset := by
  apply UInt16.toNat_inj.mp
  rw [UInt16.toNat_and]
  exact (Nat.and_two_pow_sub_one_eq_mod _ 13).trans (Nat.mod_eq_of_lt h.offset)

/-- A mask meets the flags and the offset separately. -/
theorem Encodable.fragment_and (h : header.Encodable) (mask : UInt16) :
    header.fragment &&& mask =
      (((if header.df then 0x4000 else 0) ||| (if header.mf then 0x2000 else 0)) &&& mask) |||
        (header.offset &&& mask) := by
  rw [fragment, h.offset_and]
  apply UInt16.toNat_inj.mp
  simp only [UInt16.toNat_and, UInt16.toNat_or]
  exact Nat.and_or_distrib_right ..

theorem Encodable.fragment_eq (h : header.Encodable) :
    decide (header.fragment &&& 0x4000 ≠ 0) = header.df ∧
      decide (header.fragment &&& 0x2000 ≠ 0) = header.mf ∧
      header.fragment &&& 0x1fff = header.offset := by
  have hdf : header.offset &&& 0x4000 = 0 := by
    apply UInt16.toNat_inj.mp
    rw [UInt16.toNat_and]
    exact and_two_pow_of_lt (h.offset.trans (by decide) : header.offset.toNat < 2 ^ 14)
  have hmf : header.offset &&& 0x2000 = 0 := by
    apply UInt16.toNat_inj.mp
    rw [UInt16.toNat_and]
    exact and_two_pow_of_lt h.offset
  have hflags : ∀ df mf : Bool,
      decide (((if df then 0x4000 else 0) ||| (if mf then 0x2000 else 0)) &&& 0x4000 ||| 0 ≠
        (0 : UInt16)) = df ∧
      decide (((if df then 0x4000 else 0) ||| (if mf then 0x2000 else 0)) &&& 0x2000 ||| 0 ≠
        (0 : UInt16)) = mf ∧
      ((if df then 0x4000 else 0) ||| (if mf then 0x2000 else 0)) &&& 0x1fff = (0 : UInt16) := by
    decide
  obtain ⟨hbit, hbit', hzero⟩ := hflags header.df header.mf
  rw [h.fragment_and, h.fragment_and, h.fragment_and, hdf, hmf, h.offset_and, hzero]
  exact ⟨hbit, hbit', UInt16.zero_or⟩

/-- **The fields are read back.** -/
theorem Encodable.reads_readFields (h : header.Encodable) :
    NetParser.Reads readFields header.fieldBytes header := by
  refine (NetParser.reads_u8 _).bind ((NetParser.reads_u8 _).bind ((NetParser.reads_u16 _).bind
    ((NetParser.reads_u16 _).bind ((NetParser.reads_u16 _).bind ((NetParser.reads_u8 _).bind
    ((NetParser.reads_u8 _).bind ((NetParser.reads_u16 _).bind ((NetParser.reads_u32 _).bind
    ((NetParser.reads_u32 _).bind ?_)))))))))
  rw [h.firstByte_eq.1, h.firstByte_eq.2, h.fragment_eq.1, h.fragment_eq.2.1, h.fragment_eq.2.2]
  exact NetParser.reads_pure header

theorem Encodable.payloadLength_eq (h : header.Encodable) {size : ℕ}
    (hlen : header.len.toNat = 4 * header.hlen.toNat + size) :
    header.payloadLength.toNat = size := by
  have hle := h.hlen_le
  have hlt := header.len.toNat_lt
  have hopt : (4 * header.hlen.toUInt16).toNat = 4 * header.hlen.toNat := by
    rw [UInt16.toNat_mul, UInt8.toNat_toUInt16]
    exact Nat.mod_eq_of_lt (by simp only [UInt16.reduceToNat]; omega)
  rw [payloadLength, UInt16.toNat_sub_of_le _ _ (by rw [UInt16.le_iff_toNat_le]; omega), hopt]
  omega

/-- The checks of `parse` pass, up to the checksum, on a header that announces the length of
what is parsed. -/
theorem Encodable.parse_eq (h : header.Encodable) {payload : List UInt8}
    (hlen : header.len.toNat = 4 * header.hlen.toNat + payload.length) (old : IPv4Header) :
    ∃ res, old.parse { buffer := header.bytes ++ payload } =
      .ok (res, header) { buffer := payload } := by
  have hge := h.hlen_ge
  have hskip : sub64 (header.hlen.toNat * 4) LENGTH = 4 * header.hlen.toNat - LENGTH := by
    have := h.hlen_le
    rw [sub64_of_le (by omega) (by simp only [LENGTH]; omega)]
    omega
  have hsize : Buffer.size (header.fieldBytes ++
      (List.replicate (4 * header.hlen.toNat - LENGTH) 0 ++ payload)) = header.len.toNat := by
    rw [Buffer.size, List.length_append, List.length_append, length_fieldBytes,
      List.length_replicate, hlen]
    simp only [LENGTH]
    omega
  have hread := h.reads_readFields (List.replicate (4 * header.hlen.toNat - LENGTH) 0 ++ payload)
  have hrest := NetParser.reads_removePrefix
    (List.length_replicate (n := 4 * header.hlen.toNat - LENGTH) (a := (0 : UInt8))) payload
  rw [bytes, List.append_assoc, parse,
    bind_ok (show (get : Call NetParser NetParser) _ = .ok _ _ from rfl)]
  simp only [hsize]
  rw [if_neg (by simp only [LENGTH]; omega), bind_ok hread, if_neg (by omega),
    if_neg (not_not.mpr h.ver), if_neg (by rw [UInt8.lt_iff_toNat_lt]; exact not_lt.mpr hge),
    if_neg (not_not.mpr rfl), hskip, bind_ok hrest,
    bind_ok (show (get : Call NetParser NetParser) _ = .ok _ _ from rfl),
    if_neg (by simp [NetParser.hasError])]
  split
  · exact ⟨_, rfl⟩
  · exact ⟨_, rfl⟩

end Encodable

end IPv4Header

structure IPv4Datagram where
  header : IPv4Header := {}
  payload : BufferList := []
deriving DecidableEq, Repr

abbrev InternetDatagram := IPv4Datagram

namespace IPv4Datagram

/-- The return value and the datagram afterwards. -/
def parse (dgram : IPv4Datagram) (buffer : Buffer) :
    Except Exception (ParseResult × IPv4Datagram) :=
  match dgram.header.parse { buffer } with
  | .error e _ => .error e
  | .ok (_, header) p =>
    let dgram : IPv4Datagram := { header, payload := [p.buffer] }
    if dgram.payload.size ≠ dgram.header.payloadLength.toNat then .ok (.packetTooShort, dgram)
    else .ok (p.error, dgram)

def serialize (dgram : IPv4Datagram) : Except Exception BufferList :=
  if dgram.payload.size ≠ dgram.header.payloadLength.toNat then
    .error (.runtimeError "IPv4Datagram::serialize: payload is wrong size")
  else do
    let headerZeroChecksum ← (dgram.header.setCksum 0).serialize
    let check := InternetChecksum.add {} headerZeroChecksum
    let headerOut ← (dgram.header.setCksum check.value).serialize
    return headerOut :: dgram.payload

/-- The payload has the length that the header announces. -/
def Sized (dgram : IPv4Datagram) : Prop :=
  dgram.payload.size = dgram.header.payloadLength.toNat

/-- The payload has its length, the version is 4 and the header has room for its fields. -/
structure Writable (dgram : IPv4Datagram) : Prop where
  sized : dgram.Sized
  ver : dgram.header.ver = 4
  hlen : 5 ≤ dgram.header.hlen.toNat

/-- The datagram can be serialized. -/
def Serializable (dgram : IPv4Datagram) : Prop := ∃ out, dgram.serialize = .ok out

instance (dgram : IPv4Datagram) : Decidable dgram.Serializable :=
  match h : dgram.serialize with
  | .ok out => isTrue ⟨out, h⟩
  | .error _ => isFalse fun ⟨_, hout⟩ => by rw [h] at hout; cases hout

/-- Parsing a datagram never throws. -/
theorem parse_ok (dgram : IPv4Datagram) (buffer : Buffer) : ∃ r, dgram.parse buffer = .ok r := by
  obtain ⟨⟨res, header⟩, p, hp⟩ := IPv4Header.safe_parse dgram.header { buffer }
  rw [parse, hp]
  simp only
  split
  · exact ⟨_, rfl⟩
  · exact ⟨_, rfl⟩

theorem parse_sized {dgram dgram' : IPv4Datagram} {buffer : Buffer}
    (h : dgram.parse buffer = .ok (.noError, dgram')) : dgram'.Sized := by
  obtain ⟨⟨res, header⟩, p, hp⟩ := IPv4Header.safe_parse dgram.header { buffer }
  rw [parse, hp] at h
  simp only at h
  split at h
  · cases h
  · rename_i hsize
    obtain ⟨_, rfl⟩ := Prod.mk.inj (Except.ok.inj h)
    exact not_not.mp hsize

/-- **What `serialize` refuses.**  The checksum field does not matter to the header's checks, so
the second header is written whenever the first one was. -/
theorem serializable_iff (dgram : IPv4Datagram) :
    dgram.Serializable ↔ dgram.Writable := by
  rw [Serializable, serialize]
  by_cases hsize : dgram.payload.size = dgram.header.payloadLength.toNat
  · rw [if_neg (not_not.mpr hsize)]
    constructor
    · intro ⟨out, hout⟩
      suffices hfields : dgram.header.ver = 4 ∧ 5 ≤ dgram.header.hlen.toNat from
        ⟨hsize, hfields.1, hfields.2⟩
      refine (IPv4Header.serialize_ok_iff (dgram.header.setCksum 0)).mp ?_
      cases hzero : (dgram.header.setCksum 0).serialize with
      | ok bytes => exact ⟨bytes, rfl⟩
      | error e =>
        rw [hzero] at hout
        cases hout
    · intro ⟨_, hver, hlen⟩
      have hwrite (cksum : UInt16) :
          ∃ bytes, (dgram.header.setCksum cksum).serialize = .ok bytes :=
        (IPv4Header.serialize_ok_iff (dgram.header.setCksum cksum)).mpr ⟨hver, hlen⟩
      obtain ⟨zero, hzero⟩ := hwrite 0
      obtain ⟨out, hout⟩ := hwrite (InternetChecksum.add {} zero).value
      refine ⟨out :: dgram.payload, ?_⟩
      rw [hzero]
      show (IPv4Header.serialize _ >>= _) = _
      rw [hout]
      rfl
  · rw [if_pos hsize]
    constructor
    · intro ⟨out, hout⟩
      cases hout
    · intro h
      exact absurd h.sized hsize

/-- **What the parser lets through and the serializer refuses.** -/
theorem parse_serializable {dgram dgram' : IPv4Datagram} {buffer : Buffer}
    (h : dgram.parse buffer = .ok (.noError, dgram')) :
    dgram'.Serializable ↔ dgram'.header.ver = 4 ∧ 5 ≤ dgram'.header.hlen.toNat := by
  rw [serializable_iff]
  exact ⟨fun hw => ⟨hw.ver, hw.hlen⟩, fun hf => ⟨parse_sized h, hf.1, hf.2⟩⟩

/-- **A datagram is read back**, with the checksum that was written and its payload as one
buffer. -/
theorem parse_serialize {dgram : IPv4Datagram} (h : dgram.header.Encodable)
    (hlen : dgram.header.len.toNat =
      4 * dgram.header.hlen.toNat + dgram.payload.concatenate.length)
    (old : IPv4Datagram) :
    ∃ out cksum, dgram.serialize = .ok out ∧ old.parse out.concatenate =
      .ok (.noError, { header := dgram.header.setCksum cksum
                       payload := [dgram.payload.concatenate] }) := by
  have hshort : dgram.payload.concatenate.length < 2 ^ 64 := by
    have := dgram.header.len.toNat_lt
    omega
  have hpayload : dgram.payload.size = dgram.header.payloadLength.toNat := by
    rw [h.payloadLength_eq hlen, BufferList.size_of_lt hshort]
  have hcksum : ∀ cksum, (dgram.header.setCksum cksum).Encodable :=
    fun _ => ⟨h.ver, h.hlen_ge, h.hlen_le, h.offset⟩
  obtain ⟨zero, hzero⟩ : ∃ zero, (dgram.header.setCksum 0).serialize = .ok zero :=
    ⟨_, (hcksum 0).serialize_eq⟩
  obtain ⟨cksum, hvalue⟩ : ∃ cksum, (InternetChecksum.add {} zero).value = cksum := ⟨_, rfl⟩
  obtain ⟨res, hparse⟩ := (hcksum cksum).parse_eq hlen old.header
  refine ⟨(dgram.header.setCksum cksum).bytes :: dgram.payload, cksum, ?_, ?_⟩
  · rw [serialize, if_neg (not_not.mpr hpayload), hzero]
    show (IPv4Header.serialize _ >>= _) = _
    rw [hvalue, (hcksum cksum).serialize_eq]
    rfl
  · have hone : BufferList.size [dgram.payload.concatenate] =
        (dgram.header.setCksum cksum).payloadLength.toNat := by
      rw [BufferList.size_singleton, ← BufferList.size_eq, hpayload]
      rfl
    rw [parse, show BufferList.concatenate ((dgram.header.setCksum cksum).bytes :: dgram.payload) =
      (dgram.header.setCksum cksum).bytes ++ dgram.payload.concatenate from rfl, hparse]
    simp only [if_neg (not_not.mpr hone)]

end IPv4Datagram

end Sponge
