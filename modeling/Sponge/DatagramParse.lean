import Sponge.Ipv4Datagram

/-!
# What the datagram parser accepts

`WellFormed` says from the bytes alone which datagrams a parser should accept.  The header parser
tests all of it, but `IPv4Datagram.parse` drops the result and looks at the length of the payload
only.  `fieldsOf` is the header that the reads produce and `cutAt` the place where they stop; with
both, `acceptsExactly_iff` says for every byte string whether the two agree.
-/

namespace Sponge

open Throwing MachineInt

namespace IPv4Header

open NetParser (fieldAt fieldAt_lt ReadsAt)

/-! ### The header as its bytes have it -/

def versionNibble (b : Buffer) : ℕ := fieldAt b 0 1 / 16

def hlenNibble (b : Buffer) : ℕ := fieldAt b 0 1 % 16

def totalLength (b : Buffer) : ℕ := fieldAt b 2 2

/-- The header that the reads produce. -/
def fieldsOf (b : Buffer) : IPv4Header where
  ver := UInt8.ofNat (fieldAt b 0 1) >>> 4
  hlen := UInt8.ofNat (fieldAt b 0 1) &&& 0x0f
  tos := UInt8.ofNat (fieldAt b 1 1)
  len := UInt16.ofNat (fieldAt b 2 2)
  id := UInt16.ofNat (fieldAt b 4 2)
  df := UInt16.ofNat (fieldAt b 6 2) &&& 0x4000 ≠ 0
  mf := UInt16.ofNat (fieldAt b 6 2) &&& 0x2000 ≠ 0
  offset := UInt16.ofNat (fieldAt b 6 2) &&& 0x1fff
  ttl := UInt8.ofNat (fieldAt b 8 1)
  proto := UInt8.ofNat (fieldAt b 9 1)
  cksum := UInt16.ofNat (fieldAt b 10 2)
  src := UInt32.ofNat (fieldAt b 12 4)
  dst := UInt32.ofNat (fieldAt b 16 4)

/-- The four tests of the header parser before the checksum. -/
structure FieldsPass (b : Buffer) : Prop where
  fits : 4 * hlenNibble b ≤ b.length
  version : versionNibble b = 4
  hlen : 5 ≤ hlenNibble b
  length : totalLength b = b.length

section

variable {b : Buffer}

theorem readsAt_readFields (h : LENGTH ≤ b.length) :
    ReadsAt b readFields 0 LENGTH (fieldsOf b) := by
  unfold LENGTH at h
  refine (NetParser.readsAt_u8 (by omega)).bind ((NetParser.readsAt_u8 (by omega)).bind ?_)
  refine (NetParser.readsAt_u16 (by omega)).bind ((NetParser.readsAt_u16 (by omega)).bind ?_)
  refine (NetParser.readsAt_u16 (by omega)).bind ((NetParser.readsAt_u8 (by omega)).bind ?_)
  refine (NetParser.readsAt_u8 (by omega)).bind ((NetParser.readsAt_u16 (by omega)).bind ?_)
  exact (NetParser.readsAt_u32 (by omega)).bind ((NetParser.readsAt_u32 (by omega)).bind rfl)

theorem toNat_firstByte (b : Buffer) : (UInt8.ofNat (fieldAt b 0 1)).toNat = fieldAt b 0 1 :=
  UInt8.toNat_ofNat_of_lt' (fieldAt_lt b 0 1)

theorem fieldsOf_ver (b : Buffer) : (fieldsOf b).ver.toNat = versionNibble b := by
  show (UInt8.ofNat (fieldAt b 0 1) >>> 4).toNat = _
  rw [UInt8.toNat_shiftRight, toNat_firstByte, Nat.shiftRight_eq_div_pow]
  rfl

theorem fieldsOf_hlen (b : Buffer) : (fieldsOf b).hlen.toNat = hlenNibble b := by
  show (UInt8.ofNat (fieldAt b 0 1) &&& 0x0f).toNat = _
  rw [UInt8.toNat_and, toNat_firstByte]
  exact Nat.and_two_pow_sub_one_eq_mod _ 4

theorem fieldsOf_len (b : Buffer) : (fieldsOf b).len.toNat = totalLength b :=
  UInt16.toNat_ofNat_of_lt' (fieldAt_lt b 2 2)

/-- The length announced for the payload, modulo `2 ^ 16`. -/
theorem fieldsOf_payloadLength (b : Buffer) :
    (fieldsOf b).payloadLength.toNat = (totalLength b + 2 ^ 16 - 4 * hlenNibble b) % 2 ^ 16 := by
  have hnibble : hlenNibble b < 16 := Nat.mod_lt _ (by decide)
  have hopt : (4 * (fieldsOf b).hlen.toUInt16).toNat = 4 * hlenNibble b := by
    rw [UInt16.toNat_mul, UInt8.toNat_toUInt16, fieldsOf_hlen]
    exact Nat.mod_eq_of_lt (by simp only [UInt16.reduceToNat]; omega)
  rw [payloadLength, UInt16.toNat_sub, hopt, fieldsOf_len]
  congr 1
  omega

theorem fieldsOf_payloadLength_of_pass (h : FieldsPass b) :
    (fieldsOf b).payloadLength.toNat = b.length - 4 * hlenNibble b := by
  have hfits := h.fits
  have hlt : totalLength b < 2 ^ 16 := fieldAt_lt b 2 2
  rw [fieldsOf_payloadLength, h.length] at *
  omega

/-! ### The header parser -/

/-- The tests as the source writes them. -/
theorem fieldsPass_iff : FieldsPass b ↔ ¬ Buffer.size b < 4 * (fieldsOf b).hlen.toNat ∧
    (fieldsOf b).ver = 4 ∧ ¬ (fieldsOf b).hlen < 5 ∧ Buffer.size b = (fieldsOf b).len.toNat := by
  have hver : (fieldsOf b).ver = 4 ↔ versionNibble b = 4 := by
    rw [← UInt8.toNat_inj, fieldsOf_ver]
    rfl
  rw [hver, UInt8.lt_iff_toNat_lt, fieldsOf_hlen, fieldsOf_len, not_lt, not_lt]
  constructor
  · intro h
    exact ⟨h.fits, h.version, h.hlen, h.length.symm⟩
  · intro ⟨hfits, hversion, hhlen, hlen⟩
    exact ⟨hfits, hversion, hhlen, hlen.symm⟩

instance (b : Buffer) : Decidable (FieldsPass b) := decidable_of_iff _ fieldsPass_iff.symm

/-- Where the header parser leaves the buffer. -/
def cutAt (b : Buffer) : ℕ := if FieldsPass b then 4 * hlenNibble b else LENGTH

theorem parse_short (h : b.length < LENGTH) (old : IPv4Header) :
    old.parse { buffer := b } = .ok (.packetTooShort, old) { buffer := b } := by
  rw [parse, bind_ok (show (get : Call NetParser NetParser) _ = .ok _ _ from rfl)]
  exact congrFun (if_pos h) _

/-- The options are skipped once the four tests have passed. -/
theorem FieldsPass.readsAt_skip (h : FieldsPass b) :
    ReadsAt b (NetParser.removePrefix (sub64 ((fieldsOf b).hlen.toNat * 4) LENGTH)) LENGTH
      (cutAt b) () := by
  have hfits := h.fits
  have hlen := h.hlen
  have hnibble : hlenNibble b < 16 := Nat.mod_lt _ (by decide)
  have hskip : sub64 ((fieldsOf b).hlen.toNat * 4) LENGTH = 4 * hlenNibble b - LENGTH := by
    rw [fieldsOf_hlen, sub64_of_le (by omega) (by simp only [LENGTH]; omega), mul_comm]
  have hend : LENGTH + (4 * hlenNibble b - LENGTH) = cutAt b := by
    rw [cutAt, if_pos h]
    simp only [LENGTH]
    omega
  rw [hskip, ← hend]
  exact NetParser.readsAt_removePrefix _ (by simp only [LENGTH]; omega)

/-- **The header parser on a buffer that holds a header**: the fields it has read, and the place
it has reached.  Its result depends on the checksum and is left open. -/
theorem parse_long (h : LENGTH ≤ b.length) (old : IPv4Header) :
    ∃ res, old.parse { buffer := b } = .ok (res, fieldsOf b) { buffer := b.drop (cutAt b) } := by
  have hread : readFields { buffer := b } = .ok (fieldsOf b) { buffer := b.drop LENGTH } :=
    readsAt_readFields h
  rw [parse, bind_ok (show (get : Call NetParser NetParser) _ = .ok _ _ from rfl)]
  dsimp only
  rw [if_neg (show ¬ Buffer.size b < LENGTH from not_lt.mpr h), bind_ok hread]
  by_cases hpass : FieldsPass b
  · obtain ⟨hfits, hver, hhlen, hlen⟩ := fieldsPass_iff.mp hpass
    have hskip : NetParser.removePrefix (sub64 ((fieldsOf b).hlen.toNat * 4) LENGTH)
        { buffer := b.drop LENGTH } = .ok () { buffer := b.drop (cutAt b) } := hpass.readsAt_skip
    rw [if_neg hfits, if_neg (not_not.mpr hver), if_neg hhlen, if_neg (not_not.mpr hlen),
      bind_ok hskip, bind_ok (show (get : Call NetParser NetParser) _ = .ok _ _ from rfl),
      if_neg (by simp [NetParser.hasError])]
    split
    · exact ⟨_, rfl⟩
    · exact ⟨_, rfl⟩
  · -- the parser stays behind the fields, whichever test has failed
    rw [cutAt, if_neg hpass]
    by_cases hfits : Buffer.size b < 4 * (fieldsOf b).hlen.toNat
    · rw [if_pos hfits]
      exact ⟨_, rfl⟩
    by_cases hver : (fieldsOf b).ver = 4
    swap
    · rw [if_neg hfits, if_pos hver]
      exact ⟨_, rfl⟩
    by_cases hhlen : (fieldsOf b).hlen < 5
    · rw [if_neg hfits, if_neg (not_not.mpr hver), if_pos hhlen]
      exact ⟨_, rfl⟩
    have hlen : Buffer.size b ≠ (fieldsOf b).len.toNat :=
      fun hlen => hpass (fieldsPass_iff.mpr ⟨hfits, hver, hhlen, hlen⟩)
    rw [if_neg hfits, if_neg (not_not.mpr hver), if_neg hhlen, if_pos hlen]
    exact ⟨_, rfl⟩

end

end IPv4Header

namespace IPv4Datagram

open IPv4Header (LENGTH versionNibble hlenNibble totalLength fieldsOf FieldsPass cutAt)

/-! ### The datagram parser -/

/-- The Internet checksum of the header, options included. -/
def headerCksum (b : Buffer) : UInt16 :=
  (InternetChecksum.add {} (b.take (4 * hlenNibble b))).value

/-- A well-formed datagram, from its bytes. -/
structure WellFormed (b : Buffer) : Prop where
  long : 20 ≤ b.length
  version : versionNibble b = 4
  hlen : 5 ≤ hlenNibble b
  fits : 4 * hlenNibble b ≤ b.length
  length : totalLength b = b.length
  cksum : headerCksum b = 0

/-- On this byte string, `parse` returns `NoError` exactly if it is well formed, and the payload
is then what follows the header. -/
def AcceptsExactly (old : IPv4Datagram) (b : Buffer) : Prop :=
  ∃ res dgram, old.parse b = .ok (res, dgram) ∧ (res = .noError ↔ WellFormed b) ∧
    (WellFormed b → dgram.payload.concatenate = b.drop (4 * hlenNibble b))

/-- The byte string is one that the length of the payload judges rightly.  Too short for a header,
it does not have the length of the object's old payload; with the first four tests passed, its
checksum is right; and with one of them failed, what follows the twenty bytes does not have the
length that the header announces. -/
def LengthTells (old : IPv4Datagram) (b : Buffer) : Prop :=
  if b.length < LENGTH then b.length ≠ old.header.payloadLength.toNat
  else if FieldsPass b then headerCksum b = 0
  else u64 (b.length - LENGTH) ≠ (totalLength b + 2 ^ 16 - 4 * hlenNibble b) % 2 ^ 16

section

variable {b : Buffer} {old : IPv4Datagram}

theorem wellFormed_iff : WellFormed b ↔ LENGTH ≤ b.length ∧ FieldsPass b ∧ headerCksum b = 0 := by
  constructor
  · intro h
    exact ⟨h.long, ⟨h.fits, h.version, h.hlen, h.length⟩, h.cksum⟩
  · intro ⟨hlong, hpass, hcksum⟩
    exact ⟨hlong, hpass.version, hpass.hlen, hpass.fits, hpass.length, hcksum⟩

/-- Whatever the header parser returned, the length of what it left decides. -/
theorem parse_of_header {res : ParseResult} {header : IPv4Header} {rest : Buffer}
    (h : old.header.parse { buffer := b } = .ok (res, header) { buffer := rest }) :
    old.parse b = .ok (if u64 rest.length = header.payloadLength.toNat then .noError
      else .packetTooShort, { header, payload := [rest] }) := by
  rw [parse, h]
  simp only [BufferList.size_singleton]
  by_cases hlen : u64 rest.length = header.payloadLength.toNat
  · rw [if_neg (not_not.mpr hlen), if_pos hlen]
  · rw [if_pos hlen, if_neg hlen]

/-- With the four tests passed the datagram is accepted, whatever the checksum. -/
theorem parse_of_fieldsPass (old : IPv4Datagram) (hlong : LENGTH ≤ b.length)
    (hpass : FieldsPass b) :
    old.parse b =
      .ok (.noError, { header := fieldsOf b, payload := [b.drop (4 * hlenNibble b)] }) := by
  obtain ⟨res, hparse⟩ := IPv4Header.parse_long hlong old.header
  rw [cutAt, if_pos hpass] at hparse
  have hlen : u64 (b.drop (4 * hlenNibble b)).length = (fieldsOf b).payloadLength.toNat := by
    have hlt := (fieldsOf b).payloadLength.toNat_lt
    rw [IPv4Header.fieldsOf_payloadLength_of_pass hpass] at hlt ⊢
    rw [List.length_drop, u64_of_lt (by omega)]
  rw [parse_of_header hparse, if_pos hlen]

/-- With one of them failed the lengths alone decide. -/
theorem parse_of_not_fieldsPass (old : IPv4Datagram) (hlong : LENGTH ≤ b.length)
    (hpass : ¬ FieldsPass b) :
    old.parse b = .ok (if
      u64 (b.length - LENGTH) = (totalLength b + 2 ^ 16 - 4 * hlenNibble b) % 2 ^ 16
      then .noError else .packetTooShort,
      { header := fieldsOf b, payload := [b.drop LENGTH] }) := by
  obtain ⟨res, hparse⟩ := IPv4Header.parse_long hlong old.header
  rw [cutAt, if_neg hpass] at hparse
  rw [parse_of_header hparse, List.length_drop, IPv4Header.fieldsOf_payloadLength]

theorem ite_noError_iff {p : Prop} [Decidable p] :
    (if p then ParseResult.noError else .packetTooShort) ≠ .noError ↔ ¬ p := by
  by_cases hp : p <;> simp [hp]

/-- A malformed byte string is judged rightly if and only if it is not accepted. -/
theorem acceptsExactly_of_not_wellFormed {res : ParseResult} {dgram : IPv4Datagram}
    (h : old.parse b = .ok (res, dgram)) (hill : ¬ WellFormed b) :
    AcceptsExactly old b ↔ res ≠ .noError := by
  constructor
  · intro ⟨res', dgram', hparse, hiff, _⟩ hres
    rw [h] at hparse
    obtain ⟨rfl, _⟩ := Prod.mk.inj (Except.ok.inj hparse)
    exact hill (hiff.mp hres)
  · intro hres
    exact ⟨res, dgram, h, iff_of_false hres hill, fun hwell => absurd hwell hill⟩

end

/-- **When the parser accepts exactly the well-formed datagrams.**  No well-formed datagram is
refused; a malformed one is accepted exactly when the lengths happen to agree. -/
theorem acceptsExactly_iff (old : IPv4Datagram) (b : Buffer) :
    AcceptsExactly old b ↔ LengthTells old b := by
  unfold LengthTells
  by_cases hshort : b.length < LENGTH
  · have hill : ¬ WellFormed b := fun h => absurd h.long (not_le.mpr hshort)
    rw [if_pos hshort, acceptsExactly_of_not_wellFormed
      (parse_of_header (IPv4Header.parse_short hshort old.header)) hill,
      u64_of_lt (hshort.trans (by decide))]
    exact ite_noError_iff
  have hlong : LENGTH ≤ b.length := not_lt.mp hshort
  rw [if_neg hshort]
  by_cases hpass : FieldsPass b
  · rw [if_pos hpass]
    have hparse := parse_of_fieldsPass old hlong hpass
    by_cases hcksum : headerCksum b = 0
    · have hwell : WellFormed b := wellFormed_iff.mpr ⟨hlong, hpass, hcksum⟩
      refine iff_of_true ⟨_, _, hparse, iff_of_true rfl hwell, fun _ => ?_⟩ hcksum
      exact List.append_nil _
    · have hill : ¬ WellFormed b := fun h => hcksum h.cksum
      rw [acceptsExactly_of_not_wellFormed hparse hill]
      exact iff_of_false (fun h => h rfl) hcksum
  · have hill : ¬ WellFormed b := fun h => hpass (wellFormed_iff.mp h).2.1
    rw [if_neg hpass,
      acceptsExactly_of_not_wellFormed (parse_of_not_fieldsPass old hlong hpass) hill]
    exact ite_noError_iff

/-- Twenty bytes with a checksum of zero that should not be, and with version 6: a fresh object
accepts both. -/
theorem acceptsExactly_fails_on_headers :
    ¬ AcceptsExactly {} ([0x45, 0, 0, 20] ++ List.replicate 16 0) ∧
      ¬ AcceptsExactly {} ([0x65, 0, 0, 20] ++ List.replicate 16 0) := by
  constructor
  · have hill : ¬ WellFormed ([0x45, 0, 0, 20] ++ List.replicate 16 0) :=
      fun h => absurd h.cksum (by decide)
    rw [acceptsExactly_of_not_wellFormed (parse_of_fieldsPass _ (by decide) (by decide)) hill]
    exact fun h => h rfl
  · have hill : ¬ WellFormed ([0x65, 0, 0, 20] ++ List.replicate 16 0) :=
      fun h => absurd h.version (by decide)
    rw [acceptsExactly_of_not_wellFormed (parse_of_not_fieldsPass _ (by decide) (by decide)) hill]
    rw [ite_noError_iff]
    decide +kernel

end IPv4Datagram

end Sponge
