import Sponge.TcpWire

/-!
# What the segment parser accepts

`WellFormed` says from the bytes alone which segments a parser should accept.  The segment parser
looks at the sticky error of its `NetParser` only, and the header parser reports a data offset
below five by its return value alone: `acceptsExactly_iff` says that this is the one way in which
the two differ.

A segment that was written is read back.  With any one bit changed it is refused: the sum over
its words moves by a power of two, which is no multiple of `2 ^ 16 - 1`.
-/

namespace Sponge

open Throwing MachineInt
open InternetChecksum (rfc1071 wordSum)

namespace TCPHeader

open NetParser (fieldAt fieldAt_lt ReadsAt)

/-! ### The header as its bytes have it -/

/-- The data offset, in words of four bytes. -/
def dataOffset (b : Buffer) : ℕ := fieldAt b 12 1 / 16

/-- The header with every field at its place on the wire. -/
def fieldsOf (b : Buffer) : TCPHeader where
  sport := UInt16.ofNat (fieldAt b 0 2)
  dport := UInt16.ofNat (fieldAt b 2 2)
  seqno := ⟨UInt32.ofNat (fieldAt b 4 4)⟩
  ackno := ⟨UInt32.ofNat (fieldAt b 8 4)⟩
  doff := UInt8.ofNat (dataOffset b)
  urg := (fieldAt b 13 1).testBit 5
  ack := (fieldAt b 13 1).testBit 4
  psh := (fieldAt b 13 1).testBit 3
  rst := (fieldAt b 13 1).testBit 2
  syn := (fieldAt b 13 1).testBit 1
  fin := (fieldAt b 13 1).testBit 0
  win := UInt16.ofNat (fieldAt b 14 2)
  cksum := UInt16.ofNat (fieldAt b 16 2)
  uptr := UInt16.ofNat (fieldAt b 18 2)

theorem dataOffset_lt (b : Buffer) : dataOffset b < 16 := by
  have hlt := fieldAt_lt b 12 1
  rw [dataOffset]
  omega

theorem toNat_doff (b : Buffer) : (fieldsOf b).doff.toNat = dataOffset b :=
  UInt8.toNat_ofNat_of_lt' ((dataOffset_lt b).trans (by decide))

/-- The byte of the data offset, as the source takes it apart. -/
theorem offsetByte_eq {n : ℕ} (h : n < 256) : UInt8.ofNat n >>> 4 = UInt8.ofNat (n / 16) := by
  apply UInt8.toNat_inj.mp
  rw [UInt8.toNat_shiftRight, UInt8.toNat_ofNat_of_lt' h,
    UInt8.toNat_ofNat_of_lt' (show n / 16 < 256 by omega)]
  exact Nat.shiftRight_eq_div_pow n 4

/-- The byte of the flags, as the source takes it apart. -/
theorem flagByte_eq : ∀ n < 256,
    decide (UInt8.ofNat n &&& 0x20 ≠ 0) = n.testBit 5 ∧
      decide (UInt8.ofNat n &&& 0x10 ≠ 0) = n.testBit 4 ∧
      decide (UInt8.ofNat n &&& 0x08 ≠ 0) = n.testBit 3 ∧
      decide (UInt8.ofNat n &&& 0x04 ≠ 0) = n.testBit 2 ∧
      decide (UInt8.ofNat n &&& 0x02 ≠ 0) = n.testBit 1 ∧
      decide (UInt8.ofNat n &&& 0x01 ≠ 0) = n.testBit 0 := by
  decide +kernel

variable {b : Buffer}

theorem readsAt_readFields (h : LENGTH ≤ b.length) :
    ReadsAt b readFields 0 LENGTH (fieldsOf b) := by
  unfold LENGTH at h
  obtain ⟨hurg, hack, hpsh, hrst, hsyn, hfin⟩ := flagByte_eq _ (fieldAt_lt b 13 1)
  have hfields : fieldsOf b = {
      sport := UInt16.ofNat (fieldAt b 0 2), dport := UInt16.ofNat (fieldAt b 2 2)
      seqno := ⟨UInt32.ofNat (fieldAt b 4 4)⟩, ackno := ⟨UInt32.ofNat (fieldAt b 8 4)⟩
      doff := UInt8.ofNat (fieldAt b 12 1) >>> 4
      urg := UInt8.ofNat (fieldAt b 13 1) &&& 0x20 ≠ 0
      ack := UInt8.ofNat (fieldAt b 13 1) &&& 0x10 ≠ 0
      psh := UInt8.ofNat (fieldAt b 13 1) &&& 0x08 ≠ 0
      rst := UInt8.ofNat (fieldAt b 13 1) &&& 0x04 ≠ 0
      syn := UInt8.ofNat (fieldAt b 13 1) &&& 0x02 ≠ 0
      fin := UInt8.ofNat (fieldAt b 13 1) &&& 0x01 ≠ 0
      win := UInt16.ofNat (fieldAt b 14 2), cksum := UInt16.ofNat (fieldAt b 16 2)
      uptr := UInt16.ofNat (fieldAt b 18 2) } := by
    rw [hurg, hack, hpsh, hrst, hsyn, hfin, offsetByte_eq (fieldAt_lt b 12 1)]
    rfl
  rw [hfields]
  refine (NetParser.readsAt_u16 (by omega)).bind ((NetParser.readsAt_u16 (by omega)).bind ?_)
  refine (NetParser.readsAt_u32 (by omega)).bind ((NetParser.readsAt_u32 (by omega)).bind ?_)
  refine (NetParser.readsAt_u8 (by omega)).bind ((NetParser.readsAt_u8 (by omega)).bind ?_)
  refine (NetParser.readsAt_u16 (by omega)).bind ((NetParser.readsAt_u16 (by omega)).bind ?_)
  exact (NetParser.readsAt_u16 (by omega)).bind rfl

/-! ### The four outcomes of the header parser -/

/-- Too few bytes for the fields: one of the reads fails, and the error stays. -/
theorem takes_parse : NetParser.Takes parse LENGTH := by
  have hread : NetParser.Takes readFields LENGTH := by
    show NetParser.Takes readFields (2 + (2 + (4 + (4 + (1 + (1 + (2 + (2 + (2 + 0)))))))))
    refine NetParser.takes_u16.bind fun _ => NetParser.takes_u16.bind fun _ => ?_
    refine NetParser.takes_u32.bind fun _ => NetParser.takes_u32.bind fun _ => ?_
    refine NetParser.takes_u8.bind fun _ => NetParser.takes_u8.bind fun _ => ?_
    refine NetParser.takes_u16.bind fun _ => NetParser.takes_u16.bind fun _ => ?_
    exact NetParser.takes_u16.bind fun _ => NetParser.takes_pure _
  show NetParser.Takes parse (LENGTH + 0)
  refine hread.bind fun header => ?_
  split
  · exact NetParser.takes_pure _
  · show NetParser.Takes _ (0 + 0)
    refine (NetParser.takes_removePrefix _).bind fun _ p n hp => ?_
    rw [Nat.zero_add] at hp
    show ∃ a p', (if p.hasError then _ else _ : Call NetParser _) p = _ ∧ _
    split
    · exact ⟨_, p, rfl, hp⟩
    · exact ⟨_, p, rfl, hp⟩

theorem parse_short (h : b.length < LENGTH) :
    ∃ res header p, parse { buffer := b } = .ok (res, header) p ∧ p.hasError = true := by
  obtain ⟨⟨res, header⟩, p, hok, hp⟩ := takes_parse { buffer := b } 0 (Or.inr h)
  exact ⟨res, header, p, hok, hp.resolve_right (Nat.not_lt_zero _)⟩

/-- A data offset below five is reported by the return value, and the parser stays behind the
fields without an error. -/
theorem readsAt_parse_low (h : LENGTH ≤ b.length) (hlow : dataOffset b < 5) :
    ReadsAt b parse 0 LENGTH (.headerTooShort, fieldsOf b) := by
  refine (readsAt_readFields h).bind ?_
  have hdoff : (fieldsOf b).doff < 5 := by
    rw [UInt8.lt_iff_toNat_lt, toNat_doff]
    exact hlow
  rw [if_pos hdoff]
  rfl

section

variable (hlow : 5 ≤ dataOffset b)

include hlow

theorem not_doff_lt : ¬ (fieldsOf b).doff < 5 := by
  rw [UInt8.lt_iff_toNat_lt, toNat_doff]
  exact not_lt.mpr hlow

theorem optionsLength_eq :
    sub64 ((fieldsOf b).doff.toNat * 4) LENGTH = 4 * dataOffset b - LENGTH := by
  have hlt := dataOffset_lt b
  rw [toNat_doff, sub64_of_le (by omega) (by simp only [LENGTH]; omega), Nat.mul_comm]

theorem readsAt_parse (hfits : 4 * dataOffset b ≤ b.length) :
    ReadsAt b parse 0 (4 * dataOffset b) (.noError, fieldsOf b) := by
  have hlong : LENGTH ≤ 4 * dataOffset b := by
    simp only [LENGTH]
    omega
  refine (readsAt_readFields (hlong.trans hfits)).bind ?_
  rw [if_neg (not_doff_lt hlow), optionsLength_eq hlow]
  have hskip := NetParser.readsAt_removePrefix (b := b) (i := LENGTH) (4 * dataOffset b - LENGTH)
    (by omega)
  rw [Nat.add_sub_cancel' hlong] at hskip
  exact hskip.bind rfl

/-- Options that run past the end of the buffer set the error. -/
theorem parse_cut (hlong : LENGTH ≤ b.length) (hcut : b.length < 4 * dataOffset b) :
    ∃ res header p, parse { buffer := b } = .ok (res, header) p ∧ p.hasError = true := by
  have hread : readFields { buffer := b } = .ok (fieldsOf b) { buffer := b.drop LENGTH } :=
    readsAt_readFields hlong
  have hshort : Buffer.size (b.drop LENGTH) < 4 * dataOffset b - LENGTH := by
    rw [Buffer.size, List.length_drop]
    omega
  have hskip : NetParser.removePrefix (4 * dataOffset b - LENGTH) { buffer := b.drop LENGTH } =
      .ok () { buffer := b.drop LENGTH, error := .packetTooShort } := by
    rw [NetParser.removePrefix_eq, NetParser.skip, if_pos hshort]
  rw [parse, bind_ok hread, if_neg (not_doff_lt hlow), optionsLength_eq hlow, bind_ok hskip]
  exact ⟨_, _, _, rfl, rfl⟩

end

end TCPHeader

namespace TCPSegment

open TCPHeader (LENGTH dataOffset fieldsOf)

/-! ### The segment parser -/

/-- A well-formed segment, from its bytes and the sum over the pseudo-header. -/
structure WellFormed (b : Buffer) (datagramLayerChecksum : UInt32) : Prop where
  cksum : rfc1071 datagramLayerChecksum.toNat b = 0
  long : 20 ≤ b.length
  doff : 5 ≤ dataOffset b
  fits : 4 * dataOffset b ≤ b.length

/-- On this byte string, `parse` returns `NoError` exactly if it is well formed; the payload is
then what follows the header, and the fields are those on the wire. -/
def AcceptsExactly (old : TCPSegment) (b : Buffer) (datagramLayerChecksum : UInt32) : Prop :=
  ∃ res seg, old.parse b datagramLayerChecksum = .ok (res, seg) ∧
    (res = .noError ↔ WellFormed b datagramLayerChecksum) ∧
    (res = .noError → seg.payload = b.drop (4 * dataOffset b) ∧ seg.header = fieldsOf b)

section

variable {b : Buffer} {start : UInt32} {old : TCPSegment}

/-- The sums over at most 65535 bytes do not overflow. -/
theorem sum_lt (hb : b.length ≤ 65535) (hstart : start.toNat < 2 ^ 20) :
    start.toNat + 65535 * ((b.length + 1) / 2) < 2 ^ 32 := by
  omega

/-- A malformed byte string is judged rightly if and only if it is not accepted. -/
theorem acceptsExactly_of_not_wellFormed {res : ParseResult} {seg : TCPSegment}
    (h : old.parse b start = .ok (res, seg)) (hill : ¬ WellFormed b start) :
    AcceptsExactly old b start ↔ res ≠ .noError := by
  constructor
  · intro ⟨res', seg', hparse, hiff, _⟩ hres
    rw [h] at hparse
    obtain ⟨rfl, _⟩ := Prod.mk.inj (Except.ok.inj hparse)
    exact hill (hiff.mp hres)
  · intro hres
    exact ⟨res, seg, h, iff_of_false hres hill, fun hno => absurd hno hres⟩

/-- A byte string on which the header parser has met an error is judged rightly. -/
theorem acceptsExactly_of_error (h : (InternetChecksum.add { sum := start } b).value = 0)
    {res : ParseResult} {header : TCPHeader} {p : NetParser}
    (hparse : TCPHeader.parse { buffer := b } = .ok (res, header) p) (herr : p.hasError = true)
    (hill : ¬ WellFormed b start) : AcceptsExactly old b start := by
  rw [acceptsExactly_of_not_wellFormed (parse_of_header h hparse) hill]
  simpa [NetParser.hasError] using herr

end

/-- **When the parser accepts exactly the well-formed segments.**  It accepts all of them, and
besides them the byte strings with a right checksum whose data offset is below five. -/
theorem acceptsExactly_iff_doff (old : TCPSegment) {b : Buffer} (hb : b.length ≤ 65535)
    {start : UInt32} (hstart : start.toNat < 2 ^ 20) :
    AcceptsExactly old b start ↔
      (rfc1071 start.toNat b = 0 → 20 ≤ b.length → 5 ≤ dataOffset b) := by
  have hvalue := InternetChecksum.toNat_value_add (sum_lt hb hstart)
  by_cases hcksum : (InternetChecksum.add { sum := start } b).value = 0
  swap
  · have hne : rfc1071 start.toNat b ≠ 0 := by
      rw [← hvalue]
      exact fun h => hcksum (UInt16.toNat_inj.mp h)
    have hill : ¬ WellFormed b start := fun h => hne h.cksum
    refine iff_of_true ?_ fun h => absurd h hne
    rw [acceptsExactly_of_not_wellFormed (parse_of_badChecksum hcksum) hill]
    decide
  have hzero : rfc1071 start.toNat b = 0 := by
    rw [← hvalue, hcksum]
    rfl
  by_cases hshort : b.length < LENGTH
  · obtain ⟨res, header, p, hparse, herr⟩ := TCPHeader.parse_short hshort
    refine iff_of_true ?_ fun _ h => absurd h (not_le.mpr hshort)
    exact acceptsExactly_of_error hcksum hparse herr fun h => absurd h.long (not_le.mpr hshort)
  have hlong : LENGTH ≤ b.length := not_lt.mp hshort
  by_cases hlow : dataOffset b < 5
  · have hill : ¬ WellFormed b start := fun h => absurd h.doff (not_le.mpr hlow)
    refine iff_of_false ?_ fun h => absurd (h hzero hlong) (not_le.mpr hlow)
    rw [acceptsExactly_of_not_wellFormed
      (parse_of_header hcksum (TCPHeader.readsAt_parse_low hlong hlow)) hill]
    exact fun h => h rfl
  have hdoff : 5 ≤ dataOffset b := not_lt.mp hlow
  refine iff_of_true ?_ fun _ _ => hdoff
  by_cases hfits : 4 * dataOffset b ≤ b.length
  · have hwell : WellFormed b start := ⟨hzero, hlong, hdoff, hfits⟩
    exact ⟨_, _, parse_of_header hcksum (TCPHeader.readsAt_parse hdoff hfits),
      iff_of_true rfl hwell, fun _ => ⟨rfl, rfl⟩⟩
  · obtain ⟨res, header, p, hparse, herr⟩ := TCPHeader.parse_cut hdoff hlong (not_le.mp hfits)
    exact acceptsExactly_of_error hcksum hparse herr fun h => hfits h.fits

/-- Twenty bytes with a right checksum whose data offset is zero are accepted. -/
theorem acceptsExactly_fails_on_doff :
    ¬ AcceptsExactly {} (List.replicate 16 0 ++ [0xff, 0xff, 0, 0]) 0 := by
  have hill : ¬ WellFormed (List.replicate 16 0 ++ [0xff, 0xff, 0, 0]) 0 :=
    fun h => absurd h.doff (by decide)
  have hparse : TCPHeader.parse { buffer := List.replicate 16 0 ++ [0xff, 0xff, 0, 0] } =
      .ok (.headerTooShort, _) _ := TCPHeader.readsAt_parse_low (by decide) (by decide)
  rw [acceptsExactly_of_not_wellFormed (parse_of_header (by decide +kernel) hparse) hill]
  exact fun h => h rfl

/-- The same bytes with a data offset of five. -/
theorem acceptsExactly_iff_doff_five :
    (List.replicate 12 0 ++ [0x50, 0, 0, 0, 0xaf, 0xff, 0, 0] : Buffer).length ≤ 65535 ∧
      (0 : UInt32).toNat < 2 ^ 20 ∧
      AcceptsExactly {} (List.replicate 12 0 ++ [0x50, 0, 0, 0, 0xaf, 0xff, 0, 0]) 0 :=
  ⟨by decide, by decide,
    (acceptsExactly_iff_doff {} (by decide) (by decide)).mpr fun _ _ => by decide⟩

/-! ### One wrong bit -/

/-- The buffer with one bit of one byte inverted. -/
def flipBit (b : Buffer) (i bit : ℕ) : Buffer := b.modify i fun x => x ^^^ (1 <<< UInt8.ofNat bit)

theorem length_flipBit (b : Buffer) (i bit : ℕ) : (flipBit b i bit).length = b.length :=
  List.length_modify ..

/-- Inverting a bit adds its weight or takes it away. -/
theorem toNat_xor_bit {bit : ℕ} (h : bit < 8) (x : UInt8) :
    (x ^^^ (1 <<< UInt8.ofNat bit)).toNat = x.toNat + 2 ^ bit ∨
      (x ^^^ (1 <<< UInt8.ofNat bit)).toNat + 2 ^ bit = x.toNat := by
  have hall : ∀ n < 256, ∀ k < 8,
      (UInt8.ofNat n ^^^ (1 <<< UInt8.ofNat k)).toNat = (UInt8.ofNat n).toNat + 2 ^ k ∨
        (UInt8.ofNat n ^^^ (1 <<< UInt8.ofNat k)).toNat + 2 ^ k = (UInt8.ofNat n).toNat := by
    decide +kernel
  have hx := hall x.toNat x.toNat_lt bit h
  rwa [UInt8.ofNat_toNat] at hx

/-- What a change of one byte does to the sum over the words. -/
theorem wordSum_modify (f : UInt8 → UInt8) {b : Buffer} {i : ℕ} (h : i < b.length)
    (parity : Bool) :
    ∃ unit x, (unit = 1 ∨ unit = 256) ∧
      wordSum parity (b.modify i f) + unit * x.toNat = wordSum parity b + unit * (f x).toNat := by
  induction b generalizing i parity with
  | nil => exact absurd h (Nat.not_lt_zero i)
  | cons y rest ih =>
    cases i with
    | zero =>
      cases parity with
      | false =>
        refine ⟨256, y, Or.inr rfl, ?_⟩
        simp only [List.modify_zero_cons, wordSum, Bool.false_eq_true, if_false]
        omega
      | true =>
        refine ⟨1, y, Or.inl rfl, ?_⟩
        simp only [List.modify_zero_cons, wordSum, if_true]
        omega
    | succ i =>
      obtain ⟨unit, x, hunit, hsum⟩ := ih (Nat.lt_of_succ_lt_succ h) (!parity)
      refine ⟨unit, x, hunit, ?_⟩
      simp only [List.modify_succ_cons, wordSum]
      omega

/-- **One wrong bit is noticed.**  A weight of `2 ^ 15` at most is no multiple of `2 ^ 16 - 1`. -/
theorem value_flipBit {b : Buffer} (hb : b.length ≤ 65535) {start : UInt32}
    (hstart : start.toNat < 2 ^ 20) (h : (InternetChecksum.add { sum := start } b).value = 0)
    {i bit : ℕ} (hi : i < b.length) (hbit : bit < 8) :
    (InternetChecksum.add { sum := start } (flipBit b i bit)).value ≠ 0 := by
  have hlength := length_flipBit b i bit
  obtain ⟨unit, x, hunit, hsum⟩ :=
    wordSum_modify (fun x => x ^^^ (1 <<< UInt8.ofNat bit)) hi false
  have hpos : 0 < 2 ^ bit := Nat.two_pow_pos bit
  have hle : 2 ^ bit ≤ 2 ^ 7 := Nat.pow_le_pow_right (by decide) (Nat.le_of_lt_succ hbit)
  rw [InternetChecksum.value_eq_zero_iff, InternetChecksum.toNat_add_of_lt (sum_lt hb hstart)] at h
  rw [Ne, InternetChecksum.value_eq_zero_iff,
    InternetChecksum.toNat_add_of_lt (sum_lt (hlength.trans_le hb) hstart), flipBit]
  rcases hunit with rfl | rfl <;> rcases toNat_xor_bit hbit x with hx | hx <;> omega

/-- **The wire format is read back and protected.**  A segment that was written with some start
of the sum is read back with the same start; with one bit inverted it is refused. -/
theorem parse_serialize_flipBit {seg : TCPSegment} (hge : 5 ≤ seg.header.doff.toNat)
    (hle : seg.header.doff.toNat ≤ 15)
    (hsize : 4 * seg.header.doff.toNat + seg.payload.length ≤ 65535) {start : UInt32}
    (hstart : start.toNat < 2 ^ 20) (old : TCPSegment) :
    ∃ out, seg.serialize start = .ok out ∧
      (∃ cksum, old.parse out.concatenate start =
        .ok (.noError, { seg with header := seg.header.setCksum cksum })) ∧
      ∀ i bit, i < out.concatenate.length → bit < 8 →
        old.parse (flipBit out.concatenate i bit) start = .ok (.badChecksum, old) := by
  have henc : seg.header.Encodable := ⟨hge, hle⟩
  have hlength := (length_bytesWith henc (seg.cksumFrom start)).trans_le hsize
  have hzero := value_bytesWith henc hsize hstart
  have hcksum : (seg.header.setCksum (seg.cksumFrom start)).Encodable := ⟨hge, hle⟩
  have hout : BufferList.concatenate [(seg.header.setCksum (seg.cksumFrom start)).bytes,
      seg.payload] = seg.bytesWith (seg.cksumFrom start) := by
    rw [bytesWith, BufferList.concatenate, List.flatten_cons, List.flatten_singleton]
  refine ⟨_, serialize_eq henc start, ⟨seg.cksumFrom start, ?_⟩, fun i bit hi hbit => ?_⟩
  · rw [hout]
    exact parse_of_header hzero (hcksum.reads_parse seg.payload)
  · rw [hout] at hi ⊢
    exact parse_of_badChecksum (value_flipBit hlength hstart hzero hi hbit)

/-- Three bytes of payload, sent without a pseudo-header. -/
theorem parse_serialize_flipBit_three :
    ∃ out, serialize { payload := [1, 2, 3] } 0 = .ok out ∧
      (∃ cksum, parse {} out.concatenate 0 =
        .ok (.noError, { header := TCPHeader.setCksum {} cksum, payload := [1, 2, 3] })) ∧
      ∀ i bit, i < out.concatenate.length → bit < 8 →
        parse {} (flipBit out.concatenate i bit) 0 = .ok (.badChecksum, {}) :=
  parse_serialize_flipBit (by decide) (by decide) (by decide) (by decide) {}

end TCPSegment

end Sponge
