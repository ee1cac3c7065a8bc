import Sponge.ArpMessage
import Sponge.Ipv4Datagram
import Sponge.TcpWire

/-!
# Parsing stays inside its buffer

The reads of a `NetParser` are checked by the source and can throw.  Two more kinds of operation
are not checked at all: the subtractions that compute the length of the options, which would wrap
around, and the view on the original buffer over which the header checksum is taken, which would
run past its end.  Here both parsers that contain them are given a second time, with a check that
throws.  The two versions are equal, so the check never fails.
-/

namespace Sponge

open Throwing MachineInt

/-! ### Checked operations -/

/-- A difference of lengths that must not wrap around. -/
def checkedSub (a b : ℕ) : Except Exception ℕ :=
  if b ≤ a then .ok (a - b) else .error (.outOfRange "underflow")

/-- A view on the first bytes of a buffer that must lie inside it. -/
def Buffer.checkedView (b : Buffer) (len : ℕ) : Except Exception Buffer :=
  if len ≤ b.size then .ok (b.take len) else .error (.outOfRange "view")

theorem checkedSub_of_le {a b : ℕ} (h : b ≤ a) (ha : a < 2 ^ 64) :
    checkedSub a b = .ok (sub64 a b) := by
  rw [checkedSub, if_pos h, sub64_of_le ha h]

theorem Buffer.checkedView_of_le {b : Buffer} {len : ℕ} (h : len ≤ b.size) :
    b.checkedView len = .ok (b.take len) := if_pos h

theorem ofExcept_ok {σ α : Type} (a : α) : (ofExcept (.ok a) : Call σ α) = pure a := rfl

namespace IPv4Header

/-- `parse` with a check on the length of the options and on the view for the checksum. -/
def parseChecked (header : IPv4Header) : Call NetParser (ParseResult × IPv4Header) := do
  let original := (← get).buffer
  let dataSize := original.size
  if dataSize < LENGTH then return (.packetTooShort, header)
  let header ← readFields
  if dataSize < 4 * header.hlen.toNat then return (.packetTooShort, header)
  if header.ver ≠ 4 then return (.wrongIPVersion, header)
  if header.hlen < 5 then return (.headerTooShort, header)
  if dataSize ≠ header.len.toNat then return (.truncatedPacket, header)
  let options ← ofExcept (checkedSub (header.hlen.toNat * 4) LENGTH)
  NetParser.removePrefix options
  let p ← get
  if p.hasError then return (p.error, header)
  let view ← ofExcept (original.checkedView (4 * header.hlen.toNat))
  let check := InternetChecksum.add {} view
  if check.value ≠ 0 then return (.badChecksum, header)
  return (.noError, header)

/-- **The length of the options does not wrap around and the view lies inside the buffer**: the
tests that come first see to both. -/
theorem parseChecked_eq (header : IPv4Header) : header.parseChecked = header.parse := by
  refine bind_congr fun p => ?_
  refine ite_congr rfl (fun _ => rfl) fun _ => bind_congr fun header => ?_
  refine ite_congr rfl (fun _ => rfl) fun hfits => ite_congr rfl (fun _ => rfl) fun _ => ?_
  refine ite_congr rfl (fun _ => rfl) fun hhlen => ite_congr rfl (fun _ => rfl) fun _ => ?_
  have hlt := header.hlen.toNat_lt
  have hle : LENGTH ≤ header.hlen.toNat * 4 := by
    rw [UInt8.lt_iff_toNat_lt, not_lt] at hhlen
    exact Nat.mul_le_mul_right 4 hhlen
  simp only [checkedSub_of_le hle (by omega), Buffer.checkedView_of_le (not_lt.mp hfits),
    ofExcept_ok, pure_bind]

end IPv4Header

namespace IPv4Datagram

/-- `parse` with the checked header parser. -/
def parseChecked (dgram : IPv4Datagram) (buffer : Buffer) :
    Except Exception (ParseResult × IPv4Datagram) :=
  match dgram.header.parseChecked { buffer } with
  | .error e _ => .error e
  | .ok (_, header) p =>
    let dgram : IPv4Datagram := { header, payload := [p.buffer] }
    if dgram.payload.size ≠ dgram.header.payloadLength.toNat then .ok (.packetTooShort, dgram)
    else .ok (p.error, dgram)

theorem parseChecked_eq (dgram : IPv4Datagram) (buffer : Buffer) :
    dgram.parseChecked buffer = dgram.parse buffer := by
  rw [parseChecked, IPv4Header.parseChecked_eq]
  rfl

end IPv4Datagram

namespace TCPHeader

/-- `parse` with a check on the length of the options. -/
def parseChecked : Call NetParser (ParseResult × TCPHeader) := do
  let header ← readFields
  if header.doff < 5 then return (.headerTooShort, header)
  let options ← ofExcept (checkedSub (header.doff.toNat * 4) LENGTH)
  NetParser.removePrefix options
  let p ← get
  if p.hasError then return (p.error, header)
  return (.noError, header)

theorem parseChecked_eq : parseChecked = parse := by
  refine bind_congr fun header => ite_congr rfl (fun _ => rfl) fun hdoff => ?_
  have hlt := header.doff.toNat_lt
  have hle : LENGTH ≤ header.doff.toNat * 4 := by
    rw [UInt8.lt_iff_toNat_lt, not_lt] at hdoff
    exact Nat.mul_le_mul_right 4 hdoff
  rw [checkedSub_of_le hle (by omega), ofExcept_ok, pure_bind]

end TCPHeader

namespace TCPSegment

/-- `parse` with the checked header parser. -/
def parseChecked (seg : TCPSegment) (buffer : Buffer) (datagramLayerChecksum : UInt32) :
    Except Exception (ParseResult × TCPSegment) :=
  let check := InternetChecksum.add { sum := datagramLayerChecksum } buffer
  if check.value ≠ 0 then .ok (.badChecksum, seg)
  else
    match TCPHeader.parseChecked { buffer } with
    | .ok (_, header) p => .ok (p.error, { header, payload := p.buffer })
    | .error e _ => .error e

theorem parseChecked_eq (seg : TCPSegment) (buffer : Buffer) (datagramLayerChecksum : UInt32) :
    seg.parseChecked buffer datagramLayerChecksum = seg.parse buffer datagramLayerChecksum := by
  rw [parseChecked, TCPHeader.parseChecked_eq]
  rfl

end TCPSegment

/-- **Parsing never throws and never leaves its buffer.**  The four parsers return on every byte
string, also with the checks that the source does not make, and the checks change nothing. -/
theorem parsing_in_bounds (frame : EthernetFrame) (msg : ARPMessage) (dgram : IPv4Datagram)
    (seg : TCPSegment) (buffer : Buffer) (datagramLayerChecksum : UInt32) :
    (∃ r, frame.parse buffer = .ok r) ∧ (∃ r, msg.parse buffer = .ok r) ∧
      (∃ r, dgram.parse buffer = .ok r ∧ dgram.parseChecked buffer = .ok r) ∧
      ∃ r, seg.parse buffer datagramLayerChecksum = .ok r ∧
        seg.parseChecked buffer datagramLayerChecksum = .ok r := by
  refine ⟨?_, msg.parse_ok buffer, ?_, ?_⟩
  · obtain ⟨res, frame', _, hparse, _⟩ := frame.parse_ok buffer
    exact ⟨(res, frame'), hparse⟩
  · obtain ⟨r, hparse⟩ := dgram.parse_ok buffer
    exact ⟨r, hparse, (dgram.parseChecked_eq buffer).trans hparse⟩
  · obtain ⟨r, hparse⟩ := seg.parse_ok buffer datagramLayerChecksum
    exact ⟨r, hparse, (seg.parseChecked_eq buffer datagramLayerChecksum).trans hparse⟩

end Sponge
