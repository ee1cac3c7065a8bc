import Sponge.WrappingIntegers

/-!
# TCP segments

A segment is a header and a payload.  The payload is a `Buffer` in the source; here it is the
string that the buffer exposes.
-/

namespace Sponge

structure TCPHeader where
  sport : UInt16 := 0
  dport : UInt16 := 0
  seqno : WrappingInt32 := ⟨0⟩
  ackno : WrappingInt32 := ⟨0⟩
  doff : UInt8 := 5
  urg : Bool := false
  ack : Bool := false
  psh : Bool := false
  rst : Bool := false
  syn : Bool := false
  fin : Bool := false
  win : UInt16 := 0
  cksum : UInt16 := 0
  uptr : UInt16 := 0
deriving DecidableEq, Repr

structure TCPSegment where
  header : TCPHeader := {}
  payload : List UInt8 := []
deriving DecidableEq, Repr

namespace TCPSegment

/-- The payload length, plus one each for SYN and FIN. -/
def lengthInSequenceSpace (seg : TCPSegment) : ℕ :=
  seg.payload.length + (if seg.header.syn then 1 else 0) + (if seg.header.fin then 1 else 0)

theorem lengthInSequenceSpace_eq_zero_iff {seg : TCPSegment} :
    seg.lengthInSequenceSpace = 0 ↔
      seg.payload = [] ∧ seg.header.syn = false ∧ seg.header.fin = false := by
  rw [lengthInSequenceSpace, ← List.length_eq_zero_iff]
  cases seg.header.syn <;> cases seg.header.fin <;> simp

theorem payload_length_le (seg : TCPSegment) :
    seg.payload.length ≤ seg.lengthInSequenceSpace := by
  rw [lengthInSequenceSpace]
  omega

end TCPSegment

end Sponge
