import Sponge.Lib.MachineInt

/-!
# The in-memory byte stream

`ByteStream` is the flow-controlled buffer between a writer and a reader.  The definitions
follow `byte_stream.cc` line by line, including the three loops whose `size_t` bound is first
stored in an `int`: a bound of `2 ^ 31` or more turns negative there (or small) and the loop
then runs too few times.  `accepted` names the bytes that one `write` pushes; histories of a
stream are the concatenation of these.
-/

namespace Sponge

open MachineInt

structure ByteStream where
  buffer : List UInt8
  capacity : ℕ
  inputEnded : Bool
  error : Bool
  numWritten : ℕ
  numRead : ℕ
deriving DecidableEq, Repr

namespace ByteStream

/-- A stream with room for `capacity` bytes. -/
def new (capacity : ℕ) : ByteStream :=
  { buffer := [], capacity := capacity, inputEnded := false, error := false
    numWritten := 0, numRead := 0 }

def bufferSize (s : ByteStream) : ℕ := s.buffer.length

def bufferEmpty (s : ByteStream) : Bool := s.bufferSize == 0

def remainingCapacity (s : ByteStream) : ℕ := sub64 s.capacity s.bufferSize

def eof (s : ByteStream) : Bool := s.inputEnded && s.bufferEmpty

def bytesWritten (s : ByteStream) : ℕ := s.numWritten

def bytesRead (s : ByteStream) : ℕ := s.numRead

/-- The bytes one `write` pushes into the buffer. -/
def accepted (s : ByteStream) (data : List UInt8) : List UInt8 :=
  if s.inputEnded then [] else data.take (intCount (min data.length s.remainingCapacity))

/-- `write`: the stream afterwards, and the `int` count converted back to `size_t`. -/
def write (s : ByteStream) (data : List UInt8) : ByteStream × ℕ :=
  if s.inputEnded then (s, 0)
  else
    let numWritable := int32 (min data.length s.remainingCapacity)
    ({ s with
        buffer := s.buffer ++ data.take numWritable.toNat
        numWritten := u64 (s.numWritten + (data.take numWritable.toNat).length) },
      (numWritable % 2 ^ 64).toNat)

def peekOutput (s : ByteStream) (len : ℕ) : List UInt8 :=
  s.buffer.take (intCount (min len s.bufferSize))

def popOutput (s : ByteStream) (len : ℕ) : ByteStream :=
  let peekLen := intCount (min len s.bufferSize)
  { s with buffer := s.buffer.drop peekLen, numRead := u64 (s.numRead + peekLen) }

def read (s : ByteStream) (len : ℕ) : List UInt8 × ByteStream :=
  (s.peekOutput len, s.popOutput len)

def endInput (s : ByteStream) : ByteStream := { s with inputEnded := true }

def setError (s : ByteStream) : ByteStream := { s with error := true }

/-- The bytes pushed between two states of a stream from which nothing was popped. -/
def appended (before after : ByteStream) : List UInt8 := after.buffer.drop before.buffer.length

/-- The buffer fits its capacity, and the capacity is a `size_t`. -/
structure WF (s : ByteStream) : Prop where
  fits : s.buffer.length ≤ s.capacity
  size : s.capacity < 2 ^ 64

/-! ### Writing -/

/-- A write changes the buffer and the counter of written bytes. -/
theorem write_frame (s : ByteStream) (data : List UInt8) :
    ∃ numWritten, (s.write data).1 =
      { s with buffer := s.buffer ++ s.accepted data, numWritten } := by
  rw [write, accepted]
  split
  · refine ⟨s.numWritten, ?_⟩
    rw [List.append_nil]
  · exact ⟨_, rfl⟩

section

variable (s : ByteStream) (data : List UInt8)

@[simp] theorem write_buffer : (s.write data).1.buffer = s.buffer ++ s.accepted data := by
  obtain ⟨_, h⟩ := s.write_frame data
  rw [h]

@[simp] theorem write_capacity : (s.write data).1.capacity = s.capacity := by
  obtain ⟨_, h⟩ := s.write_frame data
  rw [h]

@[simp] theorem write_inputEnded : (s.write data).1.inputEnded = s.inputEnded := by
  obtain ⟨_, h⟩ := s.write_frame data
  rw [h]

@[simp] theorem write_error : (s.write data).1.error = s.error := by
  obtain ⟨_, h⟩ := s.write_frame data
  rw [h]

@[simp] theorem write_numRead : (s.write data).1.numRead = s.numRead := by
  obtain ⟨_, h⟩ := s.write_frame data
  rw [h]

end

theorem write_numWritten {s : ByteStream} (h : s.numWritten < 2 ^ 64) (data : List UInt8) :
    (s.write data).1.numWritten = u64 (s.numWritten + (s.accepted data).length) := by
  unfold write accepted
  split
  · simp [u64_of_lt h]
  · rfl

theorem accepted_of_ended {s : ByteStream} (h : s.inputEnded = true) (data : List UInt8) :
    s.accepted data = [] := by
  simp [accepted, h]

theorem accepted_prefix (s : ByteStream) (data : List UInt8) : s.accepted data <+: data := by
  unfold accepted
  split
  · exact List.nil_prefix
  · exact List.take_prefix ..

theorem WF.remainingCapacity_eq {s : ByteStream} (h : s.WF) :
    s.remainingCapacity = s.capacity - s.buffer.length := sub64_of_le h.size h.fits

theorem WF.accepted_le {s : ByteStream} (h : s.WF) (data : List UInt8) :
    s.buffer.length + (s.accepted data).length ≤ s.capacity := by
  have hfits := h.fits
  unfold accepted
  split
  · simpa using hfits
  · have hcount := intCount_le (min data.length s.remainingCapacity)
    rw [h.remainingCapacity_eq] at hcount ⊢
    rw [List.length_take]
    omega

/-- A write that fits the free space and an `int` is taken whole. -/
theorem WF.accepted_eq {s : ByteStream} (h : s.WF) {data : List UInt8}
    (hopen : s.inputEnded = false) (hfit : s.buffer.length + data.length ≤ s.capacity)
    (hint : data.length < 2 ^ 31) : s.accepted data = data := by
  have hmin : min data.length s.remainingCapacity = data.length := by
    rw [h.remainingCapacity_eq]
    omega
  simp [accepted, hopen, hmin, intCount_of_lt hint]

theorem WF.write {s : ByteStream} (h : s.WF) (data : List UInt8) : (s.write data).1.WF where
  fits := by
    rw [write_buffer, write_capacity, List.length_append]
    exact h.accepted_le data
  size := by
    rw [write_capacity]
    exact h.size

theorem appended_of_buffer {before after : ByteStream} {w : List UInt8}
    (h : after.buffer = before.buffer ++ w) : appended before after = w := by
  rw [appended, h, List.drop_left]

/-! ### Reading -/

theorem popOutput_buffer (s : ByteStream) (len : ℕ) :
    (s.popOutput len).buffer = s.buffer.drop (intCount (min len s.bufferSize)) := rfl

/-- What `read` returns and what it leaves are the buffer. -/
theorem peekOutput_append_popOutput (s : ByteStream) (len : ℕ) :
    s.peekOutput len ++ (s.popOutput len).buffer = s.buffer := List.take_append_drop ..

theorem popOutput_length_le (s : ByteStream) (len : ℕ) :
    (s.popOutput len).buffer.length ≤ s.buffer.length := by
  rw [popOutput_buffer, List.length_drop]
  omega

theorem WF.popOutput {s : ByteStream} (h : s.WF) (len : ℕ) : (s.popOutput len).WF where
  fits := (s.popOutput_length_le len).trans h.fits
  size := h.size

/-- A read of fewer than `2 ^ 31` bytes takes as many as there are. -/
theorem peekOutput_of_lt (s : ByteStream) {len : ℕ} (h : len < 2 ^ 31) :
    s.peekOutput len = s.buffer.take len := by
  unfold peekOutput bufferSize
  rw [intCount_of_lt (by omega), List.take_eq_take_iff]
  omega

theorem popOutput_numRead (s : ByteStream) {len : ℕ} (h : len < 2 ^ 31) :
    (s.popOutput len).numRead = u64 (s.numRead + (s.peekOutput len).length) := by
  unfold peekOutput popOutput bufferSize
  rw [intCount_of_lt (by omega), List.length_take]
  simp only [min_assoc, min_self]

theorem eof_iff (s : ByteStream) : s.eof = true ↔ s.inputEnded = true ∧ s.buffer = [] := by
  simp [eof, bufferEmpty, bufferSize]

theorem new_WF {capacity : ℕ} (h : capacity < 2 ^ 64) : (new capacity).WF :=
  ⟨Nat.zero_le _, h⟩

theorem WF.endInput {s : ByteStream} (h : s.WF) : s.endInput.WF := ⟨h.fits, h.size⟩

theorem WF.setError {s : ByteStream} (h : s.WF) : s.setError.WF := ⟨h.fits, h.size⟩

end ByteStream

end Sponge
