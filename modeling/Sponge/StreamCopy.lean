import Sponge.ByteStreamFifo
import Sponge.EventLoop

/-!
# Copying between a socket and the terminal

`bidirectional_stream_copy` runs an event loop with four rules over two byte streams: one reads from
the standard input into the outbound stream, one writes that stream to the socket, and the other two
do the same from the socket to the standard output.  The two directions have the same code but for
the way they end, so they are indexed by `Way`.

The results are about every run, for every kernel: nothing is reordered, doubled or made up, the
only exceptions are the kernel's, and a copy that ends by itself has copied everything, unless the
descriptor it writes to hung up.
-/

namespace Sponge

open Throwing Hoare EventLoop

inductive Port where
  | stdin
  | stdout
  | socket
deriving DecidableEq, Repr

/-- The two directions: `outbound` from the standard input to the socket, `inbound` from the socket
to the standard output. -/
inductive Way where
  | outbound
  | inbound
deriving DecidableEq, Repr

namespace Way

def source : Way → Port
  | .outbound => .stdin
  | .inbound => .socket

def sink : Way → Port
  | .outbound => .socket
  | .inbound => .stdout

def other : Way → Way
  | .outbound => .inbound
  | .inbound => .outbound

theorem sink_ne_source (way : Way) : way.sink ≠ way.source := by
  cases way <;> nofun

theorem source_injective {way way' : Way} (h : way.source = way'.source) : way = way' := by
  cases way <;> cases way' <;> first | rfl | cases h

theorem sink_injective {way way' : Way} (h : way.sink = way'.sink) : way = way' := by
  cases way <;> cases way' <;> first | rfl | cases h

end Way

structure StreamCopy where
  fd : Port → FileDescriptor
  stream : Way → ByteStream
  shutdown : Way → Bool

namespace StreamCopy

def maxCopyLength : ℕ := 65536

def bufferSize : ℕ := 1048576

/-- The descriptors and two empty streams. -/
def start (fd : Port → FileDescriptor) : StreamCopy :=
  { fd := fd, stream := fun _ => ByteStream.new bufferSize, shutdown := fun _ => false }

def setFd (s : StreamCopy) (p : Port) (fd : FileDescriptor) : StreamCopy :=
  { s with fd := Function.update s.fd p fd }

def setStream (s : StreamCopy) (way : Way) (stream : ByteStream) : StreamCopy :=
  { s with stream := Function.update s.stream way stream }

def setShutdown (s : StreamCopy) (way : Way) : StreamCopy :=
  { s with shutdown := Function.update s.shutdown way true }

def endInput (s : StreamCopy) (way : Way) : StreamCopy := s.setStream way (s.stream way).endInput

def onFd {α : Type} (p : Port) (m : SysCall FileDescriptor α) : SysCall StreamCopy α :=
  zoom (fun s => s.fd p) (fun s fd => s.setFd p fd) m

/-- Rules 1 and 3: read into the stream, and end it at the end of the file. -/
def readCallback (way : Way) : SysCall StreamCopy Unit := do
  let s ← get
  let data ← onFd way.source (FileDescriptor.read (s.stream way).remainingCapacity)
  modify fun s => s.setStream way ((s.stream way).write data).1
  modify fun s => if (s.fd way.source).eof then s.endInput way else s

def readInterest (way : Way) (s : StreamCopy) : Bool :=
  !(s.stream way).error && decide ((s.stream way).remainingCapacity > 0) &&
    !(s.stream way.other).error

/-- What is done once everything is written: `shutdown(SHUT_WR)` on the socket, `close` on the
standard output. -/
def finish : Way → SysCall FileDescriptor Unit
  | .outbound => FileDescriptor.shutdown .wr
  | .inbound => FileDescriptor.close

def finishIfEof (way : Way) : SysCall StreamCopy Unit := do
  let s ← get
  if (s.stream way).eof = true then
    onFd way.sink (finish way)
    modify fun s => s.setShutdown way
  else return ()

/-- What one write offers to the kernel. -/
def offered (s : StreamCopy) (way : Way) : BufferViewList :=
  [(s.stream way).peekOutput (min maxCopyLength (s.stream way).bufferSize)]

/-- Rules 2 and 4: write from the stream, and pop what was written. -/
def writeCallback (way : Way) : SysCall StreamCopy Unit := do
  let s ← get
  let bytesWritten ← onFd way.sink (FileDescriptor.write (s.offered way) false)
  modify fun s => s.setStream way ((s.stream way).popOutput bytesWritten)
  finishIfEof way

def writeInterest (way : Way) (s : StreamCopy) : Bool :=
  !(s.stream way).bufferEmpty || (s.stream way).eof && !s.shutdown way

inductive CopyRule where
  | read (way : Way)
  | write (way : Way)
deriving DecidableEq, Repr

def copyRule : CopyRule → Rule StreamCopy
  | .read way =>
    { fd := fun s => s.fd way.source, direction := .In, callback := readCallback way
      interest := readInterest way, cancel := modify fun s => s.endInput way }
  | .write way =>
    { fd := fun s => s.fd way.sink, direction := .Out, callback := writeCallback way
      interest := writeInterest way, cancel := modify fun s => s.endInput way }

/-- The rules in the order in which they are added. -/
def rules : List CopyRule := [.read .outbound, .write .outbound, .read .inbound, .write .inbound]

/-- The loop runs until `wait_next_event` says `Exit`. -/
def bidirectionalStreamCopy (fd : Port → FileDescriptor) (polls : List PollOutcome) :
    Loop CopyRule StreamCopy :=
  Run.run (loopStep copyRule) { rules := rules, world := start fd } polls

/-! ### What the callbacks do -/

variable {s s' : StreamCopy} {way : Way}

@[simp] theorem setFd_self (s : StreamCopy) (p : Port) (fd : FileDescriptor) :
    (s.setFd p fd).fd p = fd := Function.update_self ..

@[simp] theorem setFd_of_ne (s : StreamCopy) {p q : Port} (h : q ≠ p) (fd : FileDescriptor) :
    (s.setFd p fd).fd q = s.fd q := Function.update_of_ne h ..

@[simp] theorem setFd_stream (s : StreamCopy) (p : Port) (fd : FileDescriptor) :
    (s.setFd p fd).stream = s.stream := rfl

@[simp] theorem setFd_shutdown (s : StreamCopy) (p : Port) (fd : FileDescriptor) :
    (s.setFd p fd).shutdown = s.shutdown := rfl

@[simp] theorem setStream_self (s : StreamCopy) (way : Way) (stream : ByteStream) :
    (s.setStream way stream).stream way = stream := Function.update_self ..

@[simp] theorem setStream_of_ne (s : StreamCopy) {way way' : Way} (h : way' ≠ way)
    (stream : ByteStream) : (s.setStream way stream).stream way' = s.stream way' :=
  Function.update_of_ne h ..

@[simp] theorem setStream_fd (s : StreamCopy) (way : Way) (stream : ByteStream) :
    (s.setStream way stream).fd = s.fd := rfl

@[simp] theorem setStream_shutdown (s : StreamCopy) (way : Way) (stream : ByteStream) :
    (s.setStream way stream).shutdown = s.shutdown := rfl

@[simp] theorem setShutdown_self (s : StreamCopy) (way : Way) :
    (s.setShutdown way).shutdown way = true := Function.update_self ..

@[simp] theorem setShutdown_of_ne (s : StreamCopy) {way way' : Way} (h : way' ≠ way) :
    (s.setShutdown way).shutdown way' = s.shutdown way' := Function.update_of_ne h ..

@[simp] theorem setShutdown_fd (s : StreamCopy) (way : Way) : (s.setShutdown way).fd = s.fd := rfl

@[simp] theorem setShutdown_stream (s : StreamCopy) (way : Way) :
    (s.setShutdown way).stream = s.stream := rfl

theorem setStream_setStream (s : StreamCopy) (way : Way) (stream stream' : ByteStream) :
    (s.setStream way stream).setStream way stream' = s.setStream way stream' := by
  rw [setStream, setStream, setStream, Function.update_idem]

theorem onFd_ok {α : Type} {p : Port} {m : SysCall FileDescriptor α} {a : α} {fd : FileDescriptor}
    (h : m (s.fd p) = .ok a fd) : onFd p m s = .ok a (s.setFd p fd) := zoom_ok h

theorem onFd_error {α : Type} {p : Port} {m : SysCall FileDescriptor α} {e : SystemException}
    {fd : FileDescriptor} (h : m (s.fd p) = .error e fd) :
    onFd p m s = .error e (s.setFd p fd) := zoom_error h

/-- The descriptor after a read of `str`. -/
def readFd (s : StreamCopy) (way : Way) (str : List UInt8) : FileDescriptor :=
  (FileDescriptor.receive (s.stream way).remainingCapacity str
    (s.fd way.source).popRead).registerRead

/-- The stream after a read of `str`. -/
def readStream (s : StreamCopy) (way : Way) (str : List UInt8) : ByteStream :=
  if (s.readFd way str).eof then ((s.stream way).write str).1.endInput
  else ((s.stream way).write str).1

theorem readCallback_cases (way : Way) (s : StreamCopy) :
    (∃ str, str.length ≤ min FileDescriptor.BUFFER_SIZE (s.stream way).remainingCapacity ∧
        readCallback way s =
          .ok () ((s.setFd way.source (s.readFd way str)).setStream way (s.readStream way str))) ∨
      ∃ e fd, KernelFault e ∧ (s.fd way.source).received <+: fd.received ∧
        fd.sent = (s.fd way.source).sent ∧
        readCallback way s = .error e (s.setFd way.source fd) := by
  have hstart : readCallback way s =
      (onFd way.source (FileDescriptor.read (s.stream way).remainingCapacity) >>= fun data =>
        modify (fun s => s.setStream way ((s.stream way).write data).1) >>= fun _ =>
          modify fun s => if (s.fd way.source).eof then s.endInput way else s) s := rfl
  rw [hstart]
  rcases FileDescriptor.read_cases (s.stream way).remainingCapacity (s.fd way.source) with
    ⟨str, -, hlen, hread⟩ | ⟨errno, hread⟩ | ⟨str, -, hread⟩
  · refine Or.inl ⟨str, hlen, ?_⟩
    rw [bind_ok (onFd_ok hread), modify_bind, readStream]
    show EStateM.Result.ok () (if (((s.setFd way.source (s.readFd way str)).setStream way
      ((s.stream way).write str).1).fd way.source).eof = true then _ else _) = _
    rw [setStream_fd, setFd_self]
    split
    · rw [endInput, setStream_setStream, setStream_self]
      rfl
    · rfl
  · refine Or.inr ⟨_, _, .unix "read" errno, ?_, ?_, bind_error (onFd_error hread) _⟩
    · exact List.prefix_rfl
    · rfl
  · refine Or.inr ⟨_, _, .readTooMuch, ?_, ?_, bind_error (onFd_error hread) _⟩
    · exact List.prefix_append ..
    · rfl

/-- The descriptor after `finish`. -/
def finished : Way → FileDescriptor → FileDescriptor
  | .outbound, fd => fd.popShutdown.registerWrite
  | .inbound, fd => fd.popClose.setClosed

theorem finish_cases (way : Way) (fd : FileDescriptor) :
    finish way fd = .ok () (finished way fd) ∨
      ∃ e fd', KernelFault e ∧ finish way fd = .error e fd' ∧ fd'.received = fd.received ∧
        fd'.sent = fd.sent := by
  cases way with
  | outbound =>
    rcases FileDescriptor.shutdown_cases .wr fd with hok | ⟨errno, herr⟩
    · exact Or.inl hok
    · exact Or.inr ⟨_, _, .unix "shutdown" errno, herr, rfl, rfl⟩
  | inbound =>
    rcases FileDescriptor.close_cases fd with hok | ⟨errno, herr⟩
    · exact Or.inl hok
    · exact Or.inr ⟨_, _, .unix "close" errno, herr, rfl, rfl⟩

/-- The end of a write: nothing more to do, or the direction is shut down. -/
theorem finishIfEof_cases (way : Way) (s : StreamCopy) :
    ((s.stream way).eof = false ∧ finishIfEof way s = .ok () s) ∨
      ((s.stream way).eof = true ∧ finishIfEof way s =
        .ok () ((s.setFd way.sink (finished way (s.fd way.sink))).setShutdown way)) ∨
      ∃ e fd, KernelFault e ∧ finishIfEof way s = .error e (s.setFd way.sink fd) ∧
        fd.received = (s.fd way.sink).received ∧ fd.sent = (s.fd way.sink).sent := by
  rw [finishIfEof, get_bind]
  cases heof : (s.stream way).eof with
  | false => exact Or.inl ⟨rfl, rfl⟩
  | true =>
    right
    rw [if_pos rfl]
    rcases finish_cases way (s.fd way.sink) with hok | ⟨e, fd, he, herr, hframe⟩
    · refine Or.inl ⟨rfl, ?_⟩
      rw [bind_ok (onFd_ok hok)]
      rfl
    · exact Or.inr ⟨e, fd, he, bind_error (onFd_error herr) _, hframe⟩

/-- The state after `n` bytes were written. -/
def written (s : StreamCopy) (way : Way) (n : ℕ) (writes : List (Answer ℕ)) : StreamCopy :=
  (s.setFd way.sink ((s.fd way.sink).wrote ((s.offered way).flatten.take n) writes
    ((s.fd way.sink).writeCount + 1))).setStream way ((s.stream way).popOutput n)

theorem amount_lt (s : StreamCopy) (way : Way) :
    min maxCopyLength (s.stream way).bufferSize < 2 ^ 31 :=
  (min_le_left _ _).trans_lt (by decide)

theorem offered_prefix (s : StreamCopy) (way : Way) :
    (s.offered way).flatten <+: (s.stream way).buffer := by
  rw [offered, List.flatten_cons, List.flatten_nil, List.append_nil,
    ByteStream.peekOutput_of_lt _ (s.amount_lt way)]
  exact List.take_prefix ..

/-- **What a write does**: it takes a part of what is offered, and then may end the direction; or it
throws. -/
theorem writeCallback_cases (way : Way) (s : StreamCopy) :
    (∃ n writes, FileDescriptor.Takes n (s.offered way) ∧
        writeCallback way s = finishIfEof way (s.written way n writes)) ∨
      ∃ e fd, KernelFault e ∧ writeCallback way s = .error e (s.setFd way.sink fd) ∧
        fd.received = (s.fd way.sink).received ∧
        ∃ done, done <+: (s.stream way).buffer ∧ fd.sent = (s.fd way.sink).sent ++ done := by
  have hlen : (s.offered way).flatten.length < 2 ^ 63 :=
    FileDescriptor.length_flatten_peekOutput_lt (s.stream way) (s.amount_lt way)
  rw [writeCallback, get_bind]
  rcases FileDescriptor.write_once_cases hlen (s.fd way.sink) with
    ⟨n, writes, hn, hwrite⟩ | ⟨e, done, writes, he, hdone, hwrite⟩
  · refine Or.inl ⟨n, writes, hn, ?_⟩
    rw [bind_ok (onFd_ok hwrite), modify_bind]
    rfl
  · exact Or.inr ⟨e, _, he, bind_error (onFd_error hwrite) _, rfl, done,
      hdone.trans (s.offered_prefix way), rfl⟩

/-! ### The invariant -/

/-- One direction against the rules that are left. -/
structure WayInv (left : List CopyRule) (s : StreamCopy) (way : Way) : Prop where
  small : (s.stream way).Small
  capacity : (s.stream way).capacity = bufferSize
  noError : (s.stream way).error = false
  /-- What went out and what is still in the stream is the beginning of what came in. -/
  flow : (s.fd way.sink).sent ++ (s.stream way).buffer <+: (s.fd way.source).received
  /-- Nothing is missing, unless the writer was cancelled with work to do. -/
  exact : (s.stream way).inputEnded = false ∨ .write way ∈ left ∨ s.shutdown way = true →
    (s.fd way.sink).sent ++ (s.stream way).buffer = (s.fd way.source).received
  reader : .read way ∉ left → (s.stream way).inputEnded = true
  /-- While the reader goes on, only a cancelled writer ends the stream. -/
  writer : .read way ∈ left → (s.fd way.source).eof = false →
    (s.stream way).inputEnded = true → .write way ∉ left
  shut : s.shutdown way = true →
    (s.stream way).eof = true ∧ (.read way ∉ left ∨ (s.fd way.source).eof = true)

def CopyInv (left : List CopyRule) (s : StreamCopy) : Prop := left.Nodup ∧ ∀ way, WayInv left s way

/-- What is true when an exception is thrown. -/
def CopyThrew (e : SystemException) (s : StreamCopy) : Prop :=
  (KernelFault e ∨ e = pollError) ∧
    ∀ way : Way, (s.fd way.sink).sent <+: (s.fd way.source).received

variable {left left' : List CopyRule}

/-- The direction does not see the change. -/
theorem WayInv.frame (h : WayInv left s way) (hstream : s'.stream way = s.stream way)
    (hshutdown : s'.shutdown way = s.shutdown way)
    (hsent : (s'.fd way.sink).sent = (s.fd way.sink).sent)
    (hreceived : (s'.fd way.source).received = (s.fd way.source).received)
    (heof : (s'.fd way.source).eof = (s.fd way.source).eof)
    (hread : .read way ∈ left' ↔ .read way ∈ left)
    (hwrite : .write way ∈ left' ↔ .write way ∈ left) : WayInv left' s' way := by
  constructor
  all_goals simp only [hstream, hshutdown, hsent, hreceived, heof, hread, hwrite]
  exacts [h.small, h.capacity, h.noError, h.flow, h.exact, h.reader, h.writer, h.shut]

theorem sent_of_wayInv (h : WayInv left s way) :
    (s.fd way.sink).sent <+: (s.fd way.source).received :=
  (List.prefix_append ..).trans h.flow

/-- A cancellation: the stream is ended and the rule is gone. -/
theorem WayInv.cancel (h : WayInv left s way) (hsub : left' ⊆ left)
    (hgone : .read way ∉ left' ∨ .write way ∉ left') : WayInv left' (s.endInput way) way where
  small := by
    rw [endInput, setStream_self]
    exact ⟨h.small.fits, h.small.small⟩
  capacity := by
    rw [endInput, setStream_self]
    exact h.capacity
  noError := by
    rw [endInput, setStream_self]
    exact h.noError
  flow := by
    rw [endInput, setStream_self]
    exact h.flow
  exact hw := by
    rw [endInput, setStream_self] at hw ⊢
    exact h.exact (Or.inr ((hw.resolve_left nofun).imp_left fun hmem => hsub hmem))
  reader _ := by
    rw [endInput, setStream_self]
    rfl
  writer hread _ _ := hgone.resolve_left fun hno => hno hread
  shut hshut := by
    obtain ⟨heof, hover⟩ := h.shut hshut
    rw [endInput, setStream_self]
    refine ⟨?_, hover.imp_left fun hno hmem => hno (hsub hmem)⟩
    exact (ByteStream.eof_iff _).mpr ⟨rfl, ((ByteStream.eof_iff _).mp heof).2⟩

/-- The reader reads: what it asked for fits the stream, unless the stream has been ended. -/
theorem accepted_eq (h : WayInv left s way) {str : List UInt8}
    (hlen : str.length ≤ (s.stream way).remainingCapacity)
    (hopen : (s.stream way).inputEnded = false) : (s.stream way).accepted str = str := by
  rw [h.small.accepted_eq, ByteStream.room, hopen, if_neg Bool.false_ne_true,
    ← h.small.remainingCapacity_eq, min_eq_left hlen, List.take_length]

theorem readStream_frame (s : StreamCopy) (way : Way) (str : List UInt8) :
    ∃ numWritten, s.readStream way str = { s.stream way with
      buffer := (s.stream way).buffer ++ (s.stream way).accepted str
      inputEnded := (s.stream way).inputEnded || (s.readFd way str).eof
      numWritten } := by
  obtain ⟨numWritten, hwrite⟩ := (s.stream way).write_frame str
  refine ⟨numWritten, ?_⟩
  rw [readStream, hwrite]
  cases (s.readFd way str).eof with
  | false => rw [if_neg Bool.false_ne_true, Bool.or_false]
  | true =>
    rw [if_pos rfl, Bool.or_true]
    rfl

theorem readFd_frame (s : StreamCopy) (way : Way) (str : List UInt8) :
    (s.readFd way str).received = (s.fd way.source).received ++ str ∧
      (s.readFd way str).sent = (s.fd way.source).sent ∧
      (s.readFd way str).closed = (s.fd way.source).closed ∧
      (s.readFd way str).readCount = (s.fd way.source).readCount + 1 := ⟨rfl, rfl, rfl, rfl⟩

theorem WayInv.read (h : WayInv left s way) (hread : .read way ∈ left)
    (hfresh : (s.fd way.source).eof = false) {str : List UInt8}
    (hlen : str.length ≤ (s.stream way).remainingCapacity) :
    WayInv left ((s.setFd way.source (s.readFd way str)).setStream way (s.readStream way str))
      way := by
  obtain ⟨numWritten, hstream⟩ := s.readStream_frame way str
  obtain ⟨hreceived, -⟩ := s.readFd_frame way str
  have hnotShut : s.shutdown way = false := by
    by_contra hshut
    rcases (h.shut (Bool.not_eq_false _ ▸ hshut)).2 with hno | heof
    · exact hno hread
    · rw [hfresh] at heof
      cases heof
  -- what is in the stream afterwards, in the two cases
  have hopen : (s.stream way).inputEnded = false →
      (s.fd way.sink).sent ++ (s.readStream way str).buffer =
        (s.readFd way str).received := by
    intro hended
    rw [hstream, hreceived, accepted_eq h hlen hended, ← h.exact (Or.inl hended),
      List.append_assoc]
  have hended : (s.stream way).inputEnded = true →
      (s.readStream way str).buffer = (s.stream way).buffer := by
    intro hended
    rw [hstream, ByteStream.accepted_of_ended hended, List.append_nil]
  constructor
  all_goals simp only [setStream_self, setStream_fd, setStream_shutdown, setFd_self,
    setFd_shutdown, setFd_of_ne _ way.sink_ne_source, hnotShut]
  case small =>
    refine ⟨?_, by rw [hstream]; exact h.small.small⟩
    rw [hstream, List.length_append]
    exact (ByteStream.WF.accepted_le ⟨h.small.fits, h.small.small.trans (by decide)⟩ str)
  case capacity => rw [hstream]; exact h.capacity
  case noError => rw [hstream]; exact h.noError
  case flow =>
    cases hin : (s.stream way).inputEnded with
    | false => exact hopen hin ▸ List.prefix_rfl
    | true =>
      rw [hended hin, hreceived]
      exact h.flow.trans (List.prefix_append ..)
  case exact =>
    rintro hw
    refine hopen ?_
    by_contra hin
    have hin : (s.stream way).inputEnded = true := Bool.not_eq_false _ ▸ hin
    rcases hw with hw | hw | hw
    · rw [hstream, hin] at hw
      cases hw
    · exact h.writer hread hfresh hin hw
    · cases hw
  case reader => exact fun hno => absurd hread hno
  case writer =>
    intro _ heof hin
    rw [hstream, heof, Bool.or_false] at hin
    exact h.writer hread hfresh hin
  case shut => nofun

/-- The writer writes. -/
theorem WayInv.write (h : WayInv left s way) {n : ℕ} (hn : FileDescriptor.Takes n (s.offered way))
    (writes : List (Answer ℕ)) : WayInv left (s.written way n writes) way := by
  have hflow : ((s.fd way.sink).sent ++ (s.offered way).flatten.take n) ++
      ((s.stream way).popOutput n).buffer = (s.fd way.sink).sent ++ (s.stream way).buffer := by
    rw [List.append_assoc, offered,
      FileDescriptor.take_peekOutput_append (s.stream way) (s.amount_lt way) hn]
  have hpop := (s.stream way).popOutput_length_le n
  constructor
  all_goals simp only [written, setStream_self, setStream_fd, setStream_shutdown, setFd_self,
    setFd_shutdown, setFd_of_ne _ way.sink_ne_source.symm, FileDescriptor.wrote]
  case small => exact ⟨hpop.trans h.small.fits, h.small.small⟩
  case capacity => exact h.capacity
  case noError => exact h.noError
  case flow => exact hflow ▸ h.flow
  case exact => exact fun hw => hflow.trans (h.exact hw)
  case reader => exact h.reader
  case writer => exact h.writer
  case shut =>
    intro hshut
    obtain ⟨heof, hover⟩ := h.shut hshut
    obtain ⟨hin, hempty⟩ := (ByteStream.eof_iff _).mp heof
    refine ⟨(ByteStream.eof_iff _).mpr ⟨hin, ?_⟩, hover⟩
    rw [ByteStream.popOutput_buffer, hempty, List.drop_nil]

theorem finished_frame (way : Way) (fd : FileDescriptor) :
    (finished way fd).received = fd.received ∧ (finished way fd).sent = fd.sent := by
  cases way <;> exact ⟨rfl, rfl⟩

/-- The writer has written everything, and shuts down. -/
theorem WayInv.finish (h : WayInv left s way) (hwrite : .write way ∈ left)
    (heof : (s.stream way).eof = true) :
    WayInv left ((s.setFd way.sink (finished way (s.fd way.sink))).setShutdown way) way := by
  have hin := ((ByteStream.eof_iff _).mp heof).1
  obtain ⟨-, hsent⟩ := finished_frame way (s.fd way.sink)
  constructor
  all_goals simp only [setShutdown_self, setShutdown_fd, setShutdown_stream, setFd_stream,
    setFd_self, setFd_of_ne _ way.sink_ne_source.symm, hsent]
  case small => exact h.small
  case capacity => exact h.capacity
  case noError => exact h.noError
  case flow => exact h.flow
  case exact => exact fun _ => h.exact (Or.inr (Or.inl hwrite))
  case reader => exact h.reader
  case writer => exact h.writer
  case shut =>
    refine fun _ => ⟨heof, ?_⟩
    by_contra hover
    obtain ⟨hread, hsource⟩ := not_or.mp hover
    exact h.writer (not_not.mp hread) (Bool.not_eq_true _ ▸ hsource) hin hwrite

/-- What a change of one descriptor leaves. -/
theorem setFd_same {α : Type} (f : FileDescriptor → α) {p : Port} {fd : FileDescriptor}
    (h : f fd = f (s.fd p)) (q : Port) : f ((s.setFd p fd).fd q) = f (s.fd q) := by
  by_cases hq : q = p
  · rw [hq, setFd_self, h]
  · rw [setFd_of_ne _ hq]

/-! ### The rules keep it -/

theorem copyInv_cancel {pre post : List CopyRule} {i : CopyRule}
    (hgone : i = .read way ∨ i = .write way) (h : CopyInv (pre ++ i :: post) s) :
    CopyInv (pre ++ post) (s.endInput way) := by
  have hsub : (pre ++ post).Sublist (pre ++ i :: post) :=
    (List.Sublist.refl pre).append (List.sublist_cons_self i post)
  have hi : i ∉ pre ++ post := by
    have := List.nodup_middle.mp h.1
    exact (List.nodup_cons.mp this).1
  have hmem : ∀ j, j ≠ i → (j ∈ pre ++ post ↔ j ∈ pre ++ i :: post) := by
    intro j hj
    simp only [List.mem_append, List.mem_cons, hj, false_or]
  refine ⟨h.1.sublist hsub, fun way' => ?_⟩
  by_cases hway : way' = way
  · subst hway
    refine (h.2 way').cancel hsub.subset ?_
    rcases hgone with rfl | rfl
    · exact Or.inl hi
    · exact Or.inr hi
  · have hne : ∀ j : CopyRule, j = .read way' ∨ j = .write way' → j ≠ i := by
      rcases hgone with rfl | rfl <;> rintro _ (rfl | rfl) <;> simp [hway]
    exact (h.2 way').frame (setStream_of_ne _ hway _) rfl rfl rfl rfl
      (hmem _ (hne _ (Or.inl rfl))) (hmem _ (hne _ (Or.inr rfl)))

/-- What an exception inside a callback leaves. -/
theorem copyThrew_of_kernelFault {e : SystemException} (he : KernelFault e) (h : CopyInv left s)
    {p : Port} {fd : FileDescriptor} (hreceived : (s.fd p).received <+: fd.received)
    (hsent : ∀ way : Way, way.sink = p → fd.sent <+: (s.fd way.source).received) :
    CopyThrew e (s.setFd p fd) := by
  refine ⟨Or.inl he, fun way => ?_⟩
  have hsource : (s.fd way.source).received <+: ((s.setFd p fd).fd way.source).received := by
    by_cases hq : way.source = p
    · rw [hq, setFd_self]
      exact hreceived
    · rw [setFd_of_ne _ hq]
  by_cases hq : way.sink = p
  · rw [hq, setFd_self]
    exact (hsent way hq).trans hsource
  · rw [setFd_of_ne _ hq]
    exact (sent_of_wayInv (h.2 way)).trans hsource

/-- **A read keeps the invariant.** -/
theorem copyInv_read (hread : .read way ∈ left) :
    Triple (fun s => CopyInv left s ∧ (s.fd way.source).eof = false)
      (readCallback way)
      (fun _ s => CopyInv left s) CopyThrew := by
  rintro s ⟨h, hfresh⟩
  rcases readCallback_cases way s with ⟨str, hlen, hok⟩ | ⟨e, fd, he, hreceived, hsent, herr⟩
  · refine returned hok ⟨h.1, fun way' => ?_⟩
    by_cases hway : way' = way
    · subst hway
      exact (h.2 way').read hread hfresh (hlen.trans (min_le_right _ _))
    · have hne : way'.source ≠ way.source := fun hs => hway (Way.source_injective hs)
      obtain ⟨-, hsent, -⟩ := s.readFd_frame way str
      refine (h.2 way').frame (setStream_of_ne _ hway _) rfl ?_ ?_ ?_ Iff.rfl Iff.rfl
      · rw [setStream_fd, setFd_same FileDescriptor.sent hsent]
      · rw [setStream_fd, setFd_of_ne _ hne]
      · rw [setStream_fd, setFd_of_ne _ hne]
  · refine thrown herr (copyThrew_of_kernelFault he h hreceived fun way' hsink => ?_)
    rw [hsent, ← hsink]
    exact sent_of_wayInv (h.2 way')

/-- The invariant after a part was written. -/
theorem copyInv_written (h : CopyInv left s) {n : ℕ} (hn : FileDescriptor.Takes n (s.offered way))
    (writes : List (Answer ℕ)) : CopyInv left (s.written way n writes) := by
  refine ⟨h.1, fun way' => ?_⟩
  by_cases hway : way' = way
  · subst hway
    exact (h.2 way').write hn writes
  · have hne : way'.sink ≠ way.sink := fun hs => hway (Way.sink_injective hs)
    refine (h.2 way').frame (setStream_of_ne _ hway _) rfl ?_ ?_ ?_ Iff.rfl Iff.rfl
    · rw [written, setStream_fd, setFd_of_ne _ hne]
    · rw [written, setStream_fd, setFd_same FileDescriptor.received]
      rfl
    · rw [written, setStream_fd, setFd_same FileDescriptor.eof]
      rfl

/-- The invariant after the end of a direction. -/
theorem copyInv_finished (h : CopyInv left s) (hwrite : .write way ∈ left)
    (heof : (s.stream way).eof = true) :
    CopyInv left ((s.setFd way.sink (finished way (s.fd way.sink))).setShutdown way) := by
  obtain ⟨hreceived, hsent⟩ := finished_frame way (s.fd way.sink)
  refine ⟨h.1, fun way' => ?_⟩
  by_cases hway : way' = way
  · subst hway
    exact (h.2 way').finish hwrite heof
  · refine (h.2 way').frame rfl (setShutdown_of_ne _ hway) ?_ ?_ ?_ Iff.rfl Iff.rfl
    · exact setFd_same FileDescriptor.sent hsent _
    · exact setFd_same FileDescriptor.received hreceived _
    · -- only the standard output is closed, and nobody reads from it
      cases way with
      | outbound =>
        rw [setShutdown_fd, setFd_same FileDescriptor.eof]
        rfl
      | inbound =>
        have hne : way'.source ≠ Way.inbound.sink := by cases way' <;> nofun
        rw [setShutdown_fd, setFd_of_ne _ hne]

/-- **A write keeps the invariant.** -/
theorem copyInv_write (hwrite : .write way ∈ left) :
    Triple (CopyInv left) (writeCallback way) (fun _ => CopyInv left) CopyThrew := by
  intro s h
  rcases writeCallback_cases way s with
    ⟨n, writes, hn, hcall⟩ | ⟨e, fd, he, herr, hreceived, done, hdone, hsent⟩
  · have hwritten := copyInv_written h hn writes
    rw [hcall]
    rcases finishIfEof_cases way (s.written way n writes) with
      ⟨-, hok⟩ | ⟨heof, hok⟩ | ⟨e, fd, he, herr, hreceived, hsent⟩
    · exact returned hok hwritten
    · exact returned hok (copyInv_finished hwritten hwrite heof)
    · refine thrown herr (copyThrew_of_kernelFault he hwritten (hreceived ▸ List.prefix_rfl) ?_)
      intro way' hsink
      rw [hsent, ← hsink]
      exact sent_of_wayInv (hwritten.2 way')
  · refine thrown herr (copyThrew_of_kernelFault he h (hreceived ▸ List.prefix_rfl) ?_)
    intro way' hsink
    have hsame := Way.sink_injective hsink
    subst hsame
    rw [hsent]
    exact ((List.prefix_append_right_inj _).mpr hdone).trans (h.2 way').flow

/-! ### Nobody waits busily -/

/-- Every read is counted. -/
theorem readCallback_counts {u : Unit} (hok : readCallback way s = .ok u s') :
    (s'.fd way.source).readCount = (s.fd way.source).readCount + 1 := by
  rcases readCallback_cases way s with ⟨str, -, hcall⟩ | ⟨e, fd, -, -, -, hcall⟩
  · rw [hcall] at hok
    cases hok
    rw [setStream_fd, setFd_self, (s.readFd_frame way str).2.2.2]
  · rw [hcall] at hok
    cases hok

/-- Every write is counted, and the shutdown of the socket once more. -/
theorem writeCallback_counts {u : Unit} (hok : writeCallback way s = .ok u s') :
    (s'.fd way.sink).writeCount = (s.fd way.sink).writeCount + 1 ∨
      (s'.fd way.sink).writeCount = (s.fd way.sink).writeCount + 1 + 1 := by
  rcases writeCallback_cases way s with ⟨n, writes, -, hcall⟩ | ⟨e, fd, -, hcall, -⟩
  · have hwritten : ((s.written way n writes).fd way.sink).writeCount =
        (s.fd way.sink).writeCount + 1 := by
      rw [written, setStream_fd, setFd_self, FileDescriptor.wrote]
    rw [hcall] at hok
    rcases finishIfEof_cases way (s.written way n writes) with
      ⟨-, hend⟩ | ⟨-, hend⟩ | ⟨e, fd, -, hend, -⟩
    · rw [hend] at hok
      cases hok
      exact Or.inl hwritten
    · rw [hend] at hok
      cases hok
      rw [setShutdown_fd, setFd_self, ← hwritten]
      cases way with
      | outbound => exact Or.inr rfl
      | inbound => exact Or.inl rfl
    · rw [hend] at hok
      cases hok
  · rw [hcall] at hok
    cases hok

/-! ### What a rule leaves of the others -/

theorem readCallback_frame {u : Unit} (hok : readCallback way s = .ok u s') (p : Port) :
    (s'.fd p).closed = (s.fd p).closed ∧
      (p ≠ way.source → (s'.fd p).eof = (s.fd p).eof) := by
  rcases readCallback_cases way s with ⟨str, -, hcall⟩ | ⟨e, fd, -, -, -, hcall⟩
  · rw [hcall] at hok
    cases hok
    rw [setStream_fd, setFd_same FileDescriptor.closed (s.readFd_frame way str).2.2.1]
    exact ⟨rfl, fun hp => by rw [setFd_of_ne _ hp]⟩
  · rw [hcall] at hok
    cases hok

/-- Only the standard output is ever closed. -/
theorem writeCallback_frame {u : Unit} (hok : writeCallback way s = .ok u s') {p : Port}
    (hp : p ≠ .stdout ∨ way = .outbound) :
    (s'.fd p).eof = (s.fd p).eof ∧ (s'.fd p).closed = (s.fd p).closed := by
  rcases writeCallback_cases way s with ⟨n, writes, -, hcall⟩ | ⟨e, fd, -, hcall, -⟩
  · have hwritten : ((s.written way n writes).fd p).eof = (s.fd p).eof ∧
        ((s.written way n writes).fd p).closed = (s.fd p).closed := by
      rw [written, setStream_fd]
      exact ⟨setFd_same FileDescriptor.eof (by rfl) p, setFd_same FileDescriptor.closed (by rfl) p⟩
    rw [hcall] at hok
    rcases finishIfEof_cases way (s.written way n writes) with
      ⟨-, hend⟩ | ⟨-, hend⟩ | ⟨e, fd, -, hend, -⟩
    · rw [hend] at hok
      cases hok
      exact hwritten
    · rw [hend] at hok
      cases hok
      rw [setShutdown_fd, ← hwritten.1, ← hwritten.2]
      cases way with
      | outbound =>
        exact ⟨setFd_same FileDescriptor.eof (by rfl) p,
          setFd_same FileDescriptor.closed (by rfl) p⟩
      | inbound =>
        have hne : p ≠ Way.inbound.sink := hp.resolve_right nofun
        rw [setFd_of_ne _ hne]
        exact ⟨rfl, rfl⟩
    · rw [hend] at hok
      cases hok
  · rw [hcall] at hok
    cases hok

theorem fresh_read : Fresh (copyRule (.read way)) s ↔
    (s.fd way.source).eof = false ∧ (s.fd way.source).closed = false := by
  simp [Fresh, copyRule]

theorem fresh_write : Fresh (copyRule (.write way)) s ↔ (s.fd way.sink).closed = false := by
  simp [Fresh, copyRule]

theorem fresh_callback (i j : CopyRule) (hij : i ≠ j) :
    Triple (Fresh (copyRule i)) (copyRule j).callback (fun _ => Fresh (copyRule i))
      fun _ _ => True := by
  intro s hfresh
  refine ⟨fun u s' hok => ?_, fun _ _ _ => trivial⟩
  cases j with
  | read way =>
    have hframe := readCallback_frame hok
    cases i with
    | read way' =>
      have hne : way'.source ≠ way.source :=
        fun h => hij (congrArg CopyRule.read (Way.source_injective h))
      rw [fresh_read] at hfresh ⊢
      rw [(hframe _).1, (hframe _).2 hne]
      exact hfresh
    | write way' =>
      rw [fresh_write] at hfresh ⊢
      rw [(hframe _).1]
      exact hfresh
  | write way =>
    cases i with
    | read way' =>
      have hp : way'.source ≠ .stdout := by cases way' <;> nofun
      obtain ⟨heof, hclosed⟩ := writeCallback_frame hok (Or.inl hp)
      rw [fresh_read] at hfresh ⊢
      rw [heof, hclosed]
      exact hfresh
    | write way' =>
      have hp : way'.sink ≠ .stdout ∨ way = .outbound := by
        cases way <;> cases way' <;> simp_all [Way.sink]
      rw [fresh_write] at hfresh ⊢
      rw [(writeCallback_frame hok hp).2]
      exact hfresh

theorem cancel_eq (i : CopyRule) :
    ∃ way, (i = .read way ∨ i = .write way) ∧
      (copyRule i).cancel = modify fun s => s.endInput way := by
  cases i with
  | read way => exact ⟨way, Or.inl rfl, rfl⟩
  | write way => exact ⟨way, Or.inr rfl, rfl⟩

theorem fresh_cancel (i j : CopyRule) :
    Triple (Fresh (copyRule i)) (copyRule j).cancel (fun _ => Fresh (copyRule i))
      fun _ _ => True := by
  obtain ⟨way, -, hcancel⟩ := cancel_eq j
  rw [hcancel]
  refine triple_modify _ fun s h => ?_
  cases i with
  | read way' => exact fresh_read.mpr (fresh_read.mp h)
  | write way' => exact fresh_write.mpr (fresh_write.mp h)

/-- **The four rules keep the invariant.** -/
theorem copyRule_handles :
    Handles copyRule (fun i => Fresh (copyRule i)) CopyInv CopyThrew where
  known _ _ := id
  cancel pre i post := by
    obtain ⟨way, hway, hcancel⟩ := cancel_eq i
    rw [hcancel]
    exact triple_modify _ fun _ h => copyInv_cancel hway h
  callback rules i hi before := by
    rintro s ⟨hI, hfresh, rfl⟩
    cases i with
    | read way =>
      have hread := copyInv_read hi s ⟨hI, (fresh_read.mp hfresh).1⟩
      refine ⟨fun u s' hok => ⟨hread.1 u s' hok, fun hcount _ => ?_⟩, hread.2⟩
      exact absurd (hcount.trans (readCallback_counts hok)).symm (succ_ne _)
    | write way =>
      have hwrite := copyInv_write hi s hI
      refine ⟨fun u s' hok => ⟨hwrite.1 u s' hok, fun hcount _ => ?_⟩, hwrite.2⟩
      rcases writeCallback_counts hok with h | h
      · exact absurd (hcount.trans h).symm (succ_ne _)
      · exact absurd (hcount.trans h).symm (succ_succ_ne _)
  frameCancel i j _ := fresh_cancel i j
  frameCallback := fresh_callback
  pollError _ _ h := ⟨Or.inr rfl, fun way => sent_of_wayInv (h.2 way)⟩

/-! ### Whole runs -/

/-- Nothing has gone through the descriptor yet. -/
def Untouched (fd : FileDescriptor) : Prop := fd.received = [] ∧ fd.sent = []

variable {fd : Port → FileDescriptor}

theorem copyInv_start (hfd : ∀ p, Untouched (fd p)) : CopyInv rules (start fd) := by
  refine ⟨by decide, fun way => ?_⟩
  constructor
  case small =>
    refine ⟨Nat.zero_le _, ?_⟩
    show bufferSize < 2 ^ 31
    decide
  case capacity => rfl
  case noError => rfl
  case flow =>
    show (fd way.sink).sent ++ [] <+: _
    rw [(hfd way.sink).2]
    exact List.nil_prefix
  case exact =>
    intro _
    show (fd way.sink).sent ++ [] = (fd way.source).received
    rw [(hfd way.sink).2, (hfd way.source).1]
    rfl
  case reader => exact fun hno => absurd (by cases way <;> decide) hno
  case writer => nofun
  case shut => nofun

theorem copy_sound (hfd : ∀ p, Untouched (fd p)) (polls : List PollOutcome) :
    Sound CopyInv CopyThrew rules (bidirectionalStreamCopy fd polls) :=
  Sound.run copyRule_handles (by decide) (copyInv_start hfd) polls

/-- **The copy is safe.**  In every state of every run, for every kernel, what went out on a
descriptor is the beginning of what came in at the other end of its direction, also when an
exception ends the run; and only the kernel's failures are exceptions: the loop never takes a rule
for a busy waiter. -/
theorem copied_prefix_of_read (hfd : ∀ p, Untouched (fd p)) (polls : List PollOutcome) :
    (∀ way : Way, ((bidirectionalStreamCopy fd polls).world.fd way.sink).sent <+:
        ((bidirectionalStreamCopy fd polls).world.fd way.source).received) ∧
      ∀ e, (bidirectionalStreamCopy fd polls).status = .threw e →
        KernelFault e ∨ e = pollError := by
  have hsound := copy_sound hfd polls
  refine ⟨fun way => ?_, fun e he => (hsound.threw e he).1⟩
  by_cases hthrew : ∃ e, (bidirectionalStreamCopy fd polls).status = .threw e
  · obtain ⟨e, he⟩ := hthrew
    exact (hsound.threw e he).2 way
  · exact sent_of_wayInv ((hsound.holds fun e he => hthrew ⟨e, he⟩).2 way)

/-- Two bytes are typed and the terminal is closed; the socket has a byte for us, takes one byte,
and breaks with `EPIPE` before the other. -/
def brokenPipe : Port → FileDescriptor
  | .stdin => { reads := [.ok [104, 105], .ok []] }
  | .socket => { reads := [.ok [33]], writes := [.ok 1, .error 32] }
  | .stdout => { writes := [.ok 1] }

def brokenPipePolls : List PollOutcome :=
  [.ready [1, 4, 1, 4], .ready [1, 4, 0, 4], .ready [4, 0, 0]]

theorem untouched_brokenPipe (p : Port) : Untouched (brokenPipe p) := by
  cases p <;> exact ⟨rfl, rfl⟩

theorem copied_prefix_of_read_broken_pipe :
    ((bidirectionalStreamCopy brokenPipe brokenPipePolls).world.fd .socket).sent = [104] ∧
      [104] <+: ((bidirectionalStreamCopy brokenPipe brokenPipePolls).world.fd .stdin).received ∧
      (bidirectionalStreamCopy brokenPipe brokenPipePolls).status =
        .threw (.unixError "writev" 32) ∧
      (KernelFault (.unixError "writev" 32) ∨ .unixError "writev" 32 = pollError) := by
  have hsent : ((bidirectionalStreamCopy brokenPipe brokenPipePolls).world.fd .socket).sent =
      [104] := by decide
  have hthrew : (bidirectionalStreamCopy brokenPipe brokenPipePolls).status =
      .threw (.unixError "writev" 32) := by decide
  obtain ⟨hcopy, hfault⟩ := copied_prefix_of_read untouched_brokenPipe brokenPipePolls
  have hprefix := hcopy .outbound
  exact ⟨hsent, hsent ▸ hprefix, hthrew, hfault _ hthrew⟩

/-- The reader of an empty stream is interested. -/
theorem WayInv.reader_interested (h : ∀ way, WayInv left s way)
    (hempty : (s.stream way).buffer = []) : readInterest way s = true := by
  have hroom : (s.stream way).remainingCapacity = bufferSize := by
    rw [(h way).small.remainingCapacity_eq, (h way).capacity, ByteStream.bufferSize, hempty]
    rfl
  rw [readInterest, (h way).noError, (h way.other).noError, hroom]
  decide

/-- The cancellation of a later rule does not wake an earlier one up. -/
theorem cancel_leaves_idle : rules.Pairwise fun i j =>
    Triple (fun s => (copyRule i).interest s = false) (copyRule j).cancel
      (fun _ s => (copyRule i).interest s = false) fun _ _ => True := by
  have hread : ∀ way way' : Way, ∀ s : StreamCopy,
      readInterest way' (s.endInput way) = readInterest way' s := by
    intro way way' s
    have herror : ∀ v, ((s.endInput way).stream v).error = (s.stream v).error ∧
        ((s.endInput way).stream v).remainingCapacity = (s.stream v).remainingCapacity := by
      intro v
      by_cases hv : v = way
      · rw [hv, endInput, setStream_self]
        exact ⟨rfl, rfl⟩
      · rw [endInput, setStream_of_ne _ hv]
        exact ⟨rfl, rfl⟩
    rw [readInterest, (herror way').1, (herror way').2, (herror way'.other).1, readInterest]
  have hwrite : ∀ s : StreamCopy,
      writeInterest .outbound (s.endInput .inbound) = writeInterest .outbound s := by
    intro s
    have hne : Way.outbound ≠ Way.inbound := nofun
    rw [writeInterest, endInput, setStream_of_ne _ hne, setStream_shutdown, writeInterest]
  simp only [rules, List.pairwise_cons, List.mem_cons, List.not_mem_nil, or_false,
    forall_eq_or_imp, forall_eq, IsEmpty.forall_iff, implies_true, and_true, List.Pairwise.nil]
  refine ⟨⟨?_, ?_, ?_⟩, ⟨?_, ?_⟩, ?_⟩
  all_goals refine triple_modify _ fun s hidle => ?_
  · exact (hread _ _ s).trans hidle
  · exact (hread _ _ s).trans hidle
  · exact (hread _ _ s).trans hidle
  · exact (hwrite s).trans hidle
  · exact (hwrite s).trans hidle
  · exact (hread _ _ s).trans hidle

/-- A callback shuts the direction down, or leaves its sink as open as it was. -/
theorem callback_sink {i : CopyRule} {u : Unit} (hok : (copyRule i).callback s = .ok u s')
    (way : Way) :
    s'.shutdown way = true ∨ s'.shutdown way = s.shutdown way ∧
      (s'.fd way.sink).closed = (s.fd way.sink).closed := by
  cases i with
  | read way' =>
    right
    refine ⟨?_, (readCallback_frame hok _).1⟩
    rcases readCallback_cases way' s with ⟨str, -, hcall⟩ | ⟨e, fd, -, -, -, hcall⟩
    · cases hcall.symm.trans hok
      rfl
    · cases hcall.symm.trans hok
  | write way' =>
    rcases writeCallback_cases way' s with ⟨n, writes, -, hcall⟩ | ⟨e, fd, -, hcall, -⟩
    · have hwritten : ((s.written way' n writes).fd way.sink).closed =
          (s.fd way.sink).closed := by
        rw [written, setStream_fd]
        exact setFd_same FileDescriptor.closed (by rfl) _
      rcases finishIfEof_cases way' (s.written way' n writes) with
        ⟨-, hend⟩ | ⟨-, hend⟩ | ⟨e, fd, -, hend, -⟩
      · cases hend.symm.trans (hcall.symm.trans hok)
        exact Or.inr ⟨rfl, hwritten⟩
      · cases hend.symm.trans (hcall.symm.trans hok)
        by_cases hway : way = way'
        · rw [hway]
          exact Or.inl (setShutdown_self ..)
        · have hne : way.sink ≠ way'.sink := fun hs => hway (Way.sink_injective hs)
          refine Or.inr ⟨setShutdown_of_ne _ hway, ?_⟩
          rw [setShutdown_fd, setFd_of_ne _ hne, hwritten]
      · cases hend.symm.trans (hcall.symm.trans hok)
    · cases hcall.symm.trans hok

/-- The direction has been shut down, or its writer is there and can write. -/
def WriterStays (way : Way) (l : Loop CopyRule StreamCopy) : Prop :=
  l.world.shutdown way = true ∨ .write way ∈ l.rules ∧ (l.world.fd way.sink).closed = false

/-- **Step.**  A round without a hangup does not take a writer away before its time. -/
theorem WriterStays.step {l : Loop CopyRule StreamCopy} (hnodup : l.rules.Nodup)
    (h : WriterStays way l) {poll : PollOutcome} (hpoll : poll.hangup = false)
    (hthrew : ∀ e, (loopStep copyRule l poll).status ≠ .threw e) :
    WriterStays way (loopStep copyRule l poll) := by
  have hshut : ∀ j, Triple (fun s => s.shutdown way = true) (copyRule j).callback
      (fun _ s => s.shutdown way = true) fun _ _ => True := by
    intro j s hs
    refine ⟨fun u s' hok => ?_, fun _ _ _ => trivial⟩
    exact (callback_sink hok way).elim id fun hsame => hsame.1.trans hs
  have hopen : ∀ j, Triple
      (fun s => s.shutdown way = true ∨ (s.fd way.sink).closed = false) (copyRule j).callback
      (fun _ s => s.shutdown way = true ∨ (s.fd way.sink).closed = false) fun _ _ => True := by
    intro j s hs
    refine ⟨fun u s' hok => ?_, fun _ _ _ => trivial⟩
    rcases callback_sink hok way with hdone | ⟨hsame, hclosed⟩
    · exact Or.inl hdone
    · rwa [hsame, hclosed]
  have hcancel : ∀ P : StreamCopy → Prop, (∀ s way', P s → P (s.endInput way')) → ∀ j,
      Triple P (copyRule j).cancel (fun _ => P) fun _ _ => True := by
    intro P hP j
    obtain ⟨way', -, hend⟩ := cancel_eq j
    rw [hend]
    exact triple_modify _ fun s => hP s way'
  rw [loopStep, turnWith] at hthrew ⊢
  split
  · rename_i hrun
    rw [if_pos hrun] at hthrew
    rw [EStateM.run] at hthrew ⊢
    cases hcall : waitNextEvent copyRule poll l.rules l.world with
    | error e s =>
      rw [hcall] at hthrew
      exact absurd rfl (hthrew e)
    | ok r s =>
      rcases h with hdone | ⟨hmem, hclosed⟩
      · exact Or.inl ((wait_keeps (hcancel _ fun _ _ => id) hshut poll _ hnodup).ok hdone hcall)
      · have hstay := (wait_mem poll hpoll l.rules (fresh_cancel (.write way))).ok
          (fresh_write.mpr hclosed) hcall hmem
        exact ((wait_keeps (hcancel _ fun _ _ => id) hopen poll _ hnodup).ok
          (Or.inr hclosed) hcall).imp_right fun hclosed' => ⟨hstay, hclosed'⟩
  · exact h

/-- **Run.**  Without a hangup, a loop that has not thrown has its writers. -/
theorem writerStays_copy (hfd : ∀ p, Untouched (fd p)) (hopen : (fd way.sink).closed = false)
    (polls : List PollOutcome) (hpolls : ∀ poll ∈ polls, poll.hangup = false)
    (hthrew : ∀ e, (bidirectionalStreamCopy fd polls).status ≠ .threw e) :
    WriterStays way (bidirectionalStreamCopy fd polls) := by
  induction polls using List.reverseRecOn with
  | nil =>
    refine Or.inr ⟨?_, hopen⟩
    show .write way ∈ rules
    cases way <;> decide
  | append_singleton polls poll ih =>
    have hnodup := (by decide : rules.Nodup).sublist (copy_sound hfd polls).rules
    rw [bidirectionalStreamCopy, Run.run_concat, ← bidirectionalStreamCopy] at hthrew ⊢
    refine WriterStays.step hnodup (ih ?_ ?_)
      (hpolls poll (List.mem_append_right _ List.mem_cons_self)) hthrew
    · exact fun poll' hpoll' => hpolls poll' (List.mem_append_left _ hpoll')
    · -- a loop that has thrown stays so
      intro e he
      refine hthrew e ?_
      rw [loopStep, turnWith, he, if_neg (by simp), he]

/-- Why the writer of a direction that was not shut down is gone. -/
theorem cause_of_writer_gone (hfd : ∀ p, Untouched (fd p)) (polls : List PollOutcome) (way : Way)
    (hthrew : ∀ e, (bidirectionalStreamCopy fd polls).status ≠ .threw e)
    (hshut : (bidirectionalStreamCopy fd polls).world.shutdown way = false)
    (hgone : .write way ∉ (bidirectionalStreamCopy fd polls).rules) :
    (∃ poll ∈ polls, poll.hangup = true) ∨ (fd way.sink).closed = true := by
  by_contra hno
  obtain ⟨hhup, hclosed⟩ := not_or.mp hno
  have hopen : (fd way.sink).closed = false := Bool.not_eq_true _ ▸ hclosed
  have hquiet : ∀ poll ∈ polls, poll.hangup = false := by
    intro poll hpoll
    by_contra hup
    exact hhup ⟨poll, hpoll, Bool.not_eq_false _ ▸ hup⟩
  rcases writerStays_copy hfd hopen polls hquiet hthrew with hdone | hstay
  · rw [hshut] at hdone
    cases hdone
  · exact hgone hstay.1

/-- **The copy is complete.**  When the loop ends by itself, each direction has been copied to the
last byte, its reader is gone and its sink was shut down; the exception is a direction whose writer
was cancelled before its time, by a hangup or because its sink was closed from the start. -/
theorem copied_all_of_exited (hfd : ∀ p, Untouched (fd p)) (polls : List PollOutcome)
    (hpolls : ∀ poll ∈ polls, poll ≠ .failed EINTR)
    (hexit : (bidirectionalStreamCopy fd polls).status = .exited) (way : Way) :
    (((bidirectionalStreamCopy fd polls).world.fd way.sink).sent =
          ((bidirectionalStreamCopy fd polls).world.fd way.source).received ∧
        .read way ∉ (bidirectionalStreamCopy fd polls).rules ∧
        (bidirectionalStreamCopy fd polls).world.shutdown way = true) ∨
      .write way ∉ (bidirectionalStreamCopy fd polls).rules ∧
        (bidirectionalStreamCopy fd polls).world.shutdown way = false ∧
        ((∃ poll ∈ polls, poll.hangup = true) ∨ (fd way.sink).closed = true) := by
  have hsound := copy_sound hfd polls
  have hthrew : ∀ e, (bidirectionalStreamCopy fd polls).status ≠ .threw e := by
    intro e he
    rw [hexit] at he
    cases he
  have hreason := cause_of_writer_gone hfd polls way hthrew
  have hidle := exited_idle hpolls (fun es => (copy_sound hfd es).rules) cancel_leaves_idle hexit
  have hinv := (hsound.holds hthrew).2
  rw [← bidirectionalStreamCopy] at hidle
  generalize bidirectionalStreamCopy fd polls = l at *
  -- once the stream is empty, its reader would be interested
  have hreader : (l.world.stream way).buffer = [] → .read way ∉ l.rules := by
    intro hempty hmem
    have hno : readInterest way l.world = false := hidle _ hmem
    rw [WayInv.reader_interested hinv hempty] at hno
    cases hno
  cases hshut : l.world.shutdown way with
  | true =>
    have hempty := ((ByteStream.eof_iff _).mp ((hinv way).shut hshut).1).2
    have hexact := (hinv way).exact (Or.inr (Or.inr hshut))
    rw [hempty, List.append_nil] at hexact
    exact Or.inl ⟨hexact, hreader hempty, rfl⟩
  | false =>
    have hgone : .write way ∉ l.rules := by
      intro hmem
      have hno : writeInterest way l.world = false := hidle _ hmem
      rw [writeInterest, hshut, Bool.not_false, Bool.and_true, Bool.or_eq_false_iff,
        Bool.not_eq_false'] at hno
      have hempty : (l.world.stream way).buffer = [] :=
        List.length_eq_zero_iff.mp (beq_iff_eq.mp hno.1)
      have heof : (l.world.stream way).eof = true :=
        (ByteStream.eof_iff _).mpr ⟨(hinv way).reader (hreader hempty), hempty⟩
      rw [heof] at hno
      cases hno.2
    exact Or.inr ⟨hgone, rfl, hreason hshut hgone⟩

/-- A whole exchange: two bytes out, one byte in. -/
def shortTalk : Port → FileDescriptor
  | .stdin => { reads := [.ok [104, 105], .ok []] }
  | .socket => { reads := [.ok [33], .ok []], writes := [.ok 1, .ok 1], shutdowns := [.ok ()] }
  | .stdout => { writes := [.ok 1], closes := [.ok ()] }

def shortTalkPolls : List PollOutcome :=
  [.ready [1, 4, 1, 4], .ready [1, 4, 1, 4], .ready [4], .timeout]

theorem untouched_shortTalk (p : Port) : Untouched (shortTalk p) := by
  cases p <;> exact ⟨rfl, rfl⟩

theorem copied_all_of_exited_short_talk :
    ((bidirectionalStreamCopy shortTalk shortTalkPolls).world.fd
        Way.outbound.sink).sent =
      ((bidirectionalStreamCopy shortTalk shortTalkPolls).world.fd
        Way.outbound.source).received := by
  have hexit : (bidirectionalStreamCopy shortTalk shortTalkPolls).status = .exited := by decide
  have hshut :
      (bidirectionalStreamCopy shortTalk shortTalkPolls).world.shutdown .outbound = true := by
    decide
  rcases copied_all_of_exited untouched_shortTalk _
    (by decide) hexit .outbound with hdone | hcut
  · exact hdone.1
  · rw [hshut] at hcut
    cases hcut.2.1

end StreamCopy

end Sponge
