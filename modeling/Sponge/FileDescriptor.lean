import Sponge.ByteStream
import Sponge.Lib.Hoare
import Sponge.SharedBuffer

/-!
# File descriptors

The code's side of a descriptor is `FDWrapper`: the end-of-file and closed flags, and the counters
of reads and writes that the event loop watches.  The kernel's side is a list of the answers it is
going to give to each kind of system call; a statement about all lists is one about all kernels.
`received` and `sent` record the bytes that have gone through, and are read by no function.

`write` is the loop of the source.  It takes one answer in each turn, so the recursion is on the
answers; a kernel that has no answer left says `EAGAIN`.

`SystemCall` takes and returns an `int`, although `read` and `writev` return a `ssize_t`.  The
kernel moves at most `MAX_RW_COUNT` bytes in a call, whatever its answer in the list is, so the
number that comes back is the one that it returned.
-/

namespace Sponge

open Throwing Hoare MachineInt

/-- What the input and output layer throws: a failed system call with its `errno`, an error of the
code itself, or an exception of the network layer below it.  `outOfBounds` stands for an unchecked
access outside of a vector, which throws nothing in the source. -/
inductive SystemException where
  | unixError (attempt : String) (errno : ℕ)
  | runtimeError (what : String)
  | network (e : Exception)
  | outOfBounds
deriving DecidableEq, Repr

/-- The exceptions that say that the kernel failed, or returned a number that makes no sense. -/
inductive KernelFault : SystemException → Prop where
  | unix (attempt : String) (errno : ℕ) : KernelFault (.unixError attempt errno)
  | readTooMuch : KernelFault (.runtimeError "read() read more than requested")
  | wroteNothing : KernelFault (.runtimeError "write returned 0 given non-empty input buffer")
  | wroteTooMuch : KernelFault (.runtimeError "write wrote more than length of input buffer")
  | oversized : KernelFault (.runtimeError "recvfrom (oversized datagram)")
  | sentLess : KernelFault (.runtimeError "datagram payload too big for sendmsg()")

/-- A call that may do system calls. -/
abbrev SysCall (σ α : Type) := EStateM SystemException σ α

/-- What the kernel answers to a system call: a result, or the `errno`. -/
abbrev Answer (α : Type) := Except ℕ α

def EINTR : ℕ := 4

def EAGAIN : ℕ := 11

def systemCall {σ α : Type} (attempt : String) : Answer α → SysCall σ α
  | .ok a => pure a
  | .error errno => throw (.unixError attempt errno)

/-- The most bytes that Linux moves in one call. -/
def MAX_RW_COUNT : ℕ := 0x7ffff000

/-- How many of `n` bytes the kernel moves in one call. -/
def moved (n : ℕ) : ℕ := min n MAX_RW_COUNT

/-- The number that `SystemCall` returns for a call that moved bytes; it takes and returns an
`int`. -/
def returnValue (n : ℕ) : ℤ := int32 (moved n)

/-- The `int` has room for every number that the kernel returns. -/
theorem returnValue_eq (n : ℕ) : returnValue n = moved n := by
  apply int32_of_lt
  rw [moved, MAX_RW_COUNT]
  omega

/-- A call into the network layer. -/
def ofNetwork {σ α : Type} : Except Exception α → SysCall σ α
  | .ok a => pure a
  | .error e => throw (.network e)

theorem ofNetwork_ok {σ α β : Type} {r : Except Exception α} {a : α} (h : r = .ok a)
    (f : α → SysCall σ β) : (ofNetwork r >>= f) = f a := by
  rw [h]
  rfl

theorem keeps_ofNetwork {σ α : Type} {I : σ → Prop} (r : Except Exception α) :
    Keeps I (ofNetwork r : SysCall σ α) := by
  cases r with
  | ok a => exact keeps_pure a
  | error e => exact triple_throw _ fun _ => id

namespace BufferViewList

def size (views : BufferViewList) : ℕ := views.foldl (fun ret buf => u64 (ret + Buffer.size buf)) 0

theorem size_eq (views : BufferViewList) : size views = u64 views.flatten.length :=
  BufferList.size_eq views

end BufferViewList

structure FileDescriptor where
  eof : Bool := false
  closed : Bool := false
  readCount : UInt32 := 0
  writeCount : UInt32 := 0
  reads : List (Answer (List UInt8)) := []
  writes : List (Answer ℕ) := []
  shutdowns : List (Answer Unit) := []
  closes : List (Answer Unit) := []
  received : List UInt8 := []
  sent : List UInt8 := []

namespace FileDescriptor

/-- The largest read. -/
def BUFFER_SIZE : ℕ := 1024 * 1024

/-- The next answer of a kernel. -/
def next {α : Type} (answers : List (Answer α)) : Answer α := answers.headD (.error EAGAIN)

def registerRead (fd : FileDescriptor) : FileDescriptor :=
  { fd with readCount := fd.readCount + 1 }

def registerWrite (fd : FileDescriptor) : FileDescriptor :=
  { fd with writeCount := fd.writeCount + 1 }

/-- The kernel has answered a `read`. -/
def popRead (fd : FileDescriptor) : FileDescriptor := { fd with reads := fd.reads.tail }

/-- The kernel has handed over `str`; nothing means the end of the file, if anything was asked
for. -/
def receive (limit : ℕ) (str : List UInt8) (fd : FileDescriptor) : FileDescriptor :=
  { fd with
    eof := fd.eof || decide (limit > 0 ∧ str.length = 0)
    received := fd.received ++ str }

def read (limit : ℕ) : SysCall FileDescriptor (List UInt8) := do
  let fd ← get
  set fd.popRead
  let str ← systemCall "read" (next fd.reads)
  modify (receive limit str)
  if returnValue str.length > int64 (min BUFFER_SIZE limit) then
    throw (.runtimeError "read() read more than requested")
  else
    modify registerRead
    return str

theorem returnValue_gt_iff (n limit : ℕ) :
    returnValue n > int64 (min BUFFER_SIZE limit) ↔ n > min BUFFER_SIZE limit := by
  have hle : min BUFFER_SIZE limit ≤ 2 ^ 20 := min_le_left ..
  rw [returnValue_eq, int64_of_lt (by omega), gt_iff_lt, Int.ofNat_lt, moved, MAX_RW_COUNT]
  omega

/-- **What a read does**: it hands over at most what was asked for, or throws. -/
theorem read_cases (limit : ℕ) (fd : FileDescriptor) :
    (∃ str, next fd.reads = .ok str ∧ str.length ≤ min BUFFER_SIZE limit ∧
        read limit fd = .ok str (receive limit str fd.popRead).registerRead) ∨
      (∃ errno, read limit fd = .error (.unixError "read" errno) fd.popRead) ∨
      ∃ str, str.length > min BUFFER_SIZE limit ∧
        read limit fd = .error (.runtimeError "read() read more than requested")
          (receive limit str fd.popRead) := by
  have hstart : read limit fd = (systemCall "read" (next fd.reads) >>= fun str =>
      modify (receive limit str) >>= fun _ =>
        if returnValue str.length > int64 (min BUFFER_SIZE limit) then
          throw (.runtimeError "read() read more than requested")
        else modify registerRead >>= fun _ => pure str) fd.popRead := rfl
  rw [hstart]
  simp only [returnValue_gt_iff]
  cases hanswer : next fd.reads with
  | error errno => exact Or.inr (Or.inl ⟨errno, rfl⟩)
  | ok str =>
    by_cases hlong : str.length > min BUFFER_SIZE limit
    · refine Or.inr (Or.inr ⟨str, hlong, ?_⟩)
      exact congrArg
        (fun m : SysCall FileDescriptor (List UInt8) => m (receive limit str fd.popRead))
        (if_pos hlong)
    · refine Or.inl ⟨str, rfl, not_lt.mp hlong, ?_⟩
      exact congrArg
        (fun m : SysCall FileDescriptor (List UInt8) => m (receive limit str fd.popRead))
        (if_neg hlong)

/-! ### Writing -/

/-- The kernel has answered a `writev`. -/
def popWrite (fd : FileDescriptor) : FileDescriptor := { fd with writes := fd.writes.tail }

/-- The kernel has taken `str`. -/
def send (str : List UInt8) (fd : FileDescriptor) : FileDescriptor :=
  { fd with sent := fd.sent ++ str }

/-- `buffer.remove_prefix(n)`. -/
def removePrefix (n : ℕ) (buffer : BufferViewList) : SysCall FileDescriptor BufferViewList :=
  match (BufferViewList.removePrefix n).run buffer with
  | .ok _ buffer => pure buffer
  | .error e _ => throw (.network e)

/-- The loop of `write`, along the answers of the kernel. -/
def writeLoop (writeAll : Bool) :
    List (Answer ℕ) → BufferViewList → ℕ → SysCall FileDescriptor ℕ
  | [], _, _ => throw (.unixError "writev" EAGAIN)
  | answer :: answers, buffer, totalBytesWritten => do
    modify popWrite
    let taken ← systemCall "writev" answer
    modify (send (buffer.flatten.take (moved taken)))
    let bytesWritten := returnValue taken
    if bytesWritten = 0 ∧ buffer.size ≠ 0 then
      throw (.runtimeError "write returned 0 given non-empty input buffer")
    else if bytesWritten > int64 buffer.size then
      throw (.runtimeError "write wrote more than length of input buffer")
    else
      modify registerWrite
      let buffer ← removePrefix bytesWritten.toNat buffer
      if writeAll = true ∧ buffer.size ≠ 0 then
        writeLoop writeAll answers buffer (u64 (totalBytesWritten + bytesWritten.toNat))
      else return u64 (totalBytesWritten + bytesWritten.toNat)

def write (buffer : BufferViewList) (writeAll : Bool) : SysCall FileDescriptor ℕ := fun fd =>
  writeLoop writeAll fd.writes buffer 0 fd

/-- One turn has taken `n` bytes. -/
def afterWrite (n : ℕ) (buffer : BufferViewList) (fd : FileDescriptor) : FileDescriptor :=
  registerWrite (send (buffer.flatten.take n) fd.popWrite)

/-- The kernel's answer is no error, and the number of bytes makes sense. -/
def Takes (n : ℕ) (buffer : BufferViewList) : Prop :=
  n ≤ buffer.flatten.length ∧ (n = 0 → buffer.flatten = [])

section

variable {buffer : BufferViewList} {n : ℕ}

/-- **A turn that succeeds** goes on with what is left of the buffer, or ends the loop. -/
theorem writeLoop_takes (writeAll : Bool) (answers : List (Answer ℕ)) (total : ℕ)
    (fd : FileDescriptor) (hlen : buffer.flatten.length < 2 ^ 63) (hn : Takes (moved n) buffer) :
    ∃ left : BufferViewList, left.flatten = buffer.flatten.drop (moved n) ∧
      writeLoop writeAll (.ok n :: answers) buffer total fd =
        if writeAll = true ∧ moved n ≠ buffer.flatten.length then
          writeLoop writeAll answers left (u64 (total + moved n)) (fd.afterWrite (moved n) buffer)
        else .ok (u64 (total + moved n)) (fd.afterWrite (moved n) buffer) := by
  have hsize : buffer.size = buffer.flatten.length := by
    rw [BufferViewList.size_eq, u64_of_lt (by omega)]
  obtain ⟨left, hleft, hflat⟩ : ∃ left : BufferViewList,
      removePrefix (moved n) buffer (fd.afterWrite (moved n) buffer) =
          .ok left (fd.afterWrite (moved n) buffer) ∧
        left.flatten = buffer.flatten.drop (moved n) := by
    rcases BufferViewList.removePrefix_cases (moved n) buffer with ⟨-, left, h, hflat⟩ | ⟨hlt, -⟩
    · refine ⟨left, ?_, hflat⟩
      rw [removePrefix, EStateM.run, h]
      rfl
    · exact absurd hn.1 (not_le.mpr hlt)
  have hempty : left.size ≠ 0 ↔ moved n ≠ buffer.flatten.length := by
    rw [BufferViewList.size_eq, hflat, List.length_drop, u64_of_lt (by omega)]
    have := hn.1
    omega
  have hzero : ¬ (returnValue n = 0 ∧ buffer.size ≠ 0) := by
    rintro ⟨h0, hne⟩
    rw [returnValue_eq, Int.natCast_eq_zero] at h0
    rw [hsize, hn.2 h0] at hne
    exact hne rfl
  have hmore : ¬ returnValue n > int64 buffer.size := by
    rw [returnValue_eq, hsize, int64_of_lt hlen, gt_iff_lt, Int.ofNat_lt]
    exact not_lt.mpr hn.1
  have hcall : systemCall "writev" (.ok n) fd.popWrite = .ok n fd.popWrite := rfl
  refine ⟨left, hflat, ?_⟩
  rw [writeLoop, modify_bind, bind_ok hcall, modify_bind, if_neg hzero, if_neg hmore, modify_bind,
    returnValue_eq, Int.toNat_natCast]
  show (removePrefix (moved n) buffer >>= _ : SysCall FileDescriptor ℕ)
    (fd.afterWrite (moved n) buffer) = _
  rw [bind_ok hleft]
  simp only [hempty]
  split
  · rfl
  · rfl

/-- What a write that took `done` leaves. -/
def wrote (done : List UInt8) (writes : List (Answer ℕ)) (writeCount : UInt32)
    (fd : FileDescriptor) : FileDescriptor :=
  { fd with writes, writeCount, sent := fd.sent ++ done }

/-- **A turn that fails** throws, and took a part of the buffer at most. -/
theorem writeLoop_fails (writeAll : Bool) (answers : List (Answer ℕ)) (total : ℕ)
    (fd : FileDescriptor) (hlen : buffer.flatten.length < 2 ^ 63)
    (hno : ∀ n rest, answers = .ok n :: rest → ¬ Takes (moved n) buffer) :
    ∃ e done writes, KernelFault e ∧ done <+: buffer.flatten ∧
      writeLoop writeAll answers buffer total fd =
        .error e (fd.wrote done writes fd.writeCount) := by
  have hnil : fd.wrote [] fd.writes.tail fd.writeCount = fd.popWrite := by
    rw [wrote, List.append_nil]
    rfl
  cases answers with
  | nil =>
    refine ⟨_, [], fd.writes, .unix "writev" EAGAIN, List.nil_prefix, ?_⟩
    rw [wrote, List.append_nil]
    rfl
  | cons answer answers =>
    cases answer with
    | error errno =>
      refine ⟨_, [], fd.writes.tail, .unix "writev" errno, List.nil_prefix, ?_⟩
      rw [hnil]
      rfl
    | ok n =>
      have hsize : buffer.size = buffer.flatten.length := by
        rw [BufferViewList.size_eq, u64_of_lt (by omega)]
      have hcall : systemCall "writev" (.ok n) fd.popWrite = .ok n fd.popWrite := rfl
      by_cases hzero : returnValue n = 0 ∧ buffer.size ≠ 0
      · refine ⟨_, buffer.flatten.take (moved n), fd.writes.tail, .wroteNothing,
          List.take_prefix .., ?_⟩
        rw [writeLoop, modify_bind, bind_ok hcall, modify_bind, if_pos hzero]
        rfl
      · have hmore : returnValue n > int64 buffer.size := by
          rw [returnValue_eq, Int.natCast_eq_zero] at hzero
          rw [returnValue_eq, hsize, int64_of_lt hlen, gt_iff_lt, Int.ofNat_lt]
          by_contra hle
          refine hno n answers rfl ⟨not_lt.mp hle, ?_⟩
          intro h0
          by_contra hne
          refine hzero ⟨h0, ?_⟩
          rw [hsize]
          exact fun hlen0 => hne (List.length_eq_zero_iff.mp hlen0)
        refine ⟨_, buffer.flatten.take (moved n), fd.writes.tail, .wroteTooMuch,
          List.take_prefix .., ?_⟩
        rw [writeLoop, modify_bind, bind_ok hcall, modify_bind, if_neg hzero, if_pos hmore]
        rfl

/-- Either the next answer is one the loop can use, or it is not. -/
theorem takes_or_not (answers : List (Answer ℕ)) (buffer : BufferViewList) :
    (∃ n rest, answers = .ok n :: rest ∧ Takes (moved n) buffer) ∨
      ∀ n rest, answers = .ok n :: rest → ¬ Takes (moved n) buffer := by
  by_cases h : ∃ n rest, answers = .ok n :: rest ∧ Takes (moved n) buffer
  · exact Or.inl h
  · exact Or.inr fun n rest heq hn => h ⟨n, rest, heq, hn⟩

/-- **A single write** takes a part of the buffer, and something unless the buffer is empty, or it
throws. -/
theorem write_once_cases (hlen : buffer.flatten.length < 2 ^ 63) (fd : FileDescriptor) :
    (∃ n writes, Takes n buffer ∧ write buffer false fd =
        .ok n (fd.wrote (buffer.flatten.take n) writes (fd.writeCount + 1))) ∨
      ∃ e done writes, KernelFault e ∧ done <+: buffer.flatten ∧
        write buffer false fd = .error e (fd.wrote done writes fd.writeCount) := by
  rcases takes_or_not fd.writes buffer with ⟨n, rest, heq, hn⟩ | hno
  · left
    obtain ⟨left, -, hloop⟩ := writeLoop_takes false rest 0 fd hlen hn
    refine ⟨moved n, fd.writes.tail, hn, ?_⟩
    have hshort := hn.1
    rw [write, heq, hloop, if_neg (by simp), Nat.zero_add, u64_of_lt (by omega), ← heq]
    rfl
  · exact Or.inr (writeLoop_fails false _ 0 fd hlen hno)

theorem afterWrite_eq (fd : FileDescriptor) (n : ℕ) (buffer : BufferViewList) :
    fd.afterWrite n buffer = fd.wrote (buffer.flatten.take n) fd.writes.tail (fd.writeCount + 1) :=
  rfl

theorem wrote_afterWrite (fd : FileDescriptor) (done : List UInt8) (writes : List (Answer ℕ))
    (count : UInt32) :
    (fd.afterWrite n buffer).wrote done writes count =
      fd.wrote (buffer.flatten.take n ++ done) writes count := by
  rw [wrote, wrote, ← List.append_assoc]
  rfl

/-- The loop over what is left of the buffer, along the answers. -/
theorem writeLoop_all_cases (answers : List (Answer ℕ)) (buffer : BufferViewList) (total : ℕ)
    (fd : FileDescriptor) (hlen : buffer.flatten.length < 2 ^ 63) :
    (∃ writes count, writeLoop true answers buffer total fd =
        .ok (u64 (total + buffer.flatten.length)) (fd.wrote buffer.flatten writes count)) ∨
      ∃ e done writes count, KernelFault e ∧ done <+: buffer.flatten ∧
        writeLoop true answers buffer total fd = .error e (fd.wrote done writes count) := by
  induction answers generalizing buffer total fd with
  | nil =>
    obtain ⟨e, done, writes, he, hdone, hfail⟩ := writeLoop_fails true [] total fd hlen (by
      intro n rest heq
      cases heq)
    exact Or.inr ⟨e, done, writes, _, he, hdone, hfail⟩
  | cons answer answers ih =>
    rcases takes_or_not (answer :: answers) buffer with ⟨n, rest, heq, hn⟩ | hno
    · obtain ⟨rfl, rfl⟩ := List.cons.inj heq
      obtain ⟨left, hleft, hturn⟩ := writeLoop_takes true answers total fd hlen hn
      rw [hturn]
      by_cases hlast : moved n = buffer.flatten.length
      · rw [if_neg (by simp [hlast])]
        refine Or.inl ⟨fd.writes.tail, fd.writeCount + 1, ?_⟩
        rw [← hlast, afterWrite, hlast, List.take_length]
        rfl
      · rw [if_pos ⟨rfl, hlast⟩]
        have hcut : buffer.flatten.take (moved n) ++ left.flatten = buffer.flatten := by
          rw [hleft, List.take_append_drop]
        have hshort : left.flatten.length < 2 ^ 63 := by
          rw [hleft, List.length_drop]
          omega
        have htotal : u64 (u64 (total + moved n) + left.flatten.length) =
            u64 (total + buffer.flatten.length) := by
          rw [u64_add, hleft, List.length_drop, Nat.add_assoc, Nat.add_sub_cancel' hn.1]
        rcases ih left (u64 (total + moved n)) (fd.afterWrite (moved n) buffer) hshort with
          ⟨writes, count, hok⟩ | ⟨e, done, writes, count, he, hpre, herr⟩
        · rw [hok, wrote_afterWrite, hcut, htotal]
          exact Or.inl ⟨writes, count, rfl⟩
        · rw [herr, wrote_afterWrite]
          have hpre := (List.prefix_append_right_inj (buffer.flatten.take (moved n))).mpr hpre
          rw [hcut] at hpre
          exact Or.inr ⟨e, _, writes, count, he, hpre, rfl⟩
    · obtain ⟨e, done, writes, he, hdone, hfail⟩ := writeLoop_fails true _ total fd hlen hno
      exact Or.inr ⟨e, done, writes, _, he, hdone, hfail⟩

/-- **The whole buffer**, once and in order, or a part of it and an exception. -/
theorem write_all_cases (hlen : buffer.flatten.length < 2 ^ 63) (fd : FileDescriptor) :
    (∃ writes count, write buffer true fd =
        .ok buffer.flatten.length (fd.wrote buffer.flatten writes count)) ∨
      ∃ e done writes count, KernelFault e ∧ done <+: buffer.flatten ∧
        write buffer true fd = .error e (fd.wrote done writes count) := by
  have hall := writeLoop_all_cases fd.writes buffer 0 fd hlen
  rw [Nat.zero_add, u64_of_lt (by omega)] at hall
  exact hall

theorem writeLoop_partial (counts : List ℕ) (buffer : BufferViewList) (total : ℕ)
    (fd : FileDescriptor) (rest : List (Answer ℕ)) (hlen : buffer.flatten.length < 2 ^ 63)
    (hne : buffer.flatten ≠ []) (hpart : ∀ n ∈ counts, 0 < n ∧ n ≤ MAX_RW_COUNT)
    (hsum : counts.sum = buffer.flatten.length) (hkernel : fd.writes = counts.map .ok ++ rest) :
    writeLoop true (counts.map .ok ++ rest) buffer total fd =
      .ok (u64 (total + buffer.flatten.length))
        (fd.wrote buffer.flatten rest (fd.writeCount + UInt32.ofNat counts.length)) := by
  induction counts generalizing buffer total fd with
  | nil =>
    refine absurd (List.length_eq_zero_iff.mp ?_) hne
    exact hsum.symm
  | cons n counts ih =>
    rw [List.sum_cons] at hsum
    obtain ⟨hpos, hmax⟩ := hpart n List.mem_cons_self
    have hmoved : moved n = n := min_eq_left hmax
    have hn : Takes n buffer := ⟨by omega, by omega⟩
    obtain ⟨left, hleft, hturn⟩ :=
      writeLoop_takes true (counts.map .ok ++ rest) total fd hlen (hmoved.symm ▸ hn)
    rw [hmoved] at hleft hturn
    have htail : fd.writes.tail = counts.map .ok ++ rest := by
      rw [hkernel]
      rfl
    have hcount : fd.writeCount + UInt32.ofNat (counts.length + 1) =
        fd.writeCount + 1 + UInt32.ofNat counts.length := by
      rw [UInt32.ofNat_add, UInt32.add_assoc, UInt32.add_comm _ (UInt32.ofNat 1)]
      rfl
    rw [List.map_cons, List.cons_append, hturn, List.length_cons, hcount]
    by_cases hlast : n = buffer.flatten.length
    · -- the last part: nothing can come after it
      have hnil : counts = [] := by
        cases counts with
        | nil => rfl
        | cons m counts =>
          have := (hpart m (List.mem_cons_of_mem _ List.mem_cons_self)).1
          rw [List.sum_cons] at hsum
          omega
      rw [hnil, List.map_nil, List.nil_append] at htail
      rw [if_neg (by simp [hlast]), afterWrite_eq, htail, hnil, hlast, List.take_length]
      simp
    · rw [if_pos ⟨rfl, hlast⟩]
      have hlength : left.flatten.length = buffer.flatten.length - n := by
        rw [hleft, List.length_drop]
      have hmore : left.flatten ≠ [] := by
        intro hnil
        rw [hnil, List.length_nil] at hlength
        have := hn.1
        omega
      rw [ih left (u64 (total + n)) (fd.afterWrite n buffer) (by omega) hmore
          (fun m hm => hpart m (List.mem_cons_of_mem _ hm)) (by omega) htail,
        wrote_afterWrite, hleft, List.take_append_drop, u64_add, List.length_drop, Nat.add_assoc,
        Nat.add_sub_cancel' hn.1]
      rfl

/-- **Partial writes make no difference.**  However the kernel cuts the buffer, as long as each
part has at least one byte and at most those of one call, `write` with `write_all` hands over the
whole buffer once and in order, uses exactly these answers, and returns the length. -/
theorem write_all_of_partial_writes (buffer : BufferViewList) (fd : FileDescriptor)
    (counts : List ℕ) (rest : List (Answer ℕ)) (hlen : buffer.flatten.length < 2 ^ 63)
    (hne : buffer.flatten ≠ []) (hpart : ∀ n ∈ counts, 0 < n ∧ n ≤ MAX_RW_COUNT)
    (hsum : counts.sum = buffer.flatten.length) (hkernel : fd.writes = counts.map .ok ++ rest) :
    write buffer true fd = .ok buffer.flatten.length
      (fd.wrote buffer.flatten rest (fd.writeCount + UInt32.ofNat counts.length)) := by
  have hloop := writeLoop_partial counts buffer 0 fd rest hlen hne hpart hsum hkernel
  rw [Nat.zero_add, u64_of_lt (by omega)] at hloop
  rw [write, hkernel, hloop]

/-- Five bytes in two views, taken in three parts across the boundary. -/
theorem write_all_of_partial_writes_three :
    write [[1, 2], [3, 4, 5]] true { writes := [.ok 1, .ok 3, .ok 1] } =
      .ok 5 { writeCount := 3, sent := [1, 2, 3, 4, 5] } :=
  write_all_of_partial_writes [[1, 2], [3, 4, 5]] { writes := [.ok 1, .ok 3, .ok 1] } [1, 3, 1] []
    (by decide) (by decide) (by decide) rfl rfl

end

/-! ### Devices that are read and written a packet at a time -/

/-- The default for the limit of a read, the largest `size_t`. -/
def NO_LIMIT : ℕ := 2 ^ 64 - 1

/-- A read is counted, and only the kernel makes it fail. -/
theorem read_counts (limit : ℕ) (count : UInt32) :
    Triple (fun fd => fd.readCount = count) (read limit)
      (fun _ fd => fd.readCount = count + 1) fun e _ => KernelFault e := by
  intro fd hcount
  rcases read_cases limit fd with ⟨str, -, -, hcall⟩ | ⟨errno, hcall⟩ | ⟨str, -, hcall⟩
  · refine returned hcall ?_
    show fd.readCount + 1 = count + 1
    rw [hcount]
  · exact thrown hcall (.unix "read" errno)
  · exact thrown hcall .readTooMuch

/-- A write counts no read, and only the kernel makes it fail. -/
theorem write_counts {buffer : BufferViewList} (hlen : buffer.flatten.length < 2 ^ 63)
    (count : UInt32) :
    Triple (fun fd => fd.readCount = count) (write buffer true)
      (fun _ fd => fd.readCount = count) fun e _ => KernelFault e := by
  intro fd hcount
  rcases write_all_cases hlen fd with ⟨writes, n, hcall⟩ | ⟨e, done, writes, n, he, -, hcall⟩
  · exact returned hcall hcount
  · exact thrown hcall he

/-! ### Shutting down and closing -/

inductive Shutdown where
  | rd
  | wr
  | rdwr
deriving DecidableEq, Repr

def popShutdown (fd : FileDescriptor) : FileDescriptor :=
  { fd with shutdowns := fd.shutdowns.tail }

def popClose (fd : FileDescriptor) : FileDescriptor := { fd with closes := fd.closes.tail }

def registerShutdown : Shutdown → FileDescriptor → FileDescriptor
  | .rd, fd => fd.registerRead
  | .wr, fd => fd.registerWrite
  | .rdwr, fd => fd.registerRead.registerWrite

/-- `Socket::shutdown`. -/
def shutdown (how : Shutdown) : SysCall FileDescriptor Unit := do
  let fd ← get
  set fd.popShutdown
  systemCall "shutdown" (next fd.shutdowns)
  modify (registerShutdown how)

def setClosed (fd : FileDescriptor) : FileDescriptor := { fd with eof := true, closed := true }

def close : SysCall FileDescriptor Unit := do
  let fd ← get
  set fd.popClose
  systemCall "close" (next fd.closes)
  modify setClosed

theorem shutdown_cases (how : Shutdown) (fd : FileDescriptor) :
    shutdown how fd = .ok () (registerShutdown how fd.popShutdown) ∨
      ∃ errno, shutdown how fd = .error (.unixError "shutdown" errno) fd.popShutdown := by
  have hstart : shutdown how fd = (systemCall "shutdown" (next fd.shutdowns) >>= fun _ =>
      modify (registerShutdown how)) fd.popShutdown := rfl
  rw [hstart]
  cases next fd.shutdowns with
  | ok a => exact Or.inl rfl
  | error errno => exact Or.inr ⟨errno, rfl⟩

theorem close_cases (fd : FileDescriptor) :
    close fd = .ok () fd.popClose.setClosed ∨
      ∃ errno, close fd = .error (.unixError "close" errno) fd.popClose := by
  have hstart : close fd = (systemCall "close" (next fd.closes) >>= fun _ =>
      modify setClosed) fd.popClose := rfl
  rw [hstart]
  cases next fd.closes with
  | ok a => exact Or.inl rfl
  | error errno => exact Or.inr ⟨errno, rfl⟩

/-! ### Writing a stream out -/

/-- **Only what was written is popped**: a part of a peek leaves the stream, and nothing is lost
or doubled between the two. -/
theorem take_peekOutput_append (stream : ByteStream) {amount n : ℕ} (hamount : amount < 2 ^ 31)
    (hn : Takes n [stream.peekOutput amount]) :
    ([stream.peekOutput amount] : BufferViewList).flatten.take n ++ (stream.popOutput n).buffer =
      stream.buffer := by
  have hle := hn.1
  simp only [List.flatten_cons, List.flatten_nil, List.append_nil] at hle ⊢
  rw [stream.peekOutput_of_lt hamount] at hle ⊢
  rw [List.length_take] at hle
  rw [ByteStream.popOutput_buffer, ByteStream.bufferSize, intCount_of_lt (by omega),
    min_eq_left (by omega), List.take_take, min_eq_left (by omega), List.take_append_drop]

theorem length_flatten_peekOutput_lt (stream : ByteStream) {amount : ℕ}
    (hamount : amount < 2 ^ 31) :
    ([stream.peekOutput amount] : BufferViewList).flatten.length < 2 ^ 63 := by
  simp only [List.flatten_cons, List.flatten_nil, List.append_nil]
  rw [stream.peekOutput_of_lt hamount, List.length_take]
  omega

end FileDescriptor

end Sponge
