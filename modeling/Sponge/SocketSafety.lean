import Sponge.SpongeSocket

/-!
# What a socket keeps in every run

`Histories` relates a connection to the bytes and segments that have passed its socket: it transmits
what the owner wrote, and it has delivered to the owner, or still holds, what the stream of the
other end contains, provided that the segments came from there.  Every callback keeps it, whatever
the kernel answers, and `socketRule_handles` hands this to the event loop.
-/

namespace Sponge

open Throwing Hoare EventLoop MachineInt TCPSender

/-! ### A connection and its histories -/

/-- A connection against the bytes read from the owner (`received`) and written to the owner
(`sent`), and against the segments that came in (`taken`) and that were handed on (`given`). -/
structure Histories (isn : WrappingInt32) (received sent : List UInt8)
    (taken given : List TCPSegment) (c : TCPConnection) : Prop where
  compact : c.Compact
  wf : c.sender.stream.WF
  transmits : Transmits isn received (given ++ c.segmentsOut) c.sender
  stopped : c.active = false → c.inboundStream.Stopped
  /-- As long as the segments belong to a stream, so do the bytes. -/
  follows : ∀ isn' accepted created, Sent isn' accepted created →
    accepted.length < 2 ^ 31 - 2 → (∀ seg ∈ taken, Carried created seg) →
    c.receiver.RecvInv isn' accepted (sent ++ c.inboundStream.buffer)

namespace Histories

variable {isn : WrappingInt32} {received sent : List UInt8} {taken given : List TCPSegment}
  {c : TCPConnection}

open TCPConnection

theorem new (cfg : TCPConfig) (random : WrappingInt32) (hsend : cfg.sendCapacity < 2 ^ 64)
    (hrecv : cfg.recvCapacity < 2 ^ 64) :
    Histories (cfg.fixedIsn.getD random) [] [] [] [] (TCPConnection.new cfg random) where
  compact := Compact.new cfg random
  wf := ⟨Nat.zero_le _, hsend⟩
  transmits := Transmits.new ..
  stopped hdown := by cases hdown
  follows isn' _ _ _ _ _ := (TCPReceiver.RecvInv.new hrecv isn').mono List.nil_prefix

/-- The part of a call that is the same for all of them. -/
theorem call (h : Histories isn received sent taken given c) (op : ConnOp) (hop : op ≠ .popOut)
    (hread : ∀ len, op ≠ .read len) (taken' : List TCPSegment) (htaken : taken ⊆ taken')
    (hseg : ∀ seg, op = .segment seg → seg ∈ taken') :
    Histories isn (received ++ Endpoint.acceptedBy c op) sent taken' given (connStep c op) where
  compact := h.compact.step op
  wf := by
    by_cases hend : op = .endInput
    · subst hend
      have hout : c.sender.Outbound c.sender.stream.inputEnded := ⟨h.wf, rfl⟩
      exact (outbound_endInputStream hout).1
    · have hout : c.sender.Outbound c.sender.stream.inputEnded := ⟨h.wf, rfl⟩
      exact (outbound_connStep hout hend).1
  transmits := by
    have hstep := transmits_step h.transmits op
    rw [segmentsOut_connStep c hop, ← List.append_assoc]
    exact hstep
  stopped := stopped_of_inactive h.stopped op
  follows isn' accepted created hsent hlen hall := by
    have hold := h.follows isn' accepted created hsent hlen fun seg hs => hall seg (htaken hs)
    have hstep := recvInv_step hold hlen hsent fun seg hs => hall seg (hseg seg hs)
    rw [inboundStream_connStep c hread, ← List.append_assoc]
    exact hstep

theorem segment (h : Histories isn received sent taken given c) (seg : TCPSegment) :
    Histories isn received sent (taken ++ [seg]) given (c.segmentReceived seg) := by
  have hcall := h.call (.segment seg) (by simp) (by simp) (taken ++ [seg])
    (List.subset_append_left _ _) fun s hs => by cases hs; simp
  simp only [Endpoint.acceptedBy, List.append_nil] at hcall
  exact hcall

/-- The calls that move no bytes and take no segments. -/
theorem quiet (h : Histories isn received sent taken given c) (op : ConnOp)
    (hop : op = .endInput ∨ op = .connect ∨ ∃ ms, op = .tick ms) :
    Histories isn received sent taken given (connStep c op) := by
  have hcall := h.call op (by rcases hop with rfl | rfl | ⟨ms, rfl⟩ <;> simp)
    (by rcases hop with rfl | rfl | ⟨ms, rfl⟩ <;> simp) taken (List.Subset.refl _)
    (by rcases hop with rfl | rfl | ⟨ms, rfl⟩ <;> simp)
  rcases hop with rfl | rfl | ⟨ms, rfl⟩ <;>
    simpa only [Endpoint.acceptedBy, List.append_nil] using hcall

/-- **A write that fits is taken whole.**  This is the length that the socket asks the owner for. -/
theorem write (h : Histories isn received sent taken given c)
    (hopen : c.sender.stream.inputEnded = false) {data : List UInt8}
    (hfit : data.length ≤ c.remainingOutboundCapacity) (hint : data.length < 2 ^ 31) :
    (c.write data).2 = data.length ∧
      Histories isn (received ++ data) sent taken given (c.write data).1 := by
  have hroom := h.wf.remainingCapacity_eq
  have hfits := h.wf.fits
  have hfit : c.sender.stream.buffer.length + data.length ≤ c.sender.stream.capacity := by
    rw [remainingOutboundCapacity, hroom] at hfit
    omega
  have haccepted : c.sender.stream.accepted data = data := h.wf.accepted_eq hopen hfit hint
  constructor
  · rw [TCPConnection.write]
    split
    · rename_i hempty
      exact hempty.symm
    · have hmin : min data.length c.sender.stream.remainingCapacity = data.length := by
        rw [hroom]
        omega
      simp only [ByteStream.write, hopen, Bool.false_eq_true, if_false, hmin, int32_of_lt hint]
      omega
  · have hcall := h.call (.write data) (by simp) (by simp) taken (List.Subset.refl _)
      (by simp)
    simp only [Endpoint.acceptedBy, haccepted] at hcall
    exact hcall

/-- Bytes move from the inbound stream to the owner. -/
theorem read (h : Histories isn received sent taken given c) {done : List UInt8} {n : ℕ}
    (hdone : done ++ (c.inboundStream.popOutput n).buffer = c.inboundStream.buffer) :
    Histories isn received (sent ++ done) taken given (c.readInbound n) where
  compact := ⟨h.compact.sender, h.compact.queue⟩
  wf := h.wf
  transmits := h.transmits
  stopped := h.stopped
  follows isn' accepted created hsent hlen hall := by
    have hold := h.follows isn' accepted created hsent hlen hall
    have hbytes : (sent ++ done) ++ (c.readInbound n).inboundStream.buffer =
        sent ++ c.inboundStream.buffer := by
      rw [List.append_assoc, ← hdone]
      rfl
    rw [hbytes]
    exact hold.readOut n

/-- A segment moves from the queue to the adapter. -/
theorem give (h : Histories isn received sent taken given c) {seg : TCPSegment}
    {rest : List TCPSegment} (hqueue : c.segmentsOut = seg :: rest) :
    Histories isn received sent taken (given ++ [seg])
      { c with segmentsOut := c.segmentsOut.drop 1 } where
  compact := h.compact.step .popOut
  wf := h.wf
  transmits := by
    have hout : (given ++ [seg]) ++ c.segmentsOut.drop 1 = given ++ c.segmentsOut := by
      rw [hqueue, List.append_assoc]
      rfl
    show Transmits isn received ((given ++ [seg]) ++ c.segmentsOut.drop 1) c.sender
    rw [hout]
    exact h.transmits
  stopped := h.stopped
  follows := h.follows

end Histories

/-! ### The invariant of a socket -/

namespace TCPSpongeSocket

variable {α : Type}

/-- What is true of a socket in every state, also when an exception has stopped it. -/
structure SocketSafe (J : α → List TCPSegment → List TCPSegment → Prop) (isn : WrappingInt32)
    (s : TCPSpongeSocket α) : Prop where
  tracks : J s.datagramAdapter s.taken s.given
  sends : ∃ accepted, accepted <+: s.threadData.received ∧
    Transmits isn accepted (s.given ++ s.tcp.segmentsOut) s.tcp.sender
  follows : ∀ isn' accepted created, Sent isn' accepted created →
    accepted.length < 2 ^ 31 - 2 → (∀ seg ∈ s.taken, Carried created seg) →
    ∃ delivered, s.threadData.sent <+: delivered ∧
      s.tcp.receiver.RecvInv isn' accepted delivered

/-- What is true between two callbacks. -/
structure SocketInv (J : α → List TCPSegment → List TCPSegment → Prop) (isn : WrappingInt32)
    (left : List SocketRule) (s : TCPSpongeSocket α) : Prop where
  tracks : J s.datagramAdapter s.taken s.given
  histories : Histories isn s.threadData.received s.threadData.sent s.taken s.given s.tcp
  /-- While the reader of the owner's bytes is left, it is the only one who ends the stream. -/
  isOpen : .outbound ∈ left → s.threadData.eof = false →
    s.tcp.sender.stream.inputEnded = false

/-- The exceptions of the thread, and the state that they leave. -/
def SocketThrew (J : α → List TCPSegment → List TCPSegment → Prop) (isn : WrappingInt32)
    (e : SystemException) (s : TCPSpongeSocket α) : Prop :=
  (KernelFault e ∨ e = pollError) ∧ SocketSafe J isn s

variable {A : FdAdapter α} {J : α → List TCPSegment → List TCPSegment → Prop}
  {isn : WrappingInt32} {left : List SocketRule} {s s' : TCPSpongeSocket α}

theorem SocketInv.safe (h : SocketInv J isn left s) : SocketSafe J isn s where
  tracks := h.tracks
  sends := ⟨_, List.prefix_rfl, h.histories.transmits⟩
  follows isn' accepted created hsent hlen hall :=
    ⟨_, List.prefix_append .., h.histories.follows isn' accepted created hsent hlen hall⟩

/-- The kernel has taken or handed over some more bytes when it fails. -/
theorem SocketInv.threw (h : SocketInv J isn left s) {e : SystemException} (he : KernelFault e)
    {threadData : FileDescriptor} (hreceived : s.threadData.received <+: threadData.received)
    (hsent : ∃ done, done <+: s.tcp.inboundStream.buffer ∧
      threadData.sent = s.threadData.sent ++ done) :
    SocketThrew J isn e (s.setThreadData threadData) := by
  obtain ⟨done, hdone, hsent⟩ := hsent
  refine ⟨Or.inl he, h.tracks, ⟨_, hreceived, h.histories.transmits⟩, ?_⟩
  intro isn' accepted created hcreated hlen hall
  refine ⟨_, ?_, h.histories.follows isn' accepted created hcreated hlen hall⟩
  show threadData.sent <+: _
  rw [hsent]
  exact (List.prefix_append_right_inj _).mpr hdone

theorem onAdapter_ok {β : Type} {m : SysCall α β} {b : β} {adapter : α}
    (h : m s.datagramAdapter = .ok b adapter) : onAdapter m s = .ok b (s.setAdapter adapter) :=
  zoom_ok h

theorem onAdapter_error {β : Type} {m : SysCall α β} {e : SystemException} {adapter : α}
    (h : m s.datagramAdapter = .error e adapter) :
    onAdapter m s = .error e (s.setAdapter adapter) := zoom_error h

theorem onThreadData_ok {β : Type} {m : SysCall FileDescriptor β} {b : β} {fd : FileDescriptor}
    (h : m s.threadData = .ok b fd) : onThreadData m s = .ok b (s.setThreadData fd) := zoom_ok h

theorem onThreadData_error {β : Type} {m : SysCall FileDescriptor β} {e : SystemException}
    {fd : FileDescriptor} (h : m s.threadData = .error e fd) :
    onThreadData m s = .error e (s.setThreadData fd) := zoom_error h

/-! ### Rule 1 -/

theorem noteAcked_cases (s : TCPSpongeSocket α) :
    s.noteAcked = s ∨ s.noteAcked = { s with fullyAcked := true } := by
  unfold noteAcked
  split
  · exact Or.inr rfl
  · exact Or.inl rfl

theorem segmentCallback_cases (A : FdAdapter α) (s : TCPSpongeSocket α) :
    (∃ seg adapter fullyAcked, A.read s.datagramAdapter = .ok seg adapter ∧
        segmentCallback A s = .ok () { (s.setAdapter adapter).receive seg with fullyAcked }) ∨
      ∃ e adapter, A.read s.datagramAdapter = .error e adapter ∧
        segmentCallback A s = .error e (s.setAdapter adapter) := by
  cases hread : A.read s.datagramAdapter with
  | ok seg adapter =>
    have hcall : segmentCallback A s = .ok () ((s.setAdapter adapter).receive seg).noteAcked := by
      rw [segmentCallback, bind_ok (onAdapter_ok hread), modify_bind]
      rfl
    rw [hcall]
    rcases noteAcked_cases ((s.setAdapter adapter).receive seg) with hsame | hnoted
    · exact Or.inl ⟨seg, adapter, _, rfl, by rw [hsame]⟩
    · exact Or.inl ⟨seg, adapter, true, rfl, by rw [hnoted]⟩
  | error e adapter =>
    exact Or.inr ⟨e, adapter, rfl, bind_error (onAdapter_error hread) _⟩

/-- **Any segment keeps the invariant.** -/
theorem SocketInv.receive (h : SocketInv J isn left s) {seg : Option TCPSegment} {adapter : α}
    (hJ : J adapter (s.taken ++ seg.toList) s.given) (fullyAcked : Bool) :
    SocketInv J isn left { (s.setAdapter adapter).receive seg with fullyAcked } := by
  cases seg with
  | none =>
    rw [Option.toList_none, List.append_nil] at hJ
    exact ⟨hJ, h.histories, h.isOpen⟩
  | some seg =>
    refine ⟨hJ, h.histories.segment seg, ?_⟩
    intro hmem heof
    have hopen : s.tcp.sender.Outbound false := ⟨h.histories.wf, h.isOpen hmem heof⟩
    have hstep : (TCPConnection.connStep s.tcp (.segment seg)).sender.Outbound false :=
      TCPConnection.outbound_connStep hopen nofun
    exact hstep.2

theorem socketInv_segment (hA : A.Keeps J) :
    Triple (SocketInv J isn left) (segmentCallback A) (fun _ => SocketInv J isn left)
      (SocketThrew J isn) := by
  intro s h
  rcases segmentCallback_cases A s with ⟨seg, adapter, fullyAcked, hread, hcall⟩ |
    ⟨e, adapter, hread, hcall⟩
  · exact returned hcall (h.receive ((hA.read _ _).ok h.tracks hread) fullyAcked)
  · obtain ⟨he, hJ⟩ := (hA.read _ _).error h.tracks hread
    exact thrown hcall ⟨Or.inl he, hJ, h.safe.sends, h.safe.follows⟩

/-! ### Rule 2 -/

/-- The owner's descriptor after a read of `data`. -/
def readData (s : TCPSpongeSocket α) (data : List UInt8) : FileDescriptor :=
  (FileDescriptor.receive s.tcp.remainingOutboundCapacity data s.threadData.popRead).registerRead

/-- The socket after `data` has been read and written to the connection. -/
def wrote (s : TCPSpongeSocket α) (data : List UInt8) : TCPSpongeSocket α :=
  (s.setThreadData (s.readData data)).setTcp (s.tcp.write data).1

theorem outboundCallback_cases (s : TCPSpongeSocket α) :
    (∃ data, data.length ≤ min FileDescriptor.BUFFER_SIZE s.tcp.remainingOutboundCapacity ∧
        outboundCallback s =
          if (s.tcp.write data).2 ≠ data.length then
            .error (.runtimeError "TCPConnection::write() accepted less than advertised length")
              (s.wrote data)
          else .ok () (if (s.readData data).eof then (s.wrote data).endOutbound
            else s.wrote data)) ∨
      ∃ e fd, KernelFault e ∧ s.threadData.received <+: fd.received ∧
        fd.sent = s.threadData.sent ∧ outboundCallback s = .error e (s.setThreadData fd) := by
  rw [outboundCallback, get_bind]
  rcases FileDescriptor.read_cases s.tcp.remainingOutboundCapacity s.threadData with
    ⟨data, -, hlen, hread⟩ | ⟨errno, hread⟩ | ⟨data, -, hread⟩
  · refine Or.inl ⟨data, hlen, ?_⟩
    have hwrite : writeTcp data (s.setThreadData (s.readData data)) =
        .ok (s.tcp.write data).2 (s.wrote data) := rfl
    rw [bind_ok (onThreadData_ok hread)]
    refine (bind_ok hwrite _).trans ?_
    split
    · rfl
    · rfl
  · refine Or.inr ⟨_, _, .unix "read" errno, ?_, ?_, bind_error (onThreadData_error hread) _⟩
    · exact List.prefix_rfl
    · rfl
  · refine Or.inr ⟨_, _, .readTooMuch, ?_, ?_, bind_error (onThreadData_error hread) _⟩
    · exact List.prefix_append ..
    · rfl

/-- **The connection takes all that it asked for**, so that the rule never throws an exception of
its own. -/
theorem socketInv_outbound (hmem : .outbound ∈ left) :
    Triple (fun s => SocketInv J isn left s ∧ s.threadData.eof = false) outboundCallback
      (fun _ => SocketInv J isn left) (SocketThrew J isn) := by
  rintro s ⟨h, heof⟩
  rcases outboundCallback_cases s with ⟨data, hlen, hcall⟩ | ⟨e, fd, he, hreceived, hsent, hcall⟩
  · have hsmall : data.length < 2 ^ 31 :=
      (hlen.trans (min_le_left _ _)).trans_lt (by decide)
    have hopen := h.isOpen hmem heof
    obtain ⟨hall, hwritten⟩ :=
      h.histories.write hopen (hlen.trans (min_le_right _ _)) hsmall
    have hout : (TCPConnection.connStep s.tcp (.write data)).sender.Outbound false :=
      TCPConnection.outbound_connStep ⟨h.histories.wf, hopen⟩ nofun
    rw [if_neg (not_not.mpr hall)] at hcall
    refine returned hcall ?_
    cases hover : (s.readData data).eof with
    | true =>
      rw [if_pos rfl]
      refine ⟨h.tracks, hwritten.quiet .endInput (Or.inl rfl), ?_⟩
      intro _ hno
      have hno : (s.readData data).eof = false := hno
      rw [hover] at hno
      cases hno
    | false =>
      rw [if_neg Bool.false_ne_true]
      exact ⟨h.tracks, hwritten, fun _ _ => hout.2⟩
  · exact thrown hcall (h.threw he hreceived ⟨[], List.nil_prefix, by rw [hsent, List.append_nil]⟩)

/-! ### Rule 3 -/

theorem offered_lt (s : TCPSpongeSocket α) :
    min 65536 s.tcp.inboundStream.bufferSize < 2 ^ 31 :=
  (min_le_left _ _).trans_lt (by decide)

theorem offered_prefix (s : TCPSpongeSocket α) :
    s.offered.flatten <+: s.tcp.inboundStream.buffer := by
  rw [offered, List.flatten_cons, List.flatten_nil, List.append_nil,
    ByteStream.peekOutput_of_lt _ s.offered_lt]
  exact List.take_prefix ..

/-- The socket after `n` bytes were written to the owner. -/
def delivered (s : TCPSpongeSocket α) (n : ℕ) (writes : List (Answer ℕ)) : TCPSpongeSocket α :=
  (s.setThreadData (s.threadData.wrote (s.offered.flatten.take n) writes
    (s.threadData.writeCount + 1))).setTcp (s.tcp.readInbound n)

/-- The socket after the shutdown of the owner's descriptor. -/
def finished (s : TCPSpongeSocket α) : TCPSpongeSocket α :=
  (s.setThreadData s.threadData.popShutdown.registerWrite).setInboundShutdown

theorem finishIfOver_cases (s : TCPSpongeSocket α) :
    finishIfOver s = .ok () s ∨ finishIfOver s = .ok () s.finished ∨
      ∃ errno, finishIfOver s =
        .error (.unixError "shutdown" errno) (s.setThreadData s.threadData.popShutdown) := by
  rw [finishIfOver, get_bind]
  cases s.inboundOver with
  | false => exact Or.inl rfl
  | true =>
    right
    rw [if_pos rfl]
    rcases FileDescriptor.shutdown_cases .wr s.threadData with hok | ⟨errno, herr⟩
    · refine Or.inl ?_
      rw [bind_ok (onThreadData_ok hok)]
      rfl
    · exact Or.inr ⟨errno, bind_error (onThreadData_error herr) _⟩

theorem inboundCallback_cases (s : TCPSpongeSocket α) :
    (∃ n writes, FileDescriptor.Takes n s.offered ∧
        inboundCallback s = finishIfOver (s.delivered n writes)) ∨
      ∃ e done writes, KernelFault e ∧ done <+: s.tcp.inboundStream.buffer ∧
        inboundCallback s = .error e (s.setThreadData
          (s.threadData.wrote done writes s.threadData.writeCount)) := by
  have hlen : s.offered.flatten.length < 2 ^ 63 :=
    FileDescriptor.length_flatten_peekOutput_lt s.tcp.inboundStream s.offered_lt
  rw [inboundCallback, get_bind]
  rcases FileDescriptor.write_once_cases hlen s.threadData with
    ⟨n, writes, hn, hwrite⟩ | ⟨e, done, writes, he, hdone, hwrite⟩
  · refine Or.inl ⟨n, writes, hn, ?_⟩
    rw [bind_ok (onThreadData_ok hwrite), modify_bind]
    rfl
  · exact Or.inr ⟨e, done, writes, he, hdone.trans s.offered_prefix,
      bind_error (onThreadData_error hwrite) _⟩

theorem SocketInv.delivered (h : SocketInv J isn left s) {n : ℕ}
    (hn : FileDescriptor.Takes n s.offered) (writes : List (Answer ℕ)) :
    SocketInv J isn left (s.delivered n writes) where
  tracks := h.tracks
  histories := h.histories.read
    (FileDescriptor.take_peekOutput_append s.tcp.inboundStream s.offered_lt hn)
  isOpen := h.isOpen

theorem socketInv_inbound :
    Triple (SocketInv J isn left) inboundCallback (fun _ => SocketInv J isn left)
      (SocketThrew J isn) := by
  intro s h
  rcases inboundCallback_cases s with ⟨n, writes, hn, hcall⟩ | ⟨e, done, writes, he, hdone, hcall⟩
  · have hmoved := h.delivered hn writes
    rw [hcall]
    rcases finishIfOver_cases (s.delivered n writes) with hend | hend | ⟨errno, hend⟩
    · exact returned hend hmoved
    · exact returned hend ⟨hmoved.tracks, hmoved.histories, hmoved.isOpen⟩
    · exact thrown hend (hmoved.threw (.unix "shutdown" errno) List.prefix_rfl
        ⟨[], List.nil_prefix, (List.append_nil _).symm⟩)
  · exact thrown hcall (h.threw he List.prefix_rfl ⟨done, hdone, rfl⟩)

/-! ### Rule 4 -/

/-- **The loop hands over the whole queue**, front first. -/
theorem socketInv_sendLoop (hA : A.Keeps J) (queue : List TCPSegment) :
    Triple (fun s => SocketInv J isn left s ∧ s.tcp.segmentsOut = queue) (sendLoop A queue)
      (fun _ s => SocketInv J isn left s ∧ s.tcp.segmentsOut = []) (SocketThrew J isn) := by
  induction queue with
  | nil => exact triple_pure _ fun _ => id
  | cons seg rest ih =>
    rintro s ⟨h, hqueue⟩
    have hseg : seg.Compact := h.histories.compact.queue seg (by rw [hqueue]; simp)
    rw [sendLoop, modify_bind]
    cases hwrite : A.write seg s.datagramAdapter with
    | ok _ adapter =>
      rw [bind_ok (onAdapter_ok (s := s.give seg) hwrite), modify_bind]
      have hJ := (hA.write _ _ seg hseg).ok h.tracks hwrite
      refine ih _ ⟨⟨hJ, h.histories.give hqueue, h.isOpen⟩, ?_⟩
      show s.tcp.segmentsOut.drop 1 = rest
      rw [hqueue]
      rfl
    | error e adapter =>
      obtain ⟨he, hJ⟩ := (hA.write _ _ seg hseg).error h.tracks hwrite
      refine thrown (bind_error (onAdapter_error (s := s.give seg) hwrite) _) ?_
      refine ⟨Or.inl he, hJ, ⟨_, List.prefix_rfl, h.histories.transmits.of_subset ?_⟩,
        h.safe.follows⟩
      -- the segment is still in the queue
      show (s.given ++ [seg]) ++ s.tcp.segmentsOut ⊆ s.given ++ s.tcp.segmentsOut
      rw [hqueue]
      simp

theorem socketInv_send (hA : A.Keeps J) :
    Triple (SocketInv J isn left) (sendCallback A)
      (fun _ s => SocketInv J isn left s ∧ s.tcp.segmentsOut = []) (SocketThrew J isn) := by
  refine triple_get_bind fun s => (socketInv_sendLoop hA s.tcp.segmentsOut).weaken ?_
    (fun _ _ => id) fun _ _ => id
  rintro _ ⟨rfl, h⟩
  exact ⟨h, rfl⟩

/-! ### The rules together -/

/-- Every read from the owner is counted. -/
theorem outboundCallback_counts {u : Unit} (hok : outboundCallback s = .ok u s') :
    s'.threadData.readCount = s.threadData.readCount + 1 := by
  rcases outboundCallback_cases s with ⟨data, -, hcall⟩ | ⟨e, fd, -, -, -, hcall⟩
  · rw [hcall] at hok
    split at hok
    · cases hok
    · cases hok
      split
      · rfl
      · rfl
  · rw [hcall] at hok
    cases hok

/-- Every write to the owner is counted, and the shutdown once more. -/
theorem inboundCallback_counts {u : Unit} (hok : inboundCallback s = .ok u s') :
    s'.threadData.eof = s.threadData.eof ∧
      (s'.threadData.writeCount = s.threadData.writeCount + 1 ∨
        s'.threadData.writeCount = s.threadData.writeCount + 1 + 1) := by
  rcases inboundCallback_cases s with ⟨n, writes, -, hcall⟩ | ⟨e, done, writes, -, -, hcall⟩
  · rw [hcall] at hok
    rcases finishIfOver_cases (s.delivered n writes) with hend | hend | ⟨errno, hend⟩
    · rw [hend] at hok
      cases hok
      exact ⟨rfl, Or.inl rfl⟩
    · rw [hend] at hok
      cases hok
      exact ⟨rfl, Or.inr rfl⟩
    · rw [hend] at hok
      cases hok
  · rw [hcall] at hok
    cases hok

/-- The loop over the queue leaves the owner's descriptor alone. -/
theorem sendLoop_threadData (fd : FileDescriptor) (queue : List TCPSegment) :
    Triple (fun s => s.threadData = fd) (sendLoop A queue) (fun _ s => s.threadData = fd)
      fun _ _ => True := by
  induction queue with
  | nil => exact triple_pure _ fun _ => id
  | cons seg rest ih =>
    have hwrite : Triple (fun s : TCPSpongeSocket α => s.threadData = fd) (onAdapter (A.write seg))
        (fun _ s => s.threadData = fd) fun _ _ => True :=
      Triple.zoom (P := fun _ => True) (Q := fun _ _ => True) (E := fun _ _ => True)
        (fun _ _ => ⟨fun _ _ _ => trivial, fun _ _ _ => trivial⟩) (fun _ _ => trivial)
        (fun _ _ _ h _ => h) fun _ _ _ _ _ => trivial
    exact Triple.bind (triple_modify _ fun _ h => h) fun _ => hwrite.bind fun _ =>
      Triple.bind (triple_modify _ fun _ h => h) fun _ => ih

/-- The other rules leave the end of the owner's input alone. -/
theorem callback_eof (j : SocketRule) (hj : j ≠ .outbound) :
    Triple (fun s => s.threadData.eof = false) (socketRule A j).callback
      (fun _ s => s.threadData.eof = false) fun _ _ => True := by
  intro s heof
  refine ⟨fun u s' hok => ?_, fun _ _ _ => trivial⟩
  cases j with
  | segment =>
    rcases segmentCallback_cases A s with ⟨seg, adapter, fullyAcked, -, hcall⟩ |
      ⟨e, adapter, -, hcall⟩
    · have hok := hcall.symm.trans hok
      cases hok
      cases seg <;> exact heof
    · have hok := hcall.symm.trans hok
      cases hok
  | outbound => exact absurd rfl hj
  | inbound => exact (inboundCallback_counts hok).1.trans heof
  | send =>
    have hsame : s'.threadData = s.threadData :=
      (sendLoop_threadData s.threadData s.tcp.segmentsOut).ok rfl hok
    rw [hsame]
    exact heof

/-- **The rules of the socket keep its invariant.** -/
theorem socketRule_handles (hA : A.Keeps J) :
    Handles (socketRule A) (fun i s => i = .outbound → s.threadData.eof = false)
      (fun left s => left.Nodup ∧ SocketInv J isn left s) (SocketThrew J isn) where
  known i s hfresh := by
    rintro rfl
    by_contra heof
    exact hfresh (Or.inl ⟨rfl, Bool.not_eq_false _ ▸ heof⟩)
  cancel pre i post := by
    have hsub : (pre ++ post).Sublist (pre ++ i :: post) :=
      (List.Sublist.refl pre).append (List.sublist_cons_self i post)
    have hskip : ∀ s, (pre ++ i :: post).Nodup ∧ SocketInv J isn (pre ++ i :: post) s →
        (pre ++ post).Nodup ∧ SocketInv J isn (pre ++ post) s := fun s h =>
      ⟨h.1.sublist hsub, h.2.tracks, h.2.histories, fun hmem => h.2.isOpen (hsub.subset hmem)⟩
    cases i with
    | segment => exact triple_pure _ hskip
    | outbound =>
      refine triple_modify _ fun s h => ⟨h.1.sublist hsub, h.2.tracks,
        h.2.histories.quiet .endInput (Or.inl rfl), fun hmem => ?_⟩
      exact absurd hmem (List.nodup_cons.mp (List.nodup_middle.mp h.1)).1
    | inbound => exact triple_pure _ hskip
    | send => exact triple_pure _ hskip
  callback left i hi before := by
    rintro s ⟨⟨hnodup, h⟩, hfresh, rfl⟩
    cases i with
    | segment =>
      have hcall := socketInv_segment hA s h
      refine ⟨fun u s' hok => ⟨⟨hnodup, hcall.1 u s' hok⟩, fun hcount _ => ?_⟩, hcall.2⟩
      rcases segmentCallback_cases A s with ⟨seg, adapter, fullyAcked, hread, heq⟩ |
        ⟨e, adapter, -, heq⟩
      · have hok := heq.symm.trans hok
        cases hok
        have hnew : serviceCount (socketRule A .segment)
            { (s.setAdapter adapter).receive seg with fullyAcked } = (A.fd adapter).readCount := by
          cases seg <;> rfl
        rw [hnew, hA.readCounts h.tracks hread] at hcount
        exact absurd hcount.symm (succ_ne _)
      · have hok := heq.symm.trans hok
        cases hok
    | outbound =>
      have hcall := socketInv_outbound hi s ⟨h, hfresh rfl⟩
      refine ⟨fun u s' hok => ⟨⟨hnodup, hcall.1 u s' hok⟩, fun hcount _ => ?_⟩, hcall.2⟩
      exact absurd (hcount.trans (outboundCallback_counts hok)).symm (succ_ne _)
    | inbound =>
      have hcall := socketInv_inbound s h
      refine ⟨fun u s' hok => ⟨⟨hnodup, hcall.1 u s' hok⟩, fun hcount _ => ?_⟩, hcall.2⟩
      rcases (inboundCallback_counts hok).2 with hnew | hnew
      · exact absurd (hcount.trans hnew).symm (succ_ne _)
      · exact absurd (hcount.trans hnew).symm (succ_succ_ne _)
    | send =>
      have hcall := socketInv_send hA s h
      refine ⟨fun u s' hok => ⟨⟨hnodup, (hcall.1 u s' hok).1⟩, fun _ hint => ?_⟩, hcall.2⟩
      -- the queue is empty, so that the rule does not ask for more
      have hint : (!s'.tcp.segmentsOut.isEmpty) = true := hint
      rw [(hcall.1 u s' hok).2] at hint
      cases hint
  frameCancel i j _ := by
    cases j with
    | segment => exact triple_pure _ fun _ => id
    | outbound => exact triple_modify _ fun _ => id
    | inbound => exact triple_pure _ fun _ => id
    | send => exact triple_pure _ fun _ => id
  frameCallback i j hij := by
    intro s hs
    refine ⟨fun u s' hok hi => ?_, fun _ _ _ => trivial⟩
    exact (callback_eof j (fun hj => hij (hi.trans hj.symm))).ok (hs hi) hok
  pollError _ _ h := ⟨Or.inr rfl, h.2.safe⟩

end TCPSpongeSocket

/-! ### The state after `connect` -/

/-- The first segment of a sender is its SYN, and the window of one is full then. -/
theorem TCPSender.fillWindow_new (capacity : ℕ) (retxTimeout : UInt16)
    (fixedIsn : Option WrappingInt32) (random : WrappingInt32) :
    (TCPSender.new capacity retxTimeout fixedIsn random).fillWindow.stateSummary = .synSent := by
  obtain ⟨st, hst⟩ : ∃ st, st = TCPSender.new capacity retxTimeout fixedIsn random := ⟨_, rfl⟩
  have hlen : st.nextSegment.1.lengthInSequenceSpace = 1 := by
    have hnil : st.nextSegment.1.payload = [] := by
      rw [nextSegment_payload, hst]
      exact List.take_nil
    rw [TCPSegment.lengthInSequenceSpace, hnil, hst]
    rfl
  have hnext : (st.nextSegment.2.pushSegment st.nextSegment.1).nextSeqno = 1 := by
    show u64 (st.nextSeqno + st.nextSegment.1.lengthInSequenceSpace) = 1
    rw [hlen, hst]
    rfl
  have hflight : (st.nextSegment.2.pushSegment st.nextSegment.1).bytesInFlight = 1 := by
    show u64 (st.bytesInFlight + st.nextSegment.1.lengthInSequenceSpace) = 1
    rw [hlen, hst]
    rfl
  have hfull : (st.nextSegment.2.pushSegment st.nextSegment.1).mayFill = false := by
    have hedge : (st.nextSegment.2.pushSegment st.nextSegment.1).windowEdge = 1 := by
      show st.windowEdge = 1
      rw [hst]
      rfl
    have hsyn : (st.nextSegment.2.pushSegment st.nextSegment.1).isSynSet = true := by
      show (st.isSynSet || st.nextSeqno == 0) = true
      rw [hst]
      rfl
    rw [mayFill, hnext, hedge, hsyn]
    rfl
  have hopen : (st.nextSegment.2.pushSegment st.nextSegment.1).stream.error = false := by
    show st.stream.error = false
    rw [hst]
    rfl
  have hmay : st.mayFill = true := by
    rw [hst]
    rfl
  rw [← hst, fillWindow_eq, if_pos hmay, if_neg (by rw [hlen]; decide), fillWindow_eq, hfull,
    if_neg Bool.false_ne_true, stateSummary, hopen, hnext, hflight]
  rfl

theorem TCPConnection.state_connect (cfg : TCPConfig) (random : WrappingInt32) :
    (TCPConnection.new cfg random).connect.state = TCPState.ofState .synSent := by
  have hqueue : ∀ (st : TCPSender) (queue : List TCPSegment),
      TCPSender.stateSummary { st with segmentsOut := queue } = st.stateSummary := fun _ _ => rfl
  have hactive : ¬ (!(TCPConnection.new cfg random).active) = true := Bool.false_ne_true
  rw [TCPConnection.state, connect, if_neg hactive, sendSegments, hqueue, TCPConnection.new,
    TCPSender.fillWindow_new]
  rfl

/-! ### Runs of the thread -/

namespace TcpThread

open TCPSpongeSocket Run

variable {α : Type} {A : FdAdapter α} {J : α → List TCPSegment → List TCPSegment → Prop}
  {isn : WrappingInt32} {t : TcpThread α}

/-- The invariant of the socket, or what an exception leaves of it. -/
structure ThreadInv (J : α → List TCPSegment → List TCPSegment → Prop) (isn : WrappingInt32)
    (t : TcpThread α) : Prop where
  rules : t.rules.Sublist TCPSpongeSocket.rules
  threw : ∀ e, t.phase = .threw e → SocketThrew J isn e t.socket
  holds : (∀ e, t.phase ≠ .threw e) → SocketInv J isn t.rules t.socket

/-- A thread that has not been stopped. -/
theorem ThreadInv.of_inv (hrules : t.rules.Sublist TCPSpongeSocket.rules)
    (hphase : ∀ e, t.phase ≠ .threw e) (h : SocketInv J isn t.rules t.socket) :
    ThreadInv J isn t :=
  ⟨hrules, fun e he => absurd he (hphase e), fun _ => h⟩

/-- A thread that an exception has stopped. -/
theorem ThreadInv.of_threw (hrules : t.rules.Sublist TCPSpongeSocket.rules)
    {e : SystemException} (hphase : t.phase = .threw e) (h : SocketThrew J isn e t.socket) :
    ThreadInv J isn t := by
  refine ⟨hrules, fun e' he' => ?_, fun hno => absurd hphase (hno e)⟩
  rw [hphase] at he'
  cases he'
  exact h

theorem next_ne_threw {phase : Phase} (h : ∀ e, phase ≠ .threw e) (e : SystemException) :
    phase.next ≠ .threw e := by
  cases phase with
  | threw e' => exact absurd rfl (h e')
  | connecting => nofun
  | listening => nofun
  | running => nofun
  | ended => nofun

theorem socketInv_tick (hA : A.Keeps J) {left : List SocketRule} (ms : ℕ) :
    Triple (SocketInv J isn left) (TCPSpongeSocket.tick A ms) (fun _ => SocketInv J isn left)
      (SocketThrew J isn) := by
  intro s h
  have hticked : SocketInv J isn left (s.setTcp (s.tcp.tick ms)) := by
    refine ⟨h.tracks, h.histories.quiet (.tick ms) (Or.inr (Or.inr ⟨ms, rfl⟩)), ?_⟩
    intro hmem heof
    have hout : (TCPConnection.connStep s.tcp (.tick ms)).sender.Outbound false :=
      TCPConnection.outbound_connStep ⟨h.histories.wf, h.isOpen hmem heof⟩ nofun
    exact hout.2
  rw [TCPSpongeSocket.tick, modify_bind]
  cases htick : A.tick ms s.datagramAdapter with
  | ok _ adapter =>
    refine returned (onAdapter_ok htick) ?_
    exact ⟨(hA.tick _ _ ms).ok h.tracks htick, hticked.histories, hticked.isOpen⟩
  | error e adapter =>
    obtain ⟨he, hJ⟩ := (hA.tick _ _ ms).error h.tracks htick
    exact thrown (onAdapter_error htick)
      ⟨Or.inl he, hJ, hticked.safe.sends, hticked.safe.follows⟩

theorem ThreadInv.passTime (hA : A.Keeps J) (hrules : t.rules.Sublist TCPSpongeSocket.rules)
    (hphase : ∀ e, t.phase ≠ .threw e) (h : SocketInv J isn t.rules t.socket) (now : ℕ) :
    ThreadInv J isn (t.passTime A now) := by
  have htick : Triple (SocketInv J isn t.rules)
      (TCPSpongeSocket.tick A (sub64 now t.baseTime)) (fun _ => SocketInv J isn t.rules)
      (SocketThrew J isn) := socketInv_tick hA _
  rw [TcpThread.passTime]
  split
  · rw [EStateM.run]
    cases hcall : TCPSpongeSocket.tick A (sub64 now t.baseTime) t.socket with
    | ok u s => exact .of_inv hrules hphase (htick.ok h hcall)
    | error e s => exact .of_threw hrules rfl (htick.error h hcall)
  · exact .of_inv hrules hphase h

/-- **One turn keeps the invariant.** -/
theorem ThreadInv.step (hA : A.Keeps J) (h : ThreadInv J isn t) (event : LoopEvent) :
    ThreadInv J isn (threadStep A t event) := by
  rw [threadStep]
  split
  · exact h
  rename_i hgoing
  have hphase : ∀ e, t.phase ≠ .threw e := by
    intro e he
    rw [he] at hgoing
    exact hgoing rfl
  have hinv := h.holds hphase
  have hnodup := (by decide : TCPSpongeSocket.rules.Nodup).sublist h.rules
  split
  · exact .of_inv h.rules (next_ne_threw hphase) hinv
  have hhandles : Handles (socketRule A) _
      (fun left s => left.Nodup ∧ SocketInv J isn left s) (SocketThrew J isn) :=
    socketRule_handles hA
  have hwait := hhandles.wait event.poll t.rules hnodup
  rw [EStateM.run]
  cases hcall : waitNextEvent (socketRule A) event.poll t.rules t.socket with
  | error e s => exact .of_threw h.rules rfl (hwait.error ⟨hnodup, hinv⟩ hcall)
  | ok r s =>
    obtain ⟨⟨-, hleft⟩, hsub⟩ := hwait.ok ⟨hnodup, hinv⟩ hcall
    simp only
    split
    · exact .of_inv (hsub.trans h.rules) (next_ne_threw hphase) hleft
    · exact ThreadInv.passTime (t := { t with socket := s, rules := r.2 }) hA
        (hsub.trans h.rules) hphase hleft event.now

/-- **Run.** -/
theorem ThreadInv.run (hA : A.Keeps J) (h : ThreadInv J isn t) (events : List LoopEvent) :
    ThreadInv J isn (Run.run (threadStep A) t events) :=
  run_invariant_of_step (fun _ event h => h.step hA event) h events

theorem ThreadInv.safe (h : ThreadInv J isn t) : SocketSafe J isn t.socket := by
  by_cases hthrew : ∃ e, t.phase = .threw e
  · obtain ⟨e, he⟩ := hthrew
    exact (h.threw e he).2
  · exact (h.holds fun e he => hthrew ⟨e, he⟩).safe

end TcpThread

end Sponge
