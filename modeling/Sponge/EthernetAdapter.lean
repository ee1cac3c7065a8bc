import Sponge.IpAdapters

/-!
# TCP in IP over Ethernet

The adapter hands its datagrams to a `NetworkInterface` and writes the frames of the interface to a
TAP device.  A datagram whose next hop is unknown waits in the interface, so that a later read can
send it.  `framesIn` and `framesSent` record the frames that were read and handed to the kernel, and
are read by no function.

The invariant adds to `IpTracks` that the interface holds only datagrams made for the segments that
were given.  So its calls do not throw, and what a frame can be read as is known when it is sent.
-/

namespace Sponge

open Throwing Hoare MachineInt

/-! ### Calls on an interface that do not throw -/

theorem triple_ofCall {σ α : Type} {m : Call σ α} {P : σ → Prop} {Q : α → σ → Prop}
    (h : ∀ s, P s → ∃ a s', m s = .ok a s' ∧ Q a s') :
    Triple P (ofCall m) Q fun _ _ => False := by
  intro s hs
  obtain ⟨a, s', hcall, hQ⟩ := h s hs
  have hcall : ofCall m s = .ok a s' := by rw [ofCall, hcall]
  exact returned hcall hQ

namespace NetworkInterface

variable {S : InternetDatagram → Prop}

/-- An interface that holds only datagrams which can be written takes every frame. -/
theorem recvFrame_triple (hS : ∀ dgram, S dgram → dgram.Writable) {frame : EthernetFrame}
    {b : Buffer} (hpayload : frame.payload = [b]) :
    Triple (CarriesOnly S) (ofCall (recvFrame frame))
      (fun ret n => n.CarriesOnly S ∧ ∀ dgram ∈ ret, Delivers frame dgram) fun _ _ => False := by
  apply triple_ofCall
  intro n h
  have hfirst : ∀ msg, n.acceptedArp frame = some msg → n.FirstWritable msg := by
    intro msg _ _ _ e he
    have hmem : e ∈ n.heldFor msg.senderIpAddress := List.mem_of_mem_head? he
    exact hS e.1 (h.held e (List.mem_of_mem_filter hmem))
  obtain ⟨ret, n', hcall⟩ := (returns_recvFrame_iff hpayload n).mpr hfirst
  refine ⟨ret, n', hcall, (carriesOnly_recvFrame frame).ok h hcall, ?_⟩
  rintro dgram hret
  rw [Option.mem_def.mp hret] at hcall
  exact delivers_of_recvFrame hcall

theorem sendDatagram_triple {dgram : InternetDatagram} (hdgram : S dgram)
    (hwritable : dgram.Writable) (nextHop : Address) :
    Triple (CarriesOnly S) (ofCall (sendDatagram dgram nextHop))
      (fun _ n => n.CarriesOnly S) fun _ _ => False := by
  apply triple_ofCall
  intro n h
  obtain ⟨_, n', hcall⟩ := (returns_sendDatagram_iff dgram nextHop n).mpr
    fun _ => dgram.serializable_iff.mpr hwritable
  exact ⟨_, n', hcall, (carriesOnly_sendDatagram hdgram nextHop).ok h hcall⟩

end NetworkInterface

theorem payload_of_delivers {frame : EthernetFrame} {dgram : InternetDatagram}
    (h : NetworkInterface.Delivers frame dgram) : ∃ b, dgram.payload = [b] := by
  obtain ⟨-, hparse⟩ := h
  cases hbuffer : frame.payload.toBuffer with
  | error e =>
    rw [hbuffer] at hparse
    cases hparse
  | ok b =>
    rw [hbuffer] at hparse
    exact IPv4Datagram.payload_of_parse hparse

/-! ### The adapter -/

structure TCPOverIPv4OverEthernetAdapter where
  base : TCPOverIPv4Adapter := {}
  tap : FileDescriptor := {}
  interface : NetworkInterface
  nextHop : Address
  framesIn : List Buffer := []
  framesSent : List Buffer := []

namespace TCPOverIPv4OverEthernetAdapter

def setBase (a : TCPOverIPv4OverEthernetAdapter) (base : TCPOverIPv4Adapter) :
    TCPOverIPv4OverEthernetAdapter := { a with base }

def onBase {β : Type} (m : Call TCPOverIPv4Adapter β) :
    SysCall TCPOverIPv4OverEthernetAdapter β :=
  zoom base setBase (ofCall m)

def setTap (a : TCPOverIPv4OverEthernetAdapter) (tap : FileDescriptor) :
    TCPOverIPv4OverEthernetAdapter := { a with tap }

def onTap {β : Type} (m : SysCall FileDescriptor β) : SysCall TCPOverIPv4OverEthernetAdapter β :=
  zoom tap setTap m

def setInterface (a : TCPOverIPv4OverEthernetAdapter) (interface : NetworkInterface) :
    TCPOverIPv4OverEthernetAdapter := { a with interface }

def onInterface {β : Type} (m : Call NetworkInterface β) :
    SysCall TCPOverIPv4OverEthernetAdapter β :=
  zoom interface setInterface (ofCall m)

/-- A frame was read. -/
def took (bytes : Buffer) (a : TCPOverIPv4OverEthernetAdapter) : TCPOverIPv4OverEthernetAdapter :=
  { a with framesIn := a.framesIn ++ [bytes] }

/-- A frame is handed to the kernel. -/
def emit (bytes : Buffer) (a : TCPOverIPv4OverEthernetAdapter) : TCPOverIPv4OverEthernetAdapter :=
  { a with framesSent := a.framesSent ++ [bytes] }

/-- `_interface.frames_out().pop()`. -/
def popFrame (a : TCPOverIPv4OverEthernetAdapter) : TCPOverIPv4OverEthernetAdapter :=
  a.setInterface { a.interface with framesOut := a.interface.framesOut.tail }

/-- The constructor, which sends a frame without content first. -/
def new (ethAddress : EthernetAddress) (ipAddress nextHop : Address) :
    SysCall FileDescriptor TCPOverIPv4OverEthernetAdapter := do
  let dummyFrame : EthernetFrame := {}
  let _ ← FileDescriptor.write dummyFrame.serialize true
  let tap ← get
  return { tap, interface := .new ethAddress ipAddress, nextHop
           framesSent := [dummyFrame.serialize.concatenate] }

/-- The body of the loop of `send_pending`. -/
def sendFront (frame : EthernetFrame) : SysCall TCPOverIPv4OverEthernetAdapter Unit := do
  modify (emit frame.serialize.concatenate)
  let _ ← onTap (FileDescriptor.write frame.serialize true)
  modify popFrame

/-- At most so many turns of the loop. -/
def sendFrames : ℕ → SysCall TCPOverIPv4OverEthernetAdapter Unit
  | 0 => pure ()
  | turns + 1 => do
    let a ← get
    match a.interface.framesOut with
    | [] => return ()
    | frame :: _ =>
      sendFront frame
      sendFrames turns

/-- The loop takes one frame a turn, and nothing adds one. -/
def sendPending : SysCall TCPOverIPv4OverEthernetAdapter Unit := do
  let a ← get
  sendFrames a.interface.framesOut.length

/-- The part of `read` that follows a frame that was parsed. -/
def readFrame (frame : EthernetFrame) :
    SysCall TCPOverIPv4OverEthernetAdapter (Option TCPSegment) := do
  let ipDgram ← onInterface (NetworkInterface.recvFrame frame)
  sendPending
  match ipDgram with
  | some dgram => onBase (TCPOverIPv4Adapter.unwrapTcpInIp dgram)
  | none => return none

def read : SysCall TCPOverIPv4OverEthernetAdapter (Option TCPSegment) := do
  let bytes ← onTap (FileDescriptor.read FileDescriptor.NO_LIMIT)
  modify (took bytes)
  let (res, frame) ← ofNetwork (EthernetFrame.parse {} bytes)
  if res ≠ .noError then return none
  else readFrame frame

def tick (msSinceLastTick : ℕ) : SysCall TCPOverIPv4OverEthernetAdapter Unit := do
  modify fun a => a.setInterface (a.interface.tick msSinceLastTick)
  sendPending

def write (seg : TCPSegment) : SysCall TCPOverIPv4OverEthernetAdapter Unit := do
  let a ← get
  let (ipDgram, _) ← ofNetwork (a.base.wrapTcpInIp seg)
  onInterface (NetworkInterface.sendDatagram ipDgram a.nextHop)
  sendPending

section Rates

variable (rates : UInt16 × UInt16)

theorem rates_onTap {β : Type} (m : SysCall FileDescriptor β) :
    Keeps (fun a => a.base.config.rates = rates) (onTap m) := by
  apply keeps_zoom
  intro a tap h
  exact h

theorem rates_onInterface {β : Type} (m : Call NetworkInterface β) :
    Keeps (fun a => a.base.config.rates = rates) (onInterface m) := by
  apply keeps_zoom
  intro a interface h
  exact h

theorem rates_sendFront (frame : EthernetFrame) :
    Keeps (fun a => a.base.config.rates = rates) (sendFront frame) := by
  apply Keeps.bind
  · apply triple_modify
    exact fun _ h => h
  intro _
  apply Keeps.bind (rates_onTap rates _)
  intro _
  apply triple_modify
  exact fun _ h => h

theorem rates_sendFrames (turns : ℕ) :
    Keeps (fun a => a.base.config.rates = rates) (sendFrames turns) := by
  induction turns with
  | zero => exact keeps_pure ()
  | succ turns ih =>
    apply Keeps.get_bind
    intro a _
    split
    · exact keeps_pure ()
    · exact Keeps.bind (rates_sendFront rates _) fun _ => ih

theorem rates_sendPending : Keeps (fun a => a.base.config.rates = rates) sendPending := by
  apply Keeps.get_bind
  intro a _
  exact rates_sendFrames rates a.interface.framesOut.length

theorem rates_readFrame (frame : EthernetFrame) :
    Keeps (fun a => a.base.config.rates = rates) (readFrame frame) := by
  apply Keeps.bind (rates_onInterface rates _)
  intro ipDgram
  apply Keeps.bind (rates_sendPending rates)
  intro _
  cases ipDgram with
  | none => exact keeps_pure none
  | some dgram =>
    apply Triple.zoom (rates_unwrapTcpInIp rates dgram)
    · exact fun _ => id
    · exact fun _ _ _ _ => id
    · exact fun _ _ _ _ => id

theorem rates_read : Keeps (fun a => a.base.config.rates = rates) read := by
  apply Keeps.bind (rates_onTap rates _)
  intro bytes
  apply Keeps.bind
  · apply triple_modify
    exact fun _ h => h
  intro _
  apply Keeps.bind (keeps_ofNetwork _)
  intro parsed
  exact Keeps.ite (keeps_pure none) (rates_readFrame rates parsed.2)

theorem rates_tick (ms : ℕ) : Keeps (fun a => a.base.config.rates = rates) (tick ms) := by
  apply Keeps.bind
  · apply triple_modify
    exact fun _ h => h
  intro _
  exact rates_sendPending rates

theorem rates_write (seg : TCPSegment) :
    Keeps (fun a => a.base.config.rates = rates) (write seg) := by
  apply Keeps.get_bind
  intro a _
  apply Keeps.bind (keeps_ofNetwork _)
  intro wrapped
  apply Keeps.bind (rates_onInterface rates _)
  intro _
  exact rates_sendPending rates

end Rates

def adapter : FdAdapter TCPOverIPv4OverEthernetAdapter where
  fd a := a.tap
  config a := a.base.config
  read := read
  write := write
  tick := tick
  configure cfg a := a.setBase { a.base with cfg }
  setListening l a := a.setBase { a.base with listen := l }
  readRates := rates_read
  writeRates := rates_write
  tickRates := rates_tick

/-! ### What it keeps -/

/-- The datagrams in the frames that were read. -/
def Came (a : TCPOverIPv4OverEthernetAdapter) (dgram : InternetDatagram) : Prop :=
  ∃ bytes ∈ a.framesIn, Bears bytes dgram

/-- The datagrams in the frames that were written. -/
def Went (a : TCPOverIPv4OverEthernetAdapter) (dgram : InternetDatagram) : Prop :=
  ∃ bytes ∈ a.framesSent, Bears bytes dgram

/-- The datagram was made for one of the segments. -/
def MadeFor (given : List TCPSegment) (dgram : InternetDatagram) : Prop :=
  ∃ seg ∈ given, Wraps dgram seg

structure Tracks (a : TCPOverIPv4OverEthernetAdapter) (taken given : List TCPSegment) : Prop where
  ip : IpTracks a.base a.Came a.Went taken given
  carries : a.interface.CarriesOnly (MadeFor given)

/-- In the middle of a call: the frames read and the reads counted are known. -/
structure Midway (taken given : List TCPSegment) (framesIn : List Buffer) (count : UInt32)
    (a : TCPOverIPv4OverEthernetAdapter) : Prop where
  tracks : a.Tracks taken given
  framesIn : a.framesIn = framesIn
  count : a.tap.readCount = count

variable {taken given : List TCPSegment} {framesIn : List Buffer} {count : UInt32}
  {a : TCPOverIPv4OverEthernetAdapter}

theorem MadeFor.writable {dgram : InternetDatagram} (h : MadeFor given dgram) :
    dgram.Writable := by
  obtain ⟨seg, -, hwraps⟩ := h
  exact hwraps.writable

theorem Tracks.took (h : a.Tracks taken given) (bytes : Buffer) :
    (a.took bytes).Tracks taken given := by
  refine ⟨h.ip.came_mono ?_, h.carries⟩
  rintro dgram ⟨b, hb, hbears⟩
  exact ⟨b, List.mem_append_left _ hb, hbears⟩

theorem Tracks.give (h : a.Tracks taken given) (seg : TCPSegment) :
    a.Tracks taken (given ++ [seg]) where
  ip := h.ip.went_mono (List.subset_append_left _ _) fun _ => Or.inl
  carries := by
    apply h.carries.mono
    rintro dgram ⟨seg', hseg', hwraps⟩
    exact ⟨seg', List.mem_append_left _ hseg', hwraps⟩

/-- A frame of the interface carries a segment that was given, if it carries a datagram. -/
theorem Tracks.emit (h : a.Tracks taken given) {frame : EthernetFrame}
    (hframe : frame ∈ a.interface.framesOut) :
    (a.emit frame.serialize.concatenate).Tracks taken given := by
  refine ⟨h.ip.went_mono (List.Subset.refl _) ?_, h.carries⟩
  rintro dgram ⟨bytes, hbytes, hbears⟩
  rcases List.mem_append.mp hbytes with hold | hnew
  · exact Or.inl ⟨bytes, hold, hbears⟩
  · rw [List.mem_singleton.mp hnew] at hbears
    obtain ⟨htype, hparse⟩ := bears_serialize hbears
    obtain ⟨sent, ⟨seg, hseg, hwraps⟩, hser⟩ := h.carries.frames frame hframe htype
    have hforwarded := (IPv4Datagram.Forwarded.refl sent).reread hwraps.fields hser hparse
    exact Or.inr ⟨seg, hseg, hwraps.read.forwarded hforwarded⟩

theorem length_serialize_lt (h : a.Tracks taken given) {frame : EthernetFrame}
    (hframe : frame ∈ a.interface.framesOut) : frame.serialize.flatten.length < 2 ^ 63 := by
  have hsize : frame.payload.concatenate.length < 2 ^ 17 := by
    by_cases htype : frame.header.type = EthernetHeader.TYPE_IPv4
    · obtain ⟨sent, ⟨seg, -, hwraps⟩, hser⟩ := h.carries.frames frame hframe htype
      exact IPv4Datagram.length_of_serialize hwraps.short hser
    · rw [h.carries.others frame hframe htype]
      decide
  have hheader := frame.header.length_serialize
  have hlength : frame.serialize.flatten.length =
      frame.header.serialize.length + frame.payload.concatenate.length := by
    rw [EthernetFrame.serialize, List.flatten_cons, List.length_append]
    rfl
  rw [hlength, hheader, EthernetHeader.LENGTH]
  omega

theorem midway_onInterface {β : Type} {m : Call NetworkInterface β} {Q : β → Prop}
    (hm : Triple (NetworkInterface.CarriesOnly (MadeFor given)) (ofCall m)
      (fun ret n => n.CarriesOnly (MadeFor given) ∧ Q ret) fun _ _ => False) :
    Triple (Midway taken given framesIn count) (onInterface m)
      (fun ret a => Midway taken given framesIn count a ∧ Q ret)
      fun e a => KernelFault e ∧ a.Tracks taken given := by
  apply Triple.zoom hm
  · exact fun _ h => h.tracks.carries
  · exact fun _ _ _ h hn => ⟨⟨⟨h.tracks.ip, hn.1⟩, h.framesIn, h.count⟩, hn.2⟩
  · exact fun _ _ _ _ hno => hno.elim

/-- One frame is handed to the kernel. -/
theorem midway_sendFront {frame : EthernetFrame} {rest : List EthernetFrame}
    (hframes : a.interface.framesOut = frame :: rest) :
    Triple (fun a' => a' = a ∧ Midway taken given framesIn count a) (sendFront frame)
      (fun _ a => Midway taken given framesIn count a ∧ a.interface.framesOut = rest)
      fun e a => KernelFault e ∧ a.Tracks taken given := by
  have hmem : frame ∈ a.interface.framesOut := by simp [hframes]
  apply Triple.bind (Q := fun _ a' => Midway taken given framesIn count a' ∧
    a'.interface.framesOut = frame :: rest)
  · apply triple_modify
    rintro _ ⟨rfl, h⟩
    exact ⟨⟨h.tracks.emit hmem, h.framesIn, h.count⟩, hframes⟩
  intro _
  apply Triple.bind (Q := fun _ a' => Midway taken given framesIn count a' ∧
    a'.interface.framesOut = frame :: rest)
  · intro a' h
    have hfront : frame ∈ a'.interface.framesOut := by simp [h.2]
    have hlen := length_serialize_lt h.1.tracks hfront
    have hwrite : Triple (fun a'' => a'' = a') (onTap (FileDescriptor.write frame.serialize true))
        (fun _ a => Midway taken given framesIn count a ∧
          a.interface.framesOut = frame :: rest)
        fun e a => KernelFault e ∧ a.Tracks taken given := by
      apply Triple.zoom (FileDescriptor.write_counts hlen count)
      · rintro _ rfl
        exact h.1.count
      · rintro _ _ _ rfl hcount
        exact ⟨⟨⟨h.1.tracks.ip, h.1.tracks.carries⟩, h.1.framesIn, hcount⟩, h.2⟩
      · rintro _ _ _ rfl he
        exact ⟨he, h.1.tracks.ip, h.1.tracks.carries⟩
    exact hwrite a' rfl
  · intro _
    apply triple_modify
    intro a' h
    have hcarries := h.1.tracks.carries.pop (List.tail_subset _)
    refine ⟨⟨⟨h.1.tracks.ip, hcarries⟩, h.1.framesIn, h.1.count⟩, ?_⟩
    show a'.interface.framesOut.tail = rest
    rw [h.2, List.tail_cons]

/-- With a turn for each frame, the loop ends because the queue is empty. -/
theorem midway_sendFrames (turns : ℕ) :
    Triple (fun a => Midway taken given framesIn count a ∧ a.interface.framesOut.length = turns)
      (sendFrames turns)
      (fun _ a => Midway taken given framesIn count a ∧ a.interface.framesOut = [])
      fun e a => KernelFault e ∧ a.Tracks taken given := by
  induction turns with
  | zero => exact triple_pure _ fun a h => ⟨h.1, List.length_eq_zero_iff.mp h.2⟩
  | succ turns ih =>
    intro a h
    obtain ⟨frame, rest, hframes⟩ := List.exists_cons_of_length_eq_add_one h.2
    have hrest : rest.length = turns := by
      rw [hframes, List.length_cons] at h
      omega
    have hturn : sendFrames (turns + 1) a =
        (sendFront frame >>= fun _ => sendFrames turns) a := by
      simp only [sendFrames, get_bind, hframes]
    have hsend : Triple (fun a' => a' = a ∧ Midway taken given framesIn count a)
        (sendFront frame >>= fun _ => sendFrames turns)
        (fun _ a => Midway taken given framesIn count a ∧ a.interface.framesOut = [])
        fun e a => KernelFault e ∧ a.Tracks taken given := by
      apply Triple.bind (midway_sendFront hframes)
      intro _
      apply ih.weaken
      · exact fun _ h => ⟨h.1, by rw [h.2, hrest]⟩
      · exact fun _ _ => id
      · exact fun _ _ => id
    rw [hturn]
    exact hsend a ⟨rfl, h.1⟩

/-- **What is pending is sent**, unless the kernel fails. -/
theorem midway_sendPending :
    Triple (Midway taken given framesIn count) sendPending
      (fun _ a => Midway taken given framesIn count a ∧ a.interface.framesOut = [])
      fun e a => KernelFault e ∧ a.Tracks taken given := by
  apply triple_get_bind
  intro a
  apply (midway_sendFrames a.interface.framesOut.length).weaken
  · rintro _ ⟨rfl, h⟩
    exact ⟨h, rfl⟩
  · exact fun _ _ => id
  · exact fun _ _ => id

theorem midway_readFrame {bytes : Buffer} (hbytes : bytes ∈ framesIn) {frame : EthernetFrame}
    (hparse : EthernetFrame.parse {} bytes = .ok (.noError, frame)) {b : Buffer}
    (hpayload : frame.payload = [b]) :
    Triple (Midway taken given framesIn count) (readFrame frame)
      (fun ret a => a.Tracks (taken ++ ret.toList) given ∧ a.tap.readCount = count)
      fun e a => KernelFault e ∧ a.Tracks taken given := by
  apply Triple.bind (midway_onInterface
    (NetworkInterface.recvFrame_triple (fun _ => MadeFor.writable) hpayload))
  intro ret
  apply Triple.bind (Q := fun _ a => Midway taken given framesIn count a ∧
    ∀ dgram ∈ ret, NetworkInterface.Delivers frame dgram)
  · intro a h
    have hsend := midway_sendPending a h.1
    exact ⟨fun _ a' hok => ⟨(hsend.1 _ a' hok).1, h.2⟩, hsend.2⟩
  intro _
  cases ret with
  | none =>
    apply triple_pure
    intro a h
    rw [Option.toList_none, List.append_nil]
    exact ⟨h.1.tracks, h.1.count⟩
  | some dgram =>
    intro a h
    have hdelivers := h.2 dgram rfl
    obtain ⟨b', hb'⟩ := payload_of_delivers hdelivers
    have hcame : a.Came dgram := by
      refine ⟨bytes, ?_, frame, hparse, hdelivers⟩
      rw [h.1.framesIn]
      exact hbytes
    have hunwrap : Triple (fun a' => a' = a) (onBase (TCPOverIPv4Adapter.unwrapTcpInIp dgram))
        (fun ret a => a.Tracks (taken ++ ret.toList) given ∧ a.tap.readCount = count)
        fun e a => KernelFault e ∧ a.Tracks taken given := by
      apply Triple.zoom (ipTracks_unwrap hb' hcame)
      · rintro _ rfl
        exact h.1.tracks.ip
      · rintro _ _ _ rfl hip
        exact ⟨⟨hip, h.1.tracks.carries⟩, h.1.count⟩
      · exact fun _ _ _ _ hno => hno.elim
    exact hunwrap a rfl

/-- A read keeps the relation and is counted. -/
theorem tracks_read (taken given : List TCPSegment) (count : UInt32) :
    Triple (fun a => a.Tracks taken given ∧ a.tap.readCount = count) read
      (fun ret a => a.Tracks (taken ++ ret.toList) given ∧ a.tap.readCount = count + 1)
      fun e a => KernelFault e ∧ a.Tracks taken given := by
  apply Triple.bind (Q := fun _ a => a.Tracks taken given ∧ a.tap.readCount = count + 1)
  · apply Triple.zoom (FileDescriptor.read_counts FileDescriptor.NO_LIMIT count)
    · exact fun _ h => h.2
    · exact fun _ _ _ h hcount => ⟨⟨h.1.ip, h.1.carries⟩, hcount⟩
    · exact fun _ _ _ h he => ⟨he, h.1.ip, h.1.carries⟩
  intro bytes a h
  have hmid : Midway taken given (a.framesIn ++ [bytes]) (count + 1) (a.took bytes) :=
    ⟨h.1.took bytes, rfl, h.2⟩
  have hbytes : bytes ∈ a.framesIn ++ [bytes] := by simp
  obtain ⟨res, frame, b, hparse, hpayload⟩ := EthernetFrame.parse_ok {} bytes
  rw [modify_bind, ofNetwork_ok hparse]
  simp only
  split
  · refine returned rfl ?_
    rw [Option.toList_none, List.append_nil]
    exact ⟨hmid.tracks, hmid.count⟩
  · rename_i hres
    rw [not_not.mp hres] at hparse
    exact midway_readFrame hbytes hparse hpayload _ hmid

theorem tracks_write (taken given : List TCPSegment) {seg : TCPSegment} (hseg : seg.Compact) :
    Triple (fun a => a.Tracks taken given) (write seg)
      (fun _ a => a.Tracks taken (given ++ [seg]))
      fun e a => KernelFault e ∧ a.Tracks taken (given ++ [seg]) := by
  intro a h
  have hmid : Midway taken (given ++ [seg]) a.framesIn a.tap.readCount a :=
    ⟨h.give seg, rfl, rfl⟩
  obtain ⟨dgram, hwrap, hwraps⟩ := a.base.wrapTcpInIp_of_compact hseg
  have hmade : MadeFor (given ++ [seg]) dgram :=
    ⟨seg, List.mem_append_right _ List.mem_cons_self, hwraps⟩
  have hsend : Triple (Midway taken (given ++ [seg]) a.framesIn a.tap.readCount)
      (onInterface (NetworkInterface.sendDatagram dgram a.nextHop) >>= fun _ => sendPending)
      (fun _ a => a.Tracks taken (given ++ [seg]))
      fun e a => KernelFault e ∧ a.Tracks taken (given ++ [seg]) := by
    apply Triple.bind (Q := fun _ => Midway taken (given ++ [seg]) a.framesIn a.tap.readCount)
    · have hcall := NetworkInterface.sendDatagram_triple hmade hwraps.writable a.nextHop
      apply (midway_onInterface (Q := fun _ => True) (hcall.weaken (fun _ => id)
        (fun _ _ hn => ⟨hn, trivial⟩) fun _ _ => id)).weaken (fun _ => id)
      · exact fun _ _ h => h.1
      · exact fun _ _ => id
    · intro _
      apply midway_sendPending.weaken (fun _ => id)
      · exact fun _ _ h => h.1.tracks
      · exact fun _ _ => id
  rw [write, get_bind, ofNetwork_ok hwrap]
  exact hsend a hmid

theorem adapter_keeps : adapter.Keeps Tracks where
  read taken given a h := by
    have hread := tracks_read taken given a.tap.readCount a ⟨h, rfl⟩
    exact ⟨fun ret a' hok => (hread.1 ret a' hok).1, hread.2⟩
  write taken given _ hseg := tracks_write taken given hseg
  tick taken given ms a h := by
    have hmid : Midway taken given a.framesIn a.tap.readCount
        (a.setInterface (a.interface.tick ms)) :=
      ⟨⟨h.ip, h.carries.tick ms⟩, rfl, rfl⟩
    have hsend := midway_sendPending _ hmid
    exact ⟨fun _ a' hok => (hsend.1 _ a' hok).1.tracks, hsend.2⟩
  readCounts {a _ _ taken given} h hok := by
    have hread := (tracks_read taken given a.tap.readCount).ok ⟨h, rfl⟩ hok
    exact hread.2

end TCPOverIPv4OverEthernetAdapter

end Sponge
