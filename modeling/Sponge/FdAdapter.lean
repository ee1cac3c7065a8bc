import Sponge.FileDescriptor
import Sponge.OutgoingSegments
import Sponge.TcpOverIpv4

/-!
# Adapters between a connection and a datagram socket

`TCPSpongeSocket` is a template over its adapter; `FdAdapter` is the interface that it uses.  The
module has the adapter for UDP and the wrapper that drops segments at random.

* `FdAdapter.Keeps` is what a socket may rely on: an invariant of the adapter, of the segments it
  has returned and of those it was given, and that only the kernel's failures are exceptions.
* For UDP the invariant says that everything returned was parsed from a datagram of the one peer
  (`UdpTracks`), also for an adapter that listened first.
* The lossy wrapper only drops, whatever it wraps.
-/

namespace Sponge

open Throwing Hoare Run MachineInt

/-! ### UDP sockets -/

/-- `UDPSocket::received_datagram`. -/
structure ReceivedDatagram where
  sourceAddress : Address
  payload : List UInt8
deriving DecidableEq, Repr

/-- A UDP socket: its descriptor, the kernel's answers to `recvfrom` and `sendmsg`, and a record of
the datagrams that have gone through. -/
structure UDPSocket where
  fd : FileDescriptor := {}
  recvs : List (Answer ReceivedDatagram) := []
  sends : List (Answer ℕ) := []
  datagramsIn : List ReceivedDatagram := []
  datagramsOut : List (Address × List UInt8) := []

namespace UDPSocket

def popRecv (s : UDPSocket) : UDPSocket := { s with recvs := s.recvs.tail }

def popSend (s : UDPSocket) : UDPSocket := { s with sends := s.sends.tail }

/-- The datagram is handed over, and the read is counted. -/
def took (s : UDPSocket) (datagram : ReceivedDatagram) : UDPSocket :=
  { s with fd := s.fd.registerRead, datagramsIn := s.datagramsIn ++ [datagram] }

/-- The datagram is sent, and the write is counted. -/
def sent (s : UDPSocket) (destination : Address) (payload : List UInt8) : UDPSocket :=
  { s with fd := s.fd.registerWrite, datagramsOut := s.datagramsOut ++ [(destination, payload)] }

/-- `recv`; with `MSG_TRUNC` the kernel returns the length of the whole datagram. -/
def recv (mtu : ℕ) : SysCall UDPSocket ReceivedDatagram := do
  let s ← get
  set s.popRecv
  let datagram ← systemCall "recvfrom" (FileDescriptor.next s.recvs)
  if returnValue datagram.payload.length > int64 mtu then
    throw (.runtimeError "recvfrom (oversized datagram)")
  else
    modify fun s => s.took datagram
    return datagram

def sendmsgHelper (payload : BufferViewList) : SysCall UDPSocket Unit := do
  let s ← get
  set s.popSend
  let taken ← systemCall "sendmsg" (FileDescriptor.next s.sends)
  let bytesSent := returnValue taken
  if bytesSent.toNat ≠ BufferViewList.size payload then
    throw (.runtimeError "datagram payload too big for sendmsg()")
  else return ()

def sendto (destination : Address) (payload : BufferViewList) : SysCall UDPSocket Unit := do
  sendmsgHelper payload
  modify fun s => s.sent destination payload.flatten

theorem recv_cases (mtu : ℕ) (s : UDPSocket) :
    (∃ datagram, recv mtu s = .ok datagram (s.popRecv.took datagram)) ∨
      ∃ e, KernelFault e ∧ recv mtu s = .error e s.popRecv := by
  rw [recv, get_bind, set_bind]
  cases FileDescriptor.next s.recvs with
  | error errno => exact Or.inr ⟨_, .unix "recvfrom" errno, rfl⟩
  | ok datagram =>
    by_cases hlen : returnValue datagram.payload.length > int64 mtu
    · refine Or.inr ⟨_, .oversized, ?_⟩
      rw [systemCall, pure_bind, if_pos hlen]
      rfl
    · refine Or.inl ⟨datagram, ?_⟩
      rw [systemCall, pure_bind, if_neg hlen]
      rfl

theorem sendto_cases (destination : Address) (payload : BufferViewList) (s : UDPSocket) :
    sendto destination payload s = .ok () (s.popSend.sent destination payload.flatten) ∨
      ∃ e, KernelFault e ∧ sendto destination payload s = .error e s.popSend := by
  have hhelper : sendmsgHelper payload s = .ok () s.popSend ∨
      ∃ e, KernelFault e ∧ sendmsgHelper payload s = .error e s.popSend := by
    rw [sendmsgHelper, get_bind, set_bind]
    cases FileDescriptor.next s.sends with
    | error errno => exact Or.inr ⟨_, .unix "sendmsg" errno, rfl⟩
    | ok taken =>
      by_cases hsize : (returnValue taken).toNat ≠ BufferViewList.size payload
      · refine Or.inr ⟨_, .sentLess, ?_⟩
        rw [systemCall, pure_bind, if_pos hsize]
        rfl
      · refine Or.inl ?_
        rw [systemCall, pure_bind, if_neg hsize]
        rfl
  rcases hhelper with hok | ⟨e, he, herr⟩
  · refine Or.inl ?_
    rw [sendto, bind_ok hok]
    rfl
  · exact Or.inr ⟨e, he, bind_error herr _⟩

end UDPSocket

/-! ### The interface -/

/-- What `TCPSpongeSocket` and the lossy wrapper ask of an adapter.  Only an assignment to
`config_mut()` changes the loss rates. -/
structure FdAdapter (α : Type) where
  fd : α → FileDescriptor
  config : α → FdAdapterConfig
  read : SysCall α (Option TCPSegment)
  write : TCPSegment → SysCall α Unit
  tick : ℕ → SysCall α Unit
  /-- The assignment to `config_mut()`. -/
  configure : FdAdapterConfig → α → α
  setListening : Bool → α → α
  readRates : ∀ rates, Hoare.Keeps (fun a => (config a).rates = rates) read
  writeRates : ∀ rates seg, Hoare.Keeps (fun a => (config a).rates = rates) (write seg)
  tickRates : ∀ rates ms, Hoare.Keeps (fun a => (config a).rates = rates) (tick ms)

namespace FdAdapter

variable {α : Type}

/-- The adapter keeps `J` of its state, of the segments it has returned and of the segments it was
given to write, and throws only when the kernel fails; each read is counted. -/
structure Keeps (A : FdAdapter α) (J : α → List TCPSegment → List TCPSegment → Prop) : Prop where
  read : ∀ taken given, Triple (fun a => J a taken given) A.read
    (fun ret a => J a (taken ++ ret.toList) given) fun e a => KernelFault e ∧ J a taken given
  write : ∀ taken given seg, seg.Compact → Triple (fun a => J a taken given) (A.write seg)
    (fun _ a => J a taken (given ++ [seg]))
    fun e a => KernelFault e ∧ J a taken (given ++ [seg])
  tick : ∀ taken given ms, Triple (fun a => J a taken given) (A.tick ms)
    (fun _ a => J a taken given) fun e a => KernelFault e ∧ J a taken given
  readCounts : ∀ {a a' ret taken given}, J a taken given → A.read a = .ok ret a' →
    (A.fd a').readCount = (A.fd a).readCount + 1

/-- The calls of a socket. -/
inductive Op where
  | read
  | write (seg : TCPSegment)
  | tick (ms : ℕ)
deriving DecidableEq, Repr

def Op.isWrite : Op → Bool
  | .write _ => true
  | _ => false

/-- An adapter in use: what it has returned, and the exception that ended it. -/
structure Trace (α : Type) where
  adapter : α
  returned : List TCPSegment := []
  threw : Option SystemException := none

/-- The trace after a call that returned segments. -/
def Trace.after (t : Trace α) : EStateM.Result SystemException α (List TCPSegment) → Trace α
  | .ok ret adapter => { t with adapter, returned := t.returned ++ ret }
  | .error e adapter => { t with adapter, threw := some e }

def call (A : FdAdapter α) : Op → SysCall α (List TCPSegment)
  | .read => Option.toList <$> A.read
  | .write seg => A.write seg *> pure []
  | .tick ms => A.tick ms *> pure []

theorem rates_call (A : FdAdapter α) (op : Op) (rates : UInt16 × UInt16) :
    Hoare.Keeps (fun a => (A.config a).rates = rates) (A.call op) := by
  cases op with
  | read => exact Hoare.Keeps.bind (A.readRates rates) fun _ => keeps_pure _
  | write seg => exact Hoare.Keeps.bind (A.writeRates rates seg) fun _ => keeps_pure _
  | tick ms => exact Hoare.Keeps.bind (A.tickRates rates ms) fun _ => keeps_pure _

def step (A : FdAdapter α) (t : Trace α) (op : Op) : Trace α :=
  if t.threw.isSome then t else t.after ((A.call op).run t.adapter)

end FdAdapter

/-! ### TCP in UDP -/

structure TCPOverUDPSocketAdapter where
  cfg : FdAdapterConfig := {}
  listen : Bool := false
  sock : UDPSocket := {}

namespace TCPOverUDPSocketAdapter

def config (a : TCPOverUDPSocketAdapter) : FdAdapterConfig := a.cfg

def listening (a : TCPOverUDPSocketAdapter) : Bool := a.listen

def setSock (a : TCPOverUDPSocketAdapter) (sock : UDPSocket) : TCPOverUDPSocketAdapter :=
  { a with sock }

def onSock {β : Type} (m : SysCall UDPSocket β) : SysCall TCPOverUDPSocketAdapter β :=
  zoom sock setSock m

/-- The adapter after a SYN from a new peer. -/
def target (a : TCPOverUDPSocketAdapter) (sourceAddress : Address) : TCPOverUDPSocketAdapter :=
  { a with cfg := { a.cfg with destination := sourceAddress }, listen := false }

def read : SysCall TCPOverUDPSocketAdapter (Option TCPSegment) := do
  let datagram ← onSock (UDPSocket.recv 65536)
  let a ← get
  if ¬ a.listening ∧ datagram.sourceAddress ≠ a.config.destination then return none
  else
    let (res, seg) ← ofNetwork (TCPSegment.parse {} datagram.payload 0)
    if res ≠ .noError then return none
    else if a.listening then
      if seg.header.syn ∧ ¬ seg.header.rst then
        set (a.target datagram.sourceAddress)
        return some seg
      else return none
    else return some seg

/-- The assignments to the ports of a segment. -/
def setPorts (a : TCPOverUDPSocketAdapter) (seg : TCPSegment) : TCPSegment :=
  { seg with
    header := { seg.header with
      sport := a.config.source.port, dport := a.config.destination.port } }

def write (seg : TCPSegment) : SysCall TCPOverUDPSocketAdapter Unit := do
  let a ← get
  let payload ← ofNetwork ((a.setPorts seg).serialize 0)
  onSock (UDPSocket.sendto a.config.destination payload)

theorem rates_onSock {β : Type} (rates : UInt16 × UInt16) (m : SysCall UDPSocket β) :
    Hoare.Keeps (fun a => a.config.rates = rates) (onSock m) := by
  apply keeps_zoom
  intro a sock h
  exact h

theorem rates_read (rates : UInt16 × UInt16) :
    Hoare.Keeps (fun a => a.config.rates = rates) read := by
  apply Hoare.Keeps.bind (rates_onSock rates _)
  intro datagram
  apply Hoare.Keeps.get_bind
  intro a ha
  apply Hoare.Keeps.ite (keeps_pure none)
  apply Hoare.Keeps.bind (keeps_ofNetwork _)
  intro parsed
  apply Hoare.Keeps.ite (keeps_pure none)
  apply Hoare.Keeps.ite
  · apply Hoare.Keeps.ite
    · -- only the destination is replaced
      have hset : Hoare.Keeps (fun a => a.config.rates = rates)
          (set (a.target datagram.sourceAddress) : SysCall TCPOverUDPSocketAdapter PUnit) :=
        triple_modify (fun _ => a.target datagram.sourceAddress) fun _ _ => ha
      apply Hoare.Keeps.bind hset
      intro _
      exact keeps_pure _
    · exact keeps_pure none
  · exact keeps_pure _

theorem rates_write (rates : UInt16 × UInt16) (seg : TCPSegment) :
    Hoare.Keeps (fun a => a.config.rates = rates) (write seg) := by
  apply Hoare.Keeps.get_bind
  intro a _
  apply Hoare.Keeps.bind (keeps_ofNetwork _)
  intro payload
  exact rates_onSock rates _

/-- The adapter as `TCPSpongeSocket` uses it; its `tick` is the empty one of `FdAdapterBase`. -/
def adapter : FdAdapter TCPOverUDPSocketAdapter where
  fd a := a.sock.fd
  config := config
  read := read
  write := write
  tick _ := pure ()
  configure cfg a := { a with cfg }
  setListening l a := { a with listen := l }
  readRates := rates_read
  writeRates := rates_write
  tickRates _ _ := keeps_pure ()

variable {a : TCPOverUDPSocketAdapter} {seg : TCPSegment}

theorem onSock_ok {β : Type} {m : SysCall UDPSocket β} {b : β} {sock : UDPSocket}
    (h : m a.sock = .ok b sock) : onSock m a = .ok b (a.setSock sock) := zoom_ok h

theorem onSock_error {β : Type} {m : SysCall UDPSocket β} {e : SystemException} {sock : UDPSocket}
    (h : m a.sock = .error e sock) : onSock m a = .error e (a.setSock sock) := zoom_error h

/-- The datagram holds the segment. -/
def Holds (datagram : ReceivedDatagram) (seg : TCPSegment) : Prop :=
  TCPSegment.parse {} datagram.payload 0 = .ok (.noError, seg)

/-- The adapter once it has taken a datagram from its socket. -/
def after (a : TCPOverUDPSocketAdapter) (datagram : ReceivedDatagram) : TCPOverUDPSocketAdapter :=
  a.setSock (a.sock.popRecv.took datagram)

/-- A read that got a datagram, check by check. -/
theorem read_of_recv {datagram : ReceivedDatagram} {res : ParseResult}
    (hrecv : UDPSocket.recv 65536 a.sock = .ok datagram (a.sock.popRecv.took datagram))
    (hparse : TCPSegment.parse {} datagram.payload 0 = .ok (res, seg)) :
    read a =
      if ¬ a.listening ∧ datagram.sourceAddress ≠ a.config.destination then
        .ok none (a.after datagram)
      else if res ≠ .noError then .ok none (a.after datagram)
      else if a.listening then
        if seg.header.syn ∧ ¬ seg.header.rst then
          .ok (some seg) ((a.after datagram).target datagram.sourceAddress)
        else .ok none (a.after datagram)
      else .ok (some seg) (a.after datagram) := by
  rw [read, bind_ok (onSock_ok hrecv), get_bind]
  show (if ¬ a.listening ∧ datagram.sourceAddress ≠ a.config.destination then _
    else (ofNetwork _ >>= _) : SysCall TCPOverUDPSocketAdapter (Option TCPSegment)) _ = _
  split
  · rfl
  rw [ofNetwork_ok hparse]
  show (if res ≠ .noError then _ else if a.listening then
    if seg.header.syn ∧ ¬ seg.header.rst then _ else _ else _ :
      SysCall TCPOverUDPSocketAdapter (Option TCPSegment)) _ = _
  split
  · rfl
  split
  · split
    · rfl
    · rfl
  · rfl

/-- **What a read does**: it passes over a datagram, or takes the segment of one that comes from
the peer, or of a SYN from anybody while it listens. -/
theorem read_cases (a : TCPOverUDPSocketAdapter) :
    (∃ datagram, read a = .ok none (a.after datagram)) ∨
      (∃ datagram seg, Holds datagram seg ∧ a.listening = false ∧
        datagram.sourceAddress = a.config.destination ∧
        read a = .ok (some seg) (a.after datagram)) ∨
      (∃ datagram seg, Holds datagram seg ∧ a.listening = true ∧
        read a = .ok (some seg) ((a.after datagram).target datagram.sourceAddress)) ∨
      ∃ e, KernelFault e ∧ read a = .error e (a.setSock a.sock.popRecv) := by
  rcases a.sock.recv_cases 65536 with ⟨datagram, hrecv⟩ | ⟨e, he, hrecv⟩
  · obtain ⟨⟨res, seg⟩, hparse⟩ := TCPSegment.parse_ok {} datagram.payload 0
    rw [read_of_recv hrecv hparse]
    split
    · exact Or.inl ⟨datagram, rfl⟩
    rename_i hsource
    split
    · exact Or.inl ⟨datagram, rfl⟩
    rename_i hres
    rw [not_not.mp hres] at hparse
    split
    · rename_i hlisten
      split
      · exact Or.inr (Or.inr (Or.inl ⟨datagram, seg, hparse, hlisten, rfl⟩))
      · exact Or.inl ⟨datagram, rfl⟩
    · rename_i hlisten
      rw [not_and, not_not] at hsource
      exact Or.inr (Or.inl ⟨datagram, seg, hparse, Bool.not_eq_true _ ▸ hlisten,
        hsource hlisten, rfl⟩)
  · exact Or.inr (Or.inr (Or.inr ⟨e, he, bind_error (onSock_error hrecv) _⟩))

theorem write_cases (h : seg.Compact) (a : TCPOverUDPSocketAdapter) :
    ∃ payload : BufferViewList,
      (∀ got, TCPSegment.parse {} payload.flatten 0 = .ok (.noError, got) → SameData got seg) ∧
      (write seg a = .ok () (a.setSock (a.sock.popSend.sent a.config.destination payload.flatten)) ∨
        ∃ e, KernelFault e ∧ write seg a = .error e (a.setSock a.sock.popSend)) := by
  have hports : (a.setPorts seg).Compact := ⟨h.doff, h.payload⟩
  obtain ⟨payload, cksum, hser, -, hparse⟩ :=
    hports.read_back (by decide : (0 : UInt32).toNat < 2 ^ 20) {}
  refine ⟨payload, ?_, ?_⟩
  · intro got hgot
    rw [BufferList.concatenate, hgot] at hparse
    cases hparse
    exact ⟨rfl, rfl, rfl, rfl⟩
  · rw [write, get_bind, ofNetwork_ok hser]
    rcases a.sock.sendto_cases a.config.destination payload with hok | ⟨e, he, herr⟩
    · exact Or.inl (onSock_ok hok)
    · exact Or.inr ⟨e, he, onSock_error herr⟩

/-- Everything returned was parsed from a datagram of the peer, and nothing is returned while the
adapter listens; everything sent carries a segment that was given. -/
structure UdpTracks (a : TCPOverUDPSocketAdapter) (taken given : List TCPSegment) : Prop where
  fresh : a.listening = true → taken = []
  heard : ∀ seg ∈ taken, ∃ datagram ∈ a.sock.datagramsIn,
    datagram.sourceAddress = a.config.destination ∧ Holds datagram seg
  told : ∀ datagram ∈ a.sock.datagramsOut, ∃ seg ∈ given,
    ∀ got, TCPSegment.parse {} datagram.2 0 = .ok (.noError, got) → SameData got seg

variable {taken given : List TCPSegment}

/-- The datagram is passed over. -/
theorem UdpTracks.skip (h : UdpTracks a taken given) (datagram : ReceivedDatagram) :
    UdpTracks (a.after datagram) taken given where
  fresh := h.fresh
  heard seg hseg := by
    obtain ⟨d, hd, hheard⟩ := h.heard seg hseg
    exact ⟨d, List.mem_append_left _ hd, hheard⟩
  told := h.told

/-- The segment is taken, from the peer that the adapter has afterwards. -/
theorem UdpTracks.take (h : UdpTracks a taken given) {datagram : ReceivedDatagram}
    (hseg : Holds datagram seg) {a' : TCPOverUDPSocketAdapter}
    (hsock : a'.sock = a.sock.popRecv.took datagram) (hlisten : a'.listening = false)
    (hpeer : a'.config.destination = datagram.sourceAddress)
    (hold : taken ≠ [] → a'.config.destination = a.config.destination) :
    UdpTracks a' (taken ++ [seg]) given where
  fresh hl := by rw [hlisten] at hl; cases hl
  heard s hs := by
    rw [hsock]
    rcases List.mem_append.mp hs with hs | hs
    · obtain ⟨d, hd, hsource, hheard⟩ := h.heard s hs
      exact ⟨d, List.mem_append_left _ hd,
        hsource.trans (hold (List.ne_nil_of_mem hs)).symm, hheard⟩
    · rw [List.mem_singleton.mp hs]
      exact ⟨datagram, List.mem_append_right _ List.mem_cons_self, hpeer.symm, hseg⟩
  told := by
    rw [hsock]
    exact h.told

theorem UdpTracks.mono (h : UdpTracks a taken given) (seg : TCPSegment)
    {a' : TCPOverUDPSocketAdapter} (hcfg : a'.cfg = a.cfg) (hlisten : a'.listen = a.listen)
    (hin : a'.sock.datagramsIn = a.sock.datagramsIn)
    (hout : ∀ datagram ∈ a'.sock.datagramsOut, datagram ∈ a.sock.datagramsOut ∨
      ∀ got, TCPSegment.parse {} datagram.2 0 = .ok (.noError, got) → SameData got seg) :
    UdpTracks a' taken (given ++ [seg]) where
  fresh hl := h.fresh (hlisten.symm.trans hl)
  heard := by
    rw [hin, config, hcfg]
    exact h.heard
  told d hd := by
    rcases hout d hd with hold | hnew
    · obtain ⟨s, hs, htold⟩ := h.told d hold
      exact ⟨s, List.mem_append_left _ hs, htold⟩
    · exact ⟨seg, List.mem_append_right _ List.mem_cons_self, hnew⟩

/-- **The UDP adapter keeps to its peer.** -/
theorem adapter_keeps : adapter.Keeps UdpTracks where
  read taken given := by
    intro a h
    rcases a.read_cases with ⟨d, hread⟩ | ⟨d, seg, hholds, hlisten, hsource, hread⟩ |
      ⟨d, seg, hholds, hlisten, hread⟩ | ⟨e, he, hread⟩
    · refine returned hread ?_
      rw [Option.toList_none, List.append_nil]
      exact h.skip d
    · exact returned hread (h.take hholds rfl hlisten hsource.symm fun _ => rfl)
    · exact returned hread (h.take hholds rfl rfl rfl fun hne => absurd (h.fresh hlisten) hne)
    · exact thrown hread ⟨he, h.fresh, h.heard, h.told⟩
  write taken given seg hseg := by
    intro a h
    obtain ⟨payload, hcarries, hwrite⟩ := write_cases hseg a
    rcases hwrite with hwrite | ⟨e, he, hwrite⟩
    · refine returned hwrite (h.mono seg rfl rfl rfl fun d hd => ?_)
      rcases List.mem_append.mp hd with hd | hd
      · exact Or.inl hd
      · rw [List.mem_singleton.mp hd]
        exact Or.inr hcarries
    · exact thrown hwrite ⟨he, h.mono seg rfl rfl rfl fun d hd => Or.inl hd⟩
  tick taken given ms := triple_pure _ fun _ => id
  readCounts := by
    intro a a' ret _ _ _ hok
    have hok : read a = .ok ret a' := hok
    rcases a.read_cases with ⟨d, hread⟩ | ⟨d, seg, -, -, -, hread⟩ | ⟨d, seg, -, -, hread⟩ |
      ⟨e, -, hread⟩
    all_goals
      rw [hread] at hok
      cases hok
    all_goals rfl

end TCPOverUDPSocketAdapter

/-! ### The lossy wrapper -/

/-- An adapter that drops segments at random, with the numbers that the generator is going to
draw. -/
structure LossyFdAdapter (α : Type) where
  adapter : α
  rand : List UInt32 := []

namespace LossyFdAdapter

variable {α : Type}

def setAdapter (a : LossyFdAdapter α) (adapter : α) : LossyFdAdapter α := { a with adapter }

def onAdapter {β : Type} (m : SysCall α β) : SysCall (LossyFdAdapter α) β :=
  zoom adapter setAdapter m

def config (A : FdAdapter α) (a : LossyFdAdapter α) : FdAdapterConfig := A.config a.adapter

/-- The generator draws only if the rate is not zero. -/
def shouldDrop (A : FdAdapter α) (uplink : Bool) : SysCall (LossyFdAdapter α) Bool := fun a =>
  let cfg := A.config a.adapter
  let loss := if uplink then cfg.lossRateUp else cfg.lossRateDn
  if loss ≠ 0 then .ok (decide ((a.rand.headD 0).toUInt16 < loss)) { a with rand := a.rand.tail }
  else .ok false a

def read (A : FdAdapter α) : SysCall (LossyFdAdapter α) (Option TCPSegment) := do
  let ret ← onAdapter A.read
  let drop ← shouldDrop A false
  if drop then return none else return ret

def write (A : FdAdapter α) (seg : TCPSegment) : SysCall (LossyFdAdapter α) Unit := do
  let drop ← shouldDrop A true
  if drop then return () else onAdapter (A.write seg)

section Rates

variable (A : FdAdapter α) (rates : UInt16 × UInt16)

theorem rates_shouldDrop (uplink : Bool) :
    Hoare.Keeps (fun a => (config A a).rates = rates) (shouldDrop A uplink) := by
  intro a ha
  by_cases hloss : (if uplink then (config A a).lossRateUp else (config A a).lossRateDn) ≠ 0
  · exact returned (if_pos hloss) ha
  · exact returned (if_neg hloss) ha

theorem rates_onAdapter {β : Type} {m : SysCall α β}
    (h : Hoare.Keeps (fun a => (A.config a).rates = rates) m) :
    Hoare.Keeps (fun a => (config A a).rates = rates) (onAdapter m) :=
  Triple.zoom h (fun _ => id) (fun _ _ _ _ => id) fun _ _ _ _ => id

theorem rates_read : Hoare.Keeps (fun a => (config A a).rates = rates) (read A) := by
  apply Hoare.Keeps.bind (rates_onAdapter A rates (A.readRates rates))
  intro ret
  apply Hoare.Keeps.bind (rates_shouldDrop A rates false)
  intro drop
  exact Hoare.Keeps.ite (keeps_pure none) (keeps_pure ret)

theorem rates_write (seg : TCPSegment) :
    Hoare.Keeps (fun a => (config A a).rates = rates) (write A seg) := by
  apply Hoare.Keeps.bind (rates_shouldDrop A rates true)
  intro drop
  exact Hoare.Keeps.ite (keeps_pure ()) (rates_onAdapter A rates (A.writeRates rates seg))

end Rates

def lossy (A : FdAdapter α) : FdAdapter (LossyFdAdapter α) where
  fd a := A.fd a.adapter
  config := config A
  read := read A
  write := write A
  tick ms := onAdapter (A.tick ms)
  configure cfg a := a.setAdapter (A.configure cfg a.adapter)
  setListening l a := a.setAdapter (A.setListening l a.adapter)
  readRates := rates_read A
  writeRates := rates_write A
  tickRates rates ms := rates_onAdapter A rates (A.tickRates rates ms)

variable {A : FdAdapter α} {a : LossyFdAdapter α}

theorem onAdapter_ok {β : Type} {m : SysCall α β} {b : β} {adapter : α}
    (h : m a.adapter = .ok b adapter) : onAdapter m a = .ok b (a.setAdapter adapter) := zoom_ok h

theorem onAdapter_error {β : Type} {m : SysCall α β} {e : SystemException} {adapter : α}
    (h : m a.adapter = .error e adapter) : onAdapter m a = .error e (a.setAdapter adapter) :=
  zoom_error h

/-- The generator does not touch the adapter, and decides nothing at rate zero. -/
theorem shouldDrop_cases (A : FdAdapter α) (uplink : Bool) (a : LossyFdAdapter α) :
    ∃ drop rand, shouldDrop A uplink a = .ok drop { a with rand } ∧
      ((if uplink then (config A a).lossRateUp else (config A a).lossRateDn) = 0 →
        drop = false) := by
  rw [shouldDrop]
  by_cases hloss : (if uplink then (config A a).lossRateUp else (config A a).lossRateDn) = 0
  · exact ⟨false, a.rand, if_neg (not_not.mpr hloss), fun _ => rfl⟩
  · exact ⟨_, a.rand.tail, if_pos hloss, fun h => absurd h hloss⟩

/-- **What a read does**: the read of the adapter, and then the segment may be lost. -/
theorem read_cases (A : FdAdapter α) (a : LossyFdAdapter α) :
    (∃ ret adapter drop rand, A.read a.adapter = .ok ret adapter ∧
        ((config A a).lossRateDn = 0 → drop = false) ∧
        read A a = .ok (if drop then none else ret) { a with adapter, rand }) ∨
      ∃ e adapter, A.read a.adapter = .error e adapter ∧
        read A a = .error e (a.setAdapter adapter) := by
  cases hread : A.read a.adapter with
  | ok ret adapter =>
    obtain ⟨drop, rand, hdrop, hzero⟩ := shouldDrop_cases A false (a.setAdapter adapter)
    -- the rate is looked up after the read, which has not changed it
    have hrates : (A.config adapter).rates = (config A a).rates := (A.readRates _).ok rfl hread
    refine Or.inl ⟨ret, adapter, drop, rand, rfl, ?_, ?_⟩
    · intro hrate
      exact hzero ((congrArg Prod.snd hrates).trans hrate)
    rw [read, bind_ok (onAdapter_ok hread), bind_ok hdrop]
    cases drop <;> rfl
  | error e adapter =>
    exact Or.inr ⟨e, adapter, rfl, bind_error (onAdapter_error hread) _⟩

/-- **What a write does**: the segment is lost, or it is written to the adapter. -/
theorem write_cases (A : FdAdapter α) (seg : TCPSegment) (a : LossyFdAdapter α) :
    ∃ rand, ((config A a).lossRateUp ≠ 0 ∧ write A seg a = .ok () { a with rand }) ∨
      (∃ adapter, A.write seg a.adapter = .ok () adapter ∧
        write A seg a = .ok () { a with adapter, rand }) ∨
      ∃ e adapter, A.write seg a.adapter = .error e adapter ∧
        write A seg a = .error e { a with adapter, rand } := by
  obtain ⟨drop, rand, hdrop, hzero⟩ := shouldDrop_cases A true a
  refine ⟨rand, ?_⟩
  rw [write, bind_ok hdrop]
  cases drop with
  | false =>
    right
    cases hwrite : A.write seg a.adapter with
    | ok _ adapter => exact Or.inl ⟨adapter, rfl, onAdapter_ok (a := { a with rand }) hwrite⟩
    | error e adapter =>
      exact Or.inr ⟨e, adapter, rfl, onAdapter_error (a := { a with rand }) hwrite⟩
  | true => exact Or.inl ⟨fun h => Bool.noConfusion (hzero h), rfl⟩

/-- What the wrapper has returned and passed on is a part of what the adapter has returned and of
what the wrapper was given. -/
def Thinned (J : α → List TCPSegment → List TCPSegment → Prop) (a : LossyFdAdapter α)
    (taken given : List TCPSegment) : Prop :=
  ∃ taken' given', taken.Sublist taken' ∧ given'.Sublist given ∧ J a.adapter taken' given'

/-- The wrapper keeps what the adapter keeps, up to the losses. -/
theorem lossy_keeps {J : α → List TCPSegment → List TCPSegment → Prop} (h : A.Keeps J) :
    (lossy A).Keeps (Thinned J) where
  read taken given := by
    rintro a ⟨taken', given', htaken, hgiven, hJ⟩
    rcases read_cases A a with ⟨ret, adapter, drop, rand, hok, -, hread⟩ | ⟨e, adapter, herr, hread⟩
    · refine returned hread ⟨taken' ++ ret.toList, given', htaken.append ?_, hgiven,
        (h.read _ _).ok hJ hok⟩
      cases drop
      · exact List.Sublist.refl _
      · exact List.nil_sublist _
    · obtain ⟨he, hJ⟩ := (h.read _ _).error hJ herr
      exact thrown hread ⟨he, taken', given', htaken, hgiven, hJ⟩
  write taken given seg hseg := by
    rintro a ⟨taken', given', htaken, hgiven, hJ⟩
    obtain ⟨rand, ⟨-, hwrite⟩ | ⟨adapter, hok, hwrite⟩ | ⟨e, adapter, herr, hwrite⟩⟩ :=
      write_cases A seg a
    · exact returned hwrite
        ⟨taken', given', htaken, hgiven.trans (List.sublist_append_left _ _), hJ⟩
    · exact returned hwrite ⟨taken', given' ++ [seg], htaken,
        hgiven.append (List.Sublist.refl _), (h.write _ _ seg hseg).ok hJ hok⟩
    · obtain ⟨he, hJ⟩ := (h.write _ _ seg hseg).error hJ herr
      exact thrown hwrite
        ⟨he, taken', given' ++ [seg], htaken, hgiven.append (List.Sublist.refl _), hJ⟩
  tick taken given ms := by
    rintro a ⟨taken', given', htaken, hgiven, hJ⟩
    cases htick : A.tick ms a.adapter with
    | ok _ adapter =>
      exact returned (onAdapter_ok htick)
        ⟨taken', given', htaken, hgiven, (h.tick _ _ ms).ok hJ htick⟩
    | error e adapter =>
      obtain ⟨he, hJ⟩ := (h.tick _ _ ms).error hJ htick
      exact thrown (onAdapter_error htick) ⟨he, taken', given', htaken, hgiven, hJ⟩
  readCounts := by
    rintro a a' ret _ _ ⟨taken', given', -, -, hJ⟩ hok
    have hok : read A a = .ok ret a' := hok
    rcases read_cases A a with ⟨ret, adapter, drop, rand, hread, -, hcall⟩ | ⟨e, adapter, -, hcall⟩
    · rw [hcall] at hok
      cases hok
      exact h.readCounts hJ hread
    · rw [hcall] at hok
      cases hok

/-! ### The wrapper only drops -/

open FdAdapter

/-- **What a call of the wrapper does**: a write is lost, or the adapter is called. -/
theorem call_cases (A : FdAdapter α) (op : Op) (a : LossyFdAdapter α) :
    (op.isWrite = true ∧ (config A a).lossRateUp ≠ 0 ∧
        ∃ rand, (lossy A).call op a = .ok [] { a with rand }) ∨
      (∃ ret ret' adapter rand, A.call op a.adapter = .ok ret adapter ∧
        (lossy A).call op a = .ok ret' { a with adapter, rand } ∧ ret'.Sublist ret ∧
        ((config A a).lossRateDn = 0 → ret' = ret)) ∨
      ∃ e adapter rand, A.call op a.adapter = .error e adapter ∧
        (lossy A).call op a = .error e { a with adapter, rand } := by
  cases op with
  | read =>
    right
    rcases read_cases A a with
      ⟨ret, adapter, drop, rand, hok, hzero, hread⟩ | ⟨e, adapter, herr, hread⟩
    · refine Or.inl ⟨ret.toList, (if drop then none else ret).toList, adapter, rand, ?_, ?_, ?_, ?_⟩
      · show (A.read >>= fun r => pure r.toList) a.adapter = _
        rw [bind_ok hok]
        rfl
      · show (read A >>= fun r => pure r.toList) a = _
        rw [bind_ok hread]
        rfl
      · cases drop
        · exact List.Sublist.refl _
        · exact List.nil_sublist _
      · intro hrate
        rw [hzero hrate]
        rfl
    · refine Or.inr ⟨e, adapter, a.rand, ?_, ?_⟩
      · exact bind_error herr fun r => pure r.toList
      · exact bind_error hread fun r => pure r.toList
  | write seg =>
    obtain ⟨rand, ⟨hrate, hwrite⟩ | ⟨adapter, hok, hwrite⟩ | ⟨e, adapter, herr, hwrite⟩⟩ :=
      write_cases A seg a
    · exact Or.inl ⟨rfl, hrate, rand, bind_ok hwrite fun _ => pure []⟩
    · exact Or.inr (Or.inl ⟨[], [], adapter, rand, bind_ok hok fun _ => pure [],
        bind_ok hwrite fun _ => pure [], List.Sublist.refl _, fun _ => rfl⟩)
    · exact Or.inr (Or.inr ⟨e, adapter, rand, bind_error herr fun _ => pure [],
        bind_error hwrite fun _ => pure []⟩)
  | tick ms =>
    right
    cases htick : A.tick ms a.adapter with
    | ok _ adapter =>
      exact Or.inl ⟨[], [], adapter, a.rand, bind_ok htick fun _ => pure [],
        bind_ok (onAdapter_ok htick) fun _ => pure [], List.Sublist.refl _, fun _ => rfl⟩
    | error e adapter =>
      exact Or.inr ⟨e, adapter, a.rand, bind_error htick fun _ => pure [],
        bind_error (onAdapter_error htick) fun _ => pure []⟩

/-- The wrapper against the adapter on its own, which was used for the calls `ops'` of `ops`. -/
structure Drops (A : FdAdapter α) (a : LossyFdAdapter α) (ops ops' : List Op)
    (t : Trace (LossyFdAdapter α)) (t' : Trace α) : Prop where
  rates : (config A t.adapter).rates = (config A a).rates
  calls : ops'.Sublist ops
  writesOnly : ops'.filter (fun op => !op.isWrite) = ops.filter fun op => !op.isWrite
  up : (config A a).lossRateUp = 0 → ops' = ops
  adapter : t.adapter.adapter = t'.adapter
  threw : t.threw = t'.threw
  returned : t.returned.Sublist t'.returned
  down : (config A a).lossRateDn = 0 → t.returned = t'.returned

/-- One more call. -/
theorem Drops.step {a : LossyFdAdapter α} {ops ops' : List Op} {t : Trace (LossyFdAdapter α)}
    {t' : Trace α} (h : Drops A a ops ops' t t') (op : Op) :
    Drops A a (ops ++ [op]) (ops' ++ [op]) ((lossy A).step t op) (A.step t' op) ∨
      Drops A a (ops ++ [op]) ops' ((lossy A).step t op) t' := by
  have hcalls := h.calls.append (List.Sublist.refl [op])
  have hfilter : (ops' ++ [op]).filter (fun op => !op.isWrite) =
      (ops ++ [op]).filter fun op => !op.isWrite := by
    rw [List.filter_append, List.filter_append, h.writesOnly]
  have hup : (config A a).lossRateUp = 0 → ops' ++ [op] = ops ++ [op] := by
    intro hrate
    rw [h.up hrate]
  rw [FdAdapter.step, FdAdapter.step, ← h.threw]
  split
  · -- nothing happens after an exception
    exact Or.inl ⟨h.rates, hcalls, hfilter, hup, h.adapter, h.threw, h.returned, h.down⟩
  rw [← h.adapter, EStateM.run, EStateM.run]
  rcases call_cases A op t.adapter with ⟨hwrite, hrate, rand, hcall⟩ |
    ⟨ret, ret', adapter, rand, hok, hcall, hsub, hzero⟩ | ⟨e, adapter, rand, herr, hcall⟩
  · -- the write is lost
    right
    rw [hcall, Trace.after, List.append_nil]
    refine ⟨h.rates, h.calls.trans (List.sublist_append_left _ _), ?_, ?_, h.adapter, h.threw,
      h.returned, h.down⟩
    · rw [List.filter_append, List.filter_cons_of_neg (by simp [hwrite]), List.filter_nil,
        List.append_nil, h.writesOnly]
    · intro hzero
      exact absurd ((congrArg Prod.fst h.rates).trans hzero) hrate
  · left
    rw [hcall, hok, Trace.after, Trace.after]
    refine ⟨(A.rates_call op _).ok h.rates hok, hcalls, hfilter, hup, rfl, h.threw,
      h.returned.append hsub, ?_⟩
    intro hrate
    rw [h.down hrate, hzero ((congrArg Prod.snd h.rates).trans hrate)]
  · left
    rw [hcall, herr, Trace.after, Trace.after]
    exact ⟨(A.rates_call op _).error h.rates herr, hcalls, hfilter, hup, rfl, rfl, h.returned,
      h.down⟩

/-- **The lossy wrapper only drops.**  For every adapter, every kernel and all numbers that are
drawn: a wrapper in use leaves its adapter as if that had been used on its own, for all the reads
and ticks and for some of the writes; what the wrapper returns is a subsequence of what the adapter
returns, and exceptions are the adapter's.  At rate zero nothing is dropped in that direction. -/
theorem lossy_run_sublist (A : FdAdapter α) (a : LossyFdAdapter α) (ops : List Op) :
    ∃ ops', Drops A a ops ops' (run (lossy A).step { adapter := a } ops)
      (run A.step { adapter := a.adapter } ops') := by
  induction ops using List.reverseRecOn with
  | nil =>
    exact ⟨[], rfl, List.Sublist.refl _, rfl, fun _ => rfl, rfl, rfl, List.Sublist.refl _,
      fun _ => rfl⟩
  | append_singleton ops op ih =>
    obtain ⟨ops', h⟩ := ih
    rcases h.step op with h | h
    · refine ⟨ops' ++ [op], ?_⟩
      rw [run_concat, run_concat]
      exact h
    · refine ⟨ops', ?_⟩
      rw [run_concat]
      exact h

end LossyFdAdapter

end Sponge
