import Sponge.EventLoop
import Sponge.FdAdapter

/-!
# The socket and its TCP thread

`TCPSpongeSocket` couples a connection to two descriptors: an adapter to the network, and one end of
a local stream socket whose other end the owner reads and writes.  Its thread runs an event loop
with four rules and, between two rounds, tells the connection and the adapter how much time has
passed.

The socket is generic in its adapter, as the template is.  `taken` and `given` record the segments
that came from the adapter and went to it.  `threadStep` is one turn of `_tcp_loop`, with the result
of `poll`, the abort flag and the clock as inputs; a run goes through the loop of `connect` or
`listen_and_accept` and then through that of `_tcp_main`.
-/

namespace Sponge

open Throwing Hoare EventLoop MachineInt

/-! ### The name of a state -/

namespace TCPState

def senderText : TCPSenderStateSummary → String
  | .error => "error (connection was reset)"
  | .closed => "waiting for stream to begin (no SYN sent)"
  | .synSent => "stream started but nothing acknowledged"
  | .synAcked => "stream ongoing"
  | .finSent => "stream finished (FIN sent) but not fully acknowledged"
  | .finAcked => "stream finished and fully acknowledged"

def receiverText : TCPReceiverStateSummary → String
  | .error => "error (connection was reset)"
  | .listen => "waiting for SYN: ackno is empty"
  | .synRecv => "SYN received (ackno exists), and input to stream hasn't ended"
  | .finRecv => "input to stream has ended"

def flagText (flag : Bool) : String := if flag then "1" else "0"

def name (state : TCPState) : String :=
  "sender=`" ++ senderText state.sender ++ "`, receiver=`" ++ receiverText state.receiver ++
    "`, active=" ++ flagText state.active ++ ", linger_after_streams_finish=" ++
    flagText state.lingerAfterStreamsFinish

end TCPState

/-! ### The socket -/

structure TCPSpongeSocket (α : Type) where
  threadData : FileDescriptor
  datagramAdapter : α
  tcp : TCPConnection
  inboundShutdown : Bool := false
  outboundShutdown : Bool := false
  fullyAcked : Bool := false
  taken : List TCPSegment := []
  given : List TCPSegment := []

namespace TCPSpongeSocket

variable {α : Type}

def setThreadData (s : TCPSpongeSocket α) (threadData : FileDescriptor) : TCPSpongeSocket α :=
  { s with threadData }

def setAdapter (s : TCPSpongeSocket α) (datagramAdapter : α) : TCPSpongeSocket α :=
  { s with datagramAdapter }

def setTcp (s : TCPSpongeSocket α) (tcp : TCPConnection) : TCPSpongeSocket α := { s with tcp }

def onThreadData {β : Type} (m : SysCall FileDescriptor β) : SysCall (TCPSpongeSocket α) β :=
  zoom threadData setThreadData m

def onAdapter {β : Type} (m : SysCall α β) : SysCall (TCPSpongeSocket α) β :=
  zoom datagramAdapter setAdapter m

/-! ### Rule 1: from the network into the connection -/

/-- A segment from the adapter goes to the connection. -/
def receive (s : TCPSpongeSocket α) : Option TCPSegment → TCPSpongeSocket α
  | none => s
  | some seg => { s.setTcp (s.tcp.segmentReceived seg) with taken := s.taken ++ [seg] }

/-- The note that everything has been acknowledged, which is only printed. -/
def noteAcked (s : TCPSpongeSocket α) : TCPSpongeSocket α :=
  if s.threadData.eof && s.tcp.bytesInFlight == 0 && !s.fullyAcked then
    { s with fullyAcked := true }
  else s

def segmentCallback (A : FdAdapter α) : SysCall (TCPSpongeSocket α) Unit := do
  let seg ← onAdapter A.read
  modify fun s => s.receive seg
  modify noteAcked

def segmentInterest (s : TCPSpongeSocket α) : Bool := s.tcp.active

/-! ### Rule 2: from the owner into the connection -/

def writeTcp (data : List UInt8) : SysCall (TCPSpongeSocket α) ℕ := fun s =>
  .ok (s.tcp.write data).2 (s.setTcp (s.tcp.write data).1)

/-- The owner has nothing more to send. -/
def endOutbound (s : TCPSpongeSocket α) : TCPSpongeSocket α :=
  { s.setTcp s.tcp.endInputStream with outboundShutdown := true }

def outboundCallback : SysCall (TCPSpongeSocket α) Unit := do
  let s ← get
  let data ← onThreadData (FileDescriptor.read s.tcp.remainingOutboundCapacity)
  let amountWritten ← writeTcp data
  if amountWritten ≠ data.length then
    throw (.runtimeError "TCPConnection::write() accepted less than advertised length")
  else modify fun s => if s.threadData.eof then s.endOutbound else s

def outboundInterest (s : TCPSpongeSocket α) : Bool :=
  s.tcp.active && !s.outboundShutdown && decide (s.tcp.remainingOutboundCapacity > 0)

/-! ### Rule 3: from the connection to the owner -/

/-- What one write offers to the kernel. -/
def offered (s : TCPSpongeSocket α) : BufferViewList :=
  [s.tcp.inboundStream.peekOutput (min 65536 s.tcp.inboundStream.bufferSize)]

/-- The inbound stream is over. -/
def inboundOver (s : TCPSpongeSocket α) : Bool :=
  s.tcp.inboundStream.eof || s.tcp.inboundStream.error

def setInboundShutdown (s : TCPSpongeSocket α) : TCPSpongeSocket α :=
  { s with inboundShutdown := true }

def finishIfOver : SysCall (TCPSpongeSocket α) Unit := do
  let s ← get
  if s.inboundOver = true then
    onThreadData (FileDescriptor.shutdown .wr)
    modify setInboundShutdown
  else return ()

def inboundCallback : SysCall (TCPSpongeSocket α) Unit := do
  let s ← get
  let bytesWritten ← onThreadData (FileDescriptor.write s.offered false)
  modify fun s => s.setTcp (s.tcp.readInbound bytesWritten)
  finishIfOver

def inboundInterest (s : TCPSpongeSocket α) : Bool :=
  !s.tcp.inboundStream.bufferEmpty || s.inboundOver && !s.inboundShutdown

/-! ### Rule 4: from the connection to the network -/

/-- The segment goes to the adapter. -/
def give (s : TCPSpongeSocket α) (seg : TCPSegment) : TCPSpongeSocket α :=
  { s with given := s.given ++ [seg] }

def popSegment (s : TCPSpongeSocket α) : TCPSpongeSocket α :=
  s.setTcp { s.tcp with segmentsOut := s.tcp.segmentsOut.drop 1 }

/-- The loop over the queue, which only the loop itself changes meanwhile. -/
def sendLoop (A : FdAdapter α) : List TCPSegment → SysCall (TCPSpongeSocket α) Unit
  | [] => pure ()
  | seg :: rest => do
    modify fun s => s.give seg
    onAdapter (A.write seg)
    modify popSegment
    sendLoop A rest

def sendCallback (A : FdAdapter α) : SysCall (TCPSpongeSocket α) Unit := do
  let s ← get
  sendLoop A s.tcp.segmentsOut

def sendInterest (s : TCPSpongeSocket α) : Bool := !s.tcp.segmentsOut.isEmpty

/-! ### The rules -/

inductive SocketRule where
  | segment
  | outbound
  | inbound
  | send
deriving DecidableEq, Repr

/-- `_initialize_TCP`; a rule without a cancel function gets the empty one. -/
def socketRule (A : FdAdapter α) : SocketRule → Rule (TCPSpongeSocket α)
  | .segment =>
    { fd := fun s => A.fd s.datagramAdapter, direction := .In, callback := segmentCallback A
      interest := segmentInterest, cancel := pure () }
  | .outbound =>
    { fd := threadData, direction := .In, callback := outboundCallback
      interest := outboundInterest, cancel := modify endOutbound }
  | .inbound =>
    { fd := threadData, direction := .Out, callback := inboundCallback
      interest := inboundInterest, cancel := pure () }
  | .send =>
    { fd := fun s => A.fd s.datagramAdapter, direction := .Out, callback := sendCallback A
      interest := sendInterest, cancel := pure () }

/-- The rules in the order in which they are added. -/
def rules : List SocketRule := [.segment, .outbound, .inbound, .send]

/-- What `_tcp_loop` does after a round in which the connection is still active. -/
def tick (A : FdAdapter α) (ms : ℕ) : SysCall (TCPSpongeSocket α) Unit := do
  modify fun s => s.setTcp (s.tcp.tick ms)
  onAdapter (A.tick ms)

/-- A new socket with its connection. -/
def initializeTCP (cfg : TCPConfig) (random : WrappingInt32) (adapter : α)
    (threadData : FileDescriptor) : TCPSpongeSocket α :=
  { threadData, datagramAdapter := adapter, tcp := TCPConnection.new cfg random }

end TCPSpongeSocket

/-! ### The thread -/

/-- Where the thread of a socket is: in the loop of `connect`, of `listen_and_accept` or of
`_tcp_main`, behind the last one, or stopped by an exception. -/
inductive Phase where
  | connecting
  | listening
  | running
  | ended
  | threw (e : SystemException)
deriving DecidableEq, Repr

namespace Phase

def stopped : Phase → Bool
  | .ended => true
  | .threw _ => true
  | _ => false

/-- The condition that each loop is given. -/
def condition (tcp : TCPConnection) : Phase → Bool
  | .connecting => tcp.state == TCPState.ofState .synSent
  | .listening => tcp.state == TCPState.ofState .listen ||
      tcp.state == TCPState.ofState .synRcvd || tcp.state == TCPState.ofState .synSent
  | _ => true

/-- The main loop comes after the others, and is the last one. -/
def next : Phase → Phase
  | .connecting => .running
  | .listening => .running
  | .running => .ended
  | phase => phase

end Phase

structure TcpThread (α : Type) where
  socket : TCPSpongeSocket α
  rules : List TCPSpongeSocket.SocketRule := TCPSpongeSocket.rules
  baseTime : ℕ
  phase : Phase

/-- What comes from outside in one turn: the result of `poll`, the flag that the destructor sets,
and the clock. -/
structure LoopEvent where
  poll : PollOutcome
  abort : Bool := false
  now : ℕ

namespace TcpThread

variable {α : Type}

open TCPSpongeSocket

/-- One loop is left; the next one starts with a new base time. -/
def leave (t : TcpThread α) (now : ℕ) : TcpThread α :=
  { t with phase := t.phase.next, baseTime := now }

/-- The end of a turn: the connection and the adapter learn how much time has passed. -/
def passTime (A : FdAdapter α) (t : TcpThread α) (now : ℕ) : TcpThread α :=
  if t.socket.tcp.active then
    match (TCPSpongeSocket.tick A (sub64 now t.baseTime)).run t.socket with
    | .error e s => { t with socket := s, phase := .threw e }
    | .ok _ s => { t with socket := s, baseTime := now }
  else t

/-- One turn of `_tcp_loop`. -/
def threadStep (A : FdAdapter α) (t : TcpThread α) (event : LoopEvent) : TcpThread α :=
  if t.phase.stopped then t
  else if ¬ t.phase.condition t.socket.tcp then t.leave event.now
  else match (waitNextEvent (socketRule A) event.poll t.rules).run t.socket with
    | .error e s => { t with socket := s, phase := .threw e }
    | .ok (result, rules) s =>
      if result = .exit ∨ event.abort = true then { t with socket := s, rules }.leave event.now
      else { t with socket := s, rules }.passTime A event.now

/-- `connect`, up to its loop. -/
def connect (A : FdAdapter α) (cTcp : TCPConfig) (cAd : FdAdapterConfig) (random : WrappingInt32)
    (adapter : α) (threadData : FileDescriptor) (now : ℕ) : TcpThread α :=
  let s := initializeTCP cTcp random (A.configure cAd adapter) threadData
  let s := s.setTcp s.tcp.connect
  { socket := s, baseTime := now
    phase :=
      if s.tcp.state ≠ TCPState.ofState .synSent then
        .threw (.runtimeError ("After TCPConnection::connect(), state was " ++ s.tcp.state.name ++
          " but expected " ++ (TCPState.ofState .synSent).name))
      else .connecting }

/-- `listen_and_accept`, up to its loop. -/
def listenAndAccept (A : FdAdapter α) (cTcp : TCPConfig) (cAd : FdAdapterConfig)
    (random : WrappingInt32) (adapter : α) (threadData : FileDescriptor) (now : ℕ) : TcpThread α :=
  { socket := initializeTCP cTcp random (A.setListening true (A.configure cAd adapter)) threadData
    baseTime := now, phase := .listening }

end TcpThread

end Sponge
