import EChannel.LibRdp.RdpSimHandler

/-!
# `EChannel.LibRdp.SimSocket`: the way from the channel to the local connection

`RDPSimHandler` runs in the main thread, and its `SimSocket` (`librdp/src/simsocket.cpp`) in a
thread of its own. The signals `sigCreateSocket`, `sigWrite` and `sigClose` go to that thread and
`sigSimConnected`, `sigSimRead` and `sigSimDisconnected` to the main thread. All of them are
queued, in the order in which they are emitted. A `Relay` is the handler, the `SimSocket` objects
it has created, in order, and the two queues; a queued event names its object by its number.

What a `QTcpSocket` answers is an input: `onWrite` takes the results of the rounds of its loop. A
result is no larger than what was offered. `accepted` has the bytes that the socket took.

`close` stops the thread. Events that are not handled then stay in the queue, as in a run in which
the thread takes no further step.
-/

set_option autoImplicit false

namespace EChannel.LibRdp

/-- What a round of the loop in `SimSocket::onWrite` meets: `isValid()` is false, `write` is -1,
or `write` takes a number of bytes. -/
inductive WriteResult
  | invalid
  | failed
  | wrote (writesize : Nat)
  deriving DecidableEq, Repr

/-- A signal of a `SimSocket` to its own thread. -/
inductive SimEvent
  | sigCreateSocket
  | sigWrite (buf : QByteArray)
  | sigClose
  deriving DecidableEq, Repr

/-- The bytes of an event. -/
def SimEvent.payload : SimEvent → QByteArray
  | .sigWrite buf => buf
  | _ => []

/-- A signal of a `SimSocket` to its handler. -/
inductive SimSignal
  | sigSimConnected
  | sigSimRead (data : QByteArray)
  | sigSimDisconnected
  deriving DecidableEq, Repr

/-- The members of a `SimSocket` that its thread uses. `tcpSocket` says whether `m_tcpSocket` is
set. -/
structure SimConn where
  isControl : Bool
  tcpSocket : Bool
  buf : QByteArray
  accepted : QByteArray
  deriving DecidableEq, Repr

namespace SimConn

/-- `SimSocket::init`. -/
def init (isControl : Bool) : SimConn :=
  { isControl, tcpSocket := false, buf := [], accepted := [] }

/-- The loop of `onWrite`: the bytes that the socket takes behind the first `writelen`. There is
no answer unless the results are those of all its rounds. -/
def writeLoop (buf : QByteArray) : (writelen : Nat) → List WriteResult → Option QByteArray
  | _, [] => none
  | _, [.invalid] => some []
  | _, [.failed] => some []
  | writelen, .wrote writesize :: results =>
    if writesize ≤ buf.length - writelen then
      if writelen + writesize < buf.length then
        (writeLoop buf (writelen + writesize) results).map fun rest =>
          (buf.drop writelen).take writesize ++ rest
      else if results = [] then some ((buf.drop writelen).take writesize)
      else none
    else none
  | _, _ :: _ :: _ => none

/-- `SimSocket::onWrite`. -/
def onWrite (o : SimConn) (buf : QByteArray) (results : List WriteResult) : Option SimConn :=
  let o := { o with buf := o.buf ++ buf }
  if o.tcpSocket = false ∨ o.buf = [] then
    if results = [] then some o else none
  else
    -- The buffer is cleared also when the loop was left early.
    (writeLoop o.buf 0 results).map fun taken =>
      { o with accepted := o.accepted ++ taken, buf := [] }

/-- `SimSocket::onNewSocket`, with what it emits. -/
def onNewSocket (o : SimConn) : SimConn × List SimSignal :=
  ({ o with tcpSocket := true }, if o.isControl then [.sigSimConnected] else [])

/-- `SimSocket::onSimDisconnected`, with what it emits. -/
def onSimDisconnected (o : SimConn) : SimConn × List SimSignal :=
  ({ o with tcpSocket := false }, [.sigSimDisconnected])

/-- `SimSocket::onCloseConnection`. `abort` makes the socket emit `disconnected()`. -/
def onCloseConnection (o : SimConn) : SimConn × List SimSignal :=
  if o.tcpSocket then o.onSimDisconnected else (o, [])

end SimConn

/-- A handler, its `SimSocket` objects, and the queues to their thread and to the main thread. -/
structure Relay where
  handler : RdpSimHandler
  conns : List SimConn
  toSim : List (Nat × SimEvent)
  toMain : List SimSignal
  deriving DecidableEq, Repr

namespace Relay

/-- The handler after `init`. -/
def init (sessionId : QString) (isControl isConnected : Bool) : Relay :=
  { handler := RdpSimHandler.new sessionId isControl isConnected, conns := [], toSim := [],
    toMain := [] }

/-! ### The main thread -/

/-- `m_simSocket` emits a signal to its thread. The object in use is the last one. -/
def emit (r : Relay) (ev : SimEvent) : Relay :=
  { r with toSim := r.toSim ++ [(r.conns.length - 1, ev)] }

/-- A slot of the handler that may call `createSimSocket` or `close`. A new object gets the role
of the handler and emits `sigCreateSocket`. -/
def slot (r : Relay) (f : RdpSimHandler → RdpSimHandler) : Relay :=
  let r' := { r with handler := f r.handler }
  if r'.handler.simSockets ≠ r.handler.simSockets then
    { r' with conns := r.conns ++ [SimConn.init r'.handler.isControl] }.emit .sigCreateSocket
  else if r'.handler.isClosing ≠ r.handler.isClosing ∧ r.handler.simSocket.isSome then
    r'.emit .sigClose
  else r'

/-- A slot of the handler that flushes `m_rcvBuf`, when `m_rcvBuf` is as given. -/
def flushed (r : Relay) (f : RdpSimHandler → RdpSimHandler) (rcvBuf : QByteArray) : Relay :=
  let r' := { r with handler := f r.handler }
  if r.handler.simSocket.isSome then r'.emit (.sigWrite rcvBuf) else r'

/-- `RDPSimHandler::onRead`. -/
def onRead (r : Relay) (buf : QByteArray) : Relay :=
  r.flushed (fun h => h.onRead buf) (r.handler.rcvBuf ++ buf)

/-- `RDPSimHandler::onSimConnected`. -/
def onSimConnected (r : Relay) : Relay :=
  if r.handler.rcvBuf = [] then r
  else r.flushed RdpSimHandler.onSimConnected r.handler.rcvBuf

/-- The main thread handles a signal. -/
def handle (r : Relay) : SimSignal → Relay
  | .sigSimConnected => r.onSimConnected
  | .sigSimRead data => { r with handler := r.handler.onSimRead data }
  | .sigSimDisconnected => r.slot RdpSimHandler.close

/-! ### The thread of the sockets -/

/-- The thread has run a slot of the object with the number `i`. -/
def ran (r : Relay) (i : Nat) (res : SimConn × List SimSignal) : Relay :=
  { r with conns := r.conns.set i res.1, toMain := r.toMain ++ res.2 }

/-- The thread handles an event for the object with the number `i`. -/
def serve (r : Relay) (i : Nat) (o : SimConn) (results : List WriteResult) :
    SimEvent → Option Relay
  | .sigCreateSocket => if results = [] then some (r.ran i o.onNewSocket) else none
  | .sigWrite buf => (o.onWrite buf results).map fun o => r.ran i (o, [])
  | .sigClose => if results = [] then some (r.ran i o.onCloseConnection) else none

/-! ### The step function -/

/-- An event of the main thread, of the thread of the sockets, or of a `QTcpSocket`. -/
inductive RelayAction
  | channelRead (buf : QByteArray)
  | start (isControl programExists : Bool)
  | channelConnected (programExists : Bool)
  | newConn (socketDescriptor : Int)
  | close
  | mainThread
  | simThread (results : List WriteResult)
  | tcpConnected (i : Nat)
  | tcpRead (i : Nat) (data : QByteArray)
  | tcpDisconnected (i : Nat)
  deriving DecidableEq, Repr

/-- The step function. A thread takes the first event of its queue, and a `QTcpSocket` that is
not there has no events. -/
def step (r : Relay) : RelayAction → Option Relay
  | .channelRead buf => some (r.onRead buf)
  | .start isControl programExists => some (r.slot fun h => h.start isControl programExists)
  | .channelConnected programExists => some (r.slot fun h => h.onConnected programExists)
  | .newConn socketDescriptor => some (r.slot fun h => h.onNewSimConnection socketDescriptor)
  | .close => some (r.slot RdpSimHandler.close)
  | .mainThread =>
    match r.toMain with
    | sig :: toMain => some ({ r with toMain }.handle sig)
    | [] => none
  | .simThread results =>
    match r.toSim with
    | (i, ev) :: toSim =>
      match r.conns[i]? with
      | some o => { r with toSim }.serve i o results ev
      | none => none
    | [] => none
  | .tcpConnected i =>
    match r.conns[i]? with
    | some o => if o.tcpSocket then some (r.ran i (o, [.sigSimConnected])) else none
    | none => none
  | .tcpRead i data =>
    match r.conns[i]? with
    | some o => if o.tcpSocket then some (r.ran i (o, [.sigSimRead data])) else none
    | none => none
  | .tcpDisconnected i =>
    match r.conns[i]? with
    | some o => if o.tcpSocket then some (r.ran i o.onSimDisconnected) else none
    | none => none

/-! ### What is on its way -/

/-- The bytes that the sockets took. -/
def accepted (r : Relay) : QByteArray := r.conns.flatMap SimConn.accepted

/-- `SimSocket::m_buf`. -/
def simBuf (r : Relay) : QByteArray := r.conns.flatMap SimConn.buf

/-- The bytes of the `sigWrite` events in the queue. -/
def inFlight (r : Relay) : QByteArray := r.toSim.flatMap fun e => e.2.payload

/-- The bytes that an action gives to `onRead`. -/
def RelayAction.payload : RelayAction → QByteArray
  | .channelRead buf => buf
  | _ => []

/-- The socket is valid and no write fails. -/
def RelayAction.WritesOk : RelayAction → Prop
  | .simThread results => ∀ res ∈ results, res ≠ .invalid ∧ res ≠ .failed
  | _ => True

end Relay

end EChannel.LibRdp
