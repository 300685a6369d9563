import EChannel.Support.Qt
import EChannel.Support.Run
import Mathlib.Logic.Function.Basic

/-!
# `EChannel.LibRdp.RdpSimHandler`: remote desktop sessions and the local viewer

An `RDPSimHandler` (`librdp/src/rdpsimhandler.cpp`) serves one remote desktop session. In the
control role it launches a viewer, which connects to the local `SimTCPServer`; in the other role
it connects to the local VNC server itself. Either way a `SimSocket` stands for the local
connection. `RDPInstance` (`librdp/src/rdpinstance.cpp`) has all handlers and the server, whose
signal `newConn` goes to the slot `onNewSimConnection` of each of them.

* A handler is a number. `slots` lists the handlers that `newConn` is connected to, in the order
  of the connections, which is the order of the calls.
* `m_isControl` is not initialised before `start`; `initChannel` has the value as an input.
* Whether the channel is connected at `initChannel`, and whether the viewer program exists when
  it is launched, are inputs.
* `simSockets` counts the `SimSocket` objects of a handler, and `adoptions` lists the accepted
  connections with the handlers that took them. No branch reads either.

The arguments of the viewer are the address of the server, which is the same for all handlers.
-/

set_option autoImplicit false

namespace EChannel.LibRdp

/-- An `RDPSimHandler*`. -/
abbrev HandlerId := Nat

/-- The members of a `SimSocket` that its handler sees: its role, its descriptor, and what was
written to it. -/
structure SimSocket where
  isControl : Bool
  socketDescriptor : Int
  written : QByteArray
  deriving DecidableEq, Repr

/-- The members of an `RDPSimHandler`. `isConnected` is `m_channel->isConnected()`,
`channelOut` what was written to the channel, and `viewerProcess` says whether a viewer was
launched. -/
structure RdpSimHandler where
  sessionId : QString
  isControl : Bool
  isStartFailed : Bool
  isConnected : Bool
  socketDescriptor : Int
  simSocket : Option SimSocket
  rcvBuf : QByteArray
  channelOut : QByteArray
  viewerProcess : Bool
  isClosing : Bool
  simSockets : Nat
  deriving DecidableEq, Repr

namespace RdpSimHandler

/-- A handler after its constructor and `init`. -/
def new (sessionId : QString) (isControl isConnected : Bool) : RdpSimHandler :=
  { sessionId, isControl, isStartFailed := false, isConnected, socketDescriptor := 0,
    simSocket := none, rcvBuf := [], channelOut := [], viewerProcess := false,
    isClosing := false, simSockets := 0 }

/-- `RDPSimHandler::close`. The channel and the `SimSocket` report later that they are gone. -/
def close (h : RdpSimHandler) : RdpSimHandler :=
  if h.isClosing then h else { h with isClosing := true }

/-- `RDPSimHandler::createSimSocket`. -/
def createSimSocket (h : RdpSimHandler) (socketNotifier : Int) : RdpSimHandler :=
  { h with
    simSocket := some
      { isControl := h.isControl, socketDescriptor := socketNotifier, written := [] }
    simSockets := h.simSockets + 1 }

/-- `RDPSimHandler::startVNCViewer`. -/
def startVNCViewer (h : RdpSimHandler) (programExists : Bool) : RdpSimHandler :=
  if programExists then { h with viewerProcess := true } else h.close

/-- `RDPSimHandler::start`. -/
def start (h : RdpSimHandler) (isControl programExists : Bool) : RdpSimHandler :=
  let h := { h with isControl }
  if h.isConnected then
    if h.isControl then h.startVNCViewer programExists else h.createSimSocket 0
  -- `onConnected` starts again.
  else { h with isStartFailed := true }

/-- `RDPSimHandler::onConnected`, when the channel has become connected. `m_isStartFailed` is
never reset. -/
def onConnected (h : RdpSimHandler) (programExists : Bool) : RdpSimHandler :=
  let h := { h with isConnected := true }
  if h.isStartFailed then h.start h.isControl programExists else h

/-- `RDPSimHandler::onNewSimConnection`. -/
def onNewSimConnection (h : RdpSimHandler) (socketDescriptor : Int) : RdpSimHandler :=
  -- Neither the role nor the viewer of the handler is asked for.
  if h.socketDescriptor = 0 then
    { h with socketDescriptor }.createSimSocket socketDescriptor
  else h

/-- `m_simSocket->write(m_rcvBuf)` and `m_rcvBuf.clear()`, when there is a `SimSocket`. -/
def flush (h : RdpSimHandler) : RdpSimHandler :=
  match h.simSocket with
  | some s => { h with simSocket := some { s with written := s.written ++ h.rcvBuf }, rcvBuf := [] }
  | none => h

/-- `RDPSimHandler::onRead`. -/
def onRead (h : RdpSimHandler) (buf : QByteArray) : RdpSimHandler :=
  { h with rcvBuf := h.rcvBuf ++ buf }.flush

/-- `RDPSimHandler::onSimConnected`. -/
def onSimConnected (h : RdpSimHandler) : RdpSimHandler :=
  if h.rcvBuf = [] then h else h.flush

/-- `RDPSimHandler::onSimRead`. -/
def onSimRead (h : RdpSimHandler) (data : QByteArray) : RdpSimHandler :=
  { h with channelOut := h.channelOut ++ data }

end RdpSimHandler

/-- The handler took the connection with the number `conn`, in the role and with the viewer
that are noted. -/
structure Adoption where
  conn : Nat
  handler : HandlerId
  socketDescriptor : Int
  isControl : Bool
  viewerProcess : Bool
  deriving DecidableEq, Repr

/-- The state of `RDPInstance`. A handler that was deleted has no entry in `objects`. `conns`
numbers the accepted connections. -/
structure RdpInstance where
  handlers : QHash QString HandlerId
  objects : HandlerId → Option RdpSimHandler
  nextHandler : HandlerId
  slots : List HandlerId
  conns : Nat
  adoptions : List Adoption

namespace RdpInstance

/-- The state after `init`. -/
def init : RdpInstance :=
  { handlers := ∅, objects := fun _ => none, nextHandler := 0, slots := [], conns := 0,
    adoptions := [] }

/-- Replace the members of a handler. -/
def setHandler (m : RdpInstance) (id : HandlerId) (h : RdpSimHandler) : RdpInstance :=
  { m with objects := Function.update m.objects id (some h) }

/-- `RDPInstance::initChannel`. -/
def initChannel (m : RdpInstance) (sessionId : QString) (isControl isConnected : Bool) :
    RdpInstance :=
  match m.handlers.lookup sessionId with
  | some _ => m
  | none =>
    { m.setHandler m.nextHandler (RdpSimHandler.new sessionId isControl isConnected) with
      handlers := m.handlers.insert sessionId m.nextHandler
      nextHandler := m.nextHandler + 1
      slots := m.slots ++ [m.nextHandler] }

/-- A slot of a handler runs. -/
def call (m : RdpInstance) (id : HandlerId) (f : RdpSimHandler → RdpSimHandler) : RdpInstance :=
  match m.objects id with
  | some h => m.setHandler id (f h)
  | none => m

/-- A method of the handler of a session, if the session has one. -/
def callSession (m : RdpInstance) (sessionId : QString) (f : RdpSimHandler → RdpSimHandler) :
    RdpInstance :=
  match m.handlers.lookup sessionId with
  | some id => m.call id f
  | none => m

/-- `RDPInstance::initConnection`. -/
def initConnection (m : RdpInstance) (sessionId : QString) (isControl programExists : Bool) :
    RdpInstance :=
  m.callSession sessionId fun h => h.start isControl programExists

/-- `RDPInstance::sendRDPAssitant`. -/
def sendRDPAssitant (m : RdpInstance) (sessionId : QString) (programExists : Bool) :
    RdpInstance := m.initConnection sessionId false programExists

/-- `RDPInstance::recvRDPAssitant`. -/
def recvRDPAssitant (m : RdpInstance) (sessionId : QString) (programExists : Bool) :
    RdpInstance := m.initConnection sessionId true programExists

/-- `RDPInstance::sendRDPControl`. -/
def sendRDPControl (m : RdpInstance) (sessionId : QString) (programExists : Bool) :
    RdpInstance := m.initConnection sessionId true programExists

/-- `RDPInstance::recvRDPControl`. -/
def recvRDPControl (m : RdpInstance) (sessionId : QString) (programExists : Bool) :
    RdpInstance := m.initConnection sessionId false programExists

/-- `RDPInstance::terminate`. -/
def terminate (m : RdpInstance) (sessionId : QString) : RdpInstance :=
  m.callSession sessionId RdpSimHandler.close

/-- `RDPInstance::onError`, for the `error` signal of a handler. Deleting a handler ends its
connection to `newConn`. -/
def onError (m : RdpInstance) (sessionId : QString) : RdpInstance :=
  match m.handlers.lookup sessionId with
  | some id =>
    { m with
      handlers := m.handlers.erase sessionId
      objects := Function.update m.objects id none
      slots := m.slots.erase id }
  | none => m

/-- The slot of one handler for `newConn`, with what it takes on record. -/
def deliver (socketDescriptor : Int) (m : RdpInstance) (id : HandlerId) : RdpInstance :=
  match m.objects id with
  | some h =>
    { m.setHandler id (h.onNewSimConnection socketDescriptor) with
      adoptions := if h.socketDescriptor = 0 then
          m.adoptions ++ [{ conn := m.conns, handler := id, socketDescriptor,
                            isControl := h.isControl, viewerProcess := h.viewerProcess }]
        else m.adoptions }
  | none => m

/-- `SimTCPServer::incomingConnection`: `emit newConn` runs the slots one after another. -/
def newConn (m : RdpInstance) (socketDescriptor : Int) : RdpInstance :=
  { m.slots.foldl (deliver socketDescriptor) m with conns := m.conns + 1 }

/-! ### The step function -/

/-- A call of the application, an accepted connection, or a signal of the channel or of the
`SimSocket` of a handler. -/
inductive RdpAction
  | initChannel (sessionId : QString) (isControl isConnected : Bool)
  | sendRDPAssitant (sessionId : QString) (programExists : Bool)
  | recvRDPAssitant (sessionId : QString) (programExists : Bool)
  | sendRDPControl (sessionId : QString) (programExists : Bool)
  | recvRDPControl (sessionId : QString) (programExists : Bool)
  | terminate (sessionId : QString)
  | newConn (socketDescriptor : Int)
  | channelConnected (id : HandlerId) (programExists : Bool)
  | channelRead (id : HandlerId) (buf : QByteArray)
  | channelError (id : HandlerId)
  | simConnected (id : HandlerId)
  | simRead (id : HandlerId) (data : QByteArray)
  | simDisconnected (id : HandlerId)
  deriving DecidableEq, Repr

/-- The step function. A signal to a handler needs the handler. -/
def step (m : RdpInstance) : RdpAction → Option RdpInstance
  | .initChannel sessionId isControl isConnected =>
    some (m.initChannel sessionId isControl isConnected)
  | .sendRDPAssitant sessionId programExists => some (m.sendRDPAssitant sessionId programExists)
  | .recvRDPAssitant sessionId programExists => some (m.recvRDPAssitant sessionId programExists)
  | .sendRDPControl sessionId programExists => some (m.sendRDPControl sessionId programExists)
  | .recvRDPControl sessionId programExists => some (m.recvRDPControl sessionId programExists)
  | .terminate sessionId => some (m.terminate sessionId)
  | .newConn socketDescriptor => some (m.newConn socketDescriptor)
  | .channelConnected id programExists =>
    (m.objects id).map fun h => m.setHandler id (h.onConnected programExists)
  | .channelRead id buf => (m.objects id).map fun h => m.setHandler id (h.onRead buf)
  | .channelError id => (m.objects id).map fun h => m.onError h.sessionId
  | .simConnected id => (m.objects id).map fun h => m.setHandler id h.onSimConnected
  | .simRead id data => (m.objects id).map fun h => m.setHandler id (h.onSimRead data)
  | .simDisconnected id => (m.objects id).map fun h => m.setHandler id h.close

end RdpInstance

end EChannel.LibRdp
