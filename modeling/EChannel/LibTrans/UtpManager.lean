import EChannel.LibTrans.UtpHandle

/-!
# `EChannel.LibTrans.UtpManager`: the main thread

`UTPManager` (`libTrans/src/utpmanager.cpp`) and the `TransportChannel` objects it serves
(`libTrans/src/transportchannel.cpp`) live in the main thread. They call each other directly,
so one record holds both: a channel is a number, and `channels` gives its members.

The requests to the uTP thread are queued signals; `outbox` holds those not delivered yet.
`iceOut` lists the datagrams handed to ICE. `received`, `connects` and `written` stand for
the `readyRead` and `connected` signals of a channel and for the calls of its `write`.
`assertFailed` is set by the `Q_ASSERT_X` in `onUtpAccept`.

A member that the constructor leaves uninitialised (`m_utpConnectID`) has any value at first.
-/

set_option autoImplicit false

namespace EChannel.LibTrans

open LibUtp

/-- A `TransportChannel*`. -/
abbrev ChanId := Nat

/-- The members of a `TransportChannel`. `iceSocket` says whether `m_iceSocket` is there. -/
structure TransportChannel where
  isControl : Bool
  iceSocket : Bool
  iceNego : Bool
  isRelay : Bool
  isConnected : Bool
  isClosing : Bool
  peerAddress : QString
  utpConnectID : Int
  writeBuf : QByteArray
  written : QByteArray
  received : QByteArray
  connects : Nat
  deriving DecidableEq, Repr

/-- A channel after `init`, with the value that `m_utpConnectID` happens to have. -/
def TransportChannel.new (isControl : Bool) (utpConnectID : Int) : TransportChannel :=
  { isControl, iceSocket := true, iceNego := false, isRelay := false, isConnected := false,
    isClosing := false, peerAddress := [], utpConnectID, writeBuf := [], written := [],
    received := [], connects := 0 }

/-- The signals from the main thread to `UtpHandle`. -/
inductive UtpRequest
  | connectToPeer (peerAddr : QString) (connectID : Int)
  | parse (peerAddr : QString) (pkt : Packet)
  | pack (peerAddr : QString) (buf : QByteArray)
  | setAcceptConnID (peerAddr : QString) (connectID : Int)
  | close (peerAddr : QString) (connectID : Int)
  deriving DecidableEq, Repr

/-- The state of the main thread. -/
structure UTPManager where
  connID : Int
  hashChannels : QHash QString ChanId
  hashIDChannels : QHash Int ChanId
  channels : ChanId → TransportChannel
  outbox : List UtpRequest
  iceOut : List (ChanId × Packet)
  assertFailed : Bool

namespace UTPManager

/-- The state after `init`. -/
def init (channels : ChanId → TransportChannel) : UTPManager :=
  { connID := 1, hashChannels := ∅, hashIDChannels := ∅, channels, outbox := [], iceOut := [],
    assertFailed := false }

/-- Queue a signal to the uTP thread. -/
def request (m : UTPManager) (req : UtpRequest) : UTPManager :=
  { m with outbox := m.outbox ++ [req] }

/-- Replace the members of a channel. -/
def setChannel (m : UTPManager) (c : ChanId) (ch : TransportChannel) : UTPManager :=
  { m with channels := Function.update m.channels c ch }

/-! ### `TransportChannel` -/

/-- `UTPManager::createUtpSocket`, with the id it returns. -/
def createUtpSocket (m : UTPManager) (peerAddress : QString) (c : ChanId) :
    UTPManager × Int :=
  let connID := m.connID + 1
  let m' := { m with
    connID
    hashChannels := m.hashChannels.insert peerAddress c
    hashIDChannels := m.hashIDChannels.insert connID c }
  -- Only the controlling side connects; the other one waits for the accept.
  if (m.channels c).isControl then (m'.request (.connectToPeer peerAddress connID), connID)
  else (m', connID)

/-- `TransportChannel::onICENego`. -/
def onICENego (m : UTPManager) (c : ChanId) (isSuccess isRelay : Bool) (address : QString) :
    UTPManager :=
  let ch := m.channels c
  -- A second report after a success is ignored, whatever it says.
  if ch.iceNego then m
  else if isSuccess then
    let r := m.createUtpSocket address c
    r.1.setChannel c
      { ch with peerAddress := address, isRelay, utpConnectID := r.2, iceNego := true }
  else m.setChannel c { ch with peerAddress := address, isRelay, iceNego := false }

/-- `TransportChannel::write`. -/
def write (m : UTPManager) (c : ChanId) (data : QByteArray) : UTPManager :=
  let ch := { m.channels c with written := (m.channels c).written ++ data }
  -- After `onICENego` the address is set, and the bytes go out behind no buffer.
  if ch.peerAddress = [] then m.setChannel c { ch with writeBuf := ch.writeBuf ++ data }
  else (m.setChannel c ch).request (.pack ch.peerAddress data)

/-- `TransportChannel::close`. -/
def close (m : UTPManager) (c : ChanId) : UTPManager :=
  let ch := m.channels c
  if ch.isClosing then m
  else (m.setChannel c { ch with isClosing := true }).request
    (.close ch.peerAddress ch.utpConnectID)

/-- `TransportChannel::connectSuccess`. The write buffer is sent and kept. -/
def connectSuccess (m : UTPManager) (c : ChanId) (peerAddr : QString) : UTPManager :=
  -- `emit connected()` comes on every path, also for an empty address.
  let ch := { m.channels c with isConnected := true, connects := (m.channels c).connects + 1 }
  if peerAddr = [] then m.setChannel c ch
  else if ch.writeBuf = [] then m.setChannel c { ch with peerAddress := peerAddr }
  else (m.setChannel c { ch with peerAddress := peerAddr }).request (.pack peerAddr ch.writeBuf)

/-- `TransportChannel::conncetError`. -/
def conncetError (m : UTPManager) (c : ChanId) : UTPManager :=
  m.setChannel c { m.channels c with iceSocket := false }

/-- `TransportChannel::onICEReadPkt`: a datagram goes to the uTP thread. -/
def onICEReadPkt (m : UTPManager) (pkt : Packet) (peerAddr : QString) : UTPManager :=
  m.request (.parse peerAddr pkt)

/-! ### The slots for the signals of the uTP thread -/

/-- `UTPManager::onUtpReqSend`. -/
def onUtpReqSend (m : UTPManager) (peerAddress : QString) (pkt : Packet) : UTPManager :=
  match m.hashChannels.lookup peerAddress with
  | some c => { m with iceOut := m.iceOut ++ [(c, pkt)] }
  | none => m

/-- `UTPManager::onUtpRecv`: a block for an unknown id is dropped. -/
def onUtpRecv (m : UTPManager) (connectID : Int) (buf : QByteArray) : UTPManager :=
  match m.hashIDChannels.lookup connectID with
  | some c => m.setChannel c { m.channels c with received := (m.channels c).received ++ buf }
  | none => m

/-- `UTPManager::onUtpAccept`. -/
def onUtpAccept (m : UTPManager) (peerAddress : QString) : UTPManager :=
  match m.hashChannels.lookup peerAddress with
  | some c =>
    (m.request (.setAcceptConnID peerAddress (m.channels c).utpConnectID)).connectSuccess c
      peerAddress
  | none => { m with assertFailed := true }

/-- `UTPManager::onUtpConnected`. -/
def onUtpConnected (m : UTPManager) (connectID : Int) : UTPManager :=
  match m.hashIDChannels.lookup connectID with
  | some c => m.connectSuccess c (m.hashChannels.key c [])
  | none => m

/-- The channel that `UTPManager::onUtpError` reports to: by id first, then by address. -/
def errorChannel (m : UTPManager) (peerAddr : QString) (connectID : Int) : Option ChanId :=
  (m.hashIDChannels.lookup connectID).or (m.hashChannels.lookup peerAddr)

/-- `UTPManager::onUtpError`. -/
def onUtpError (m : UTPManager) (peerAddr : QString) (connectID : Int) : UTPManager :=
  let m' := { m with
    hashIDChannels := m.hashIDChannels.erase connectID
    hashChannels := m.hashChannels.erase peerAddr }
  match m.errorChannel peerAddr connectID with
  | some c => m'.conncetError c
  | none => m'

/-- The slot for a signal. `onUtpIdle` passes the signal on to the application. -/
def slot (m : UTPManager) : UtpSignal → UTPManager
  | .reqUDPSend peerAddress pkt => m.onUtpReqSend peerAddress pkt
  | .utpRecv connectID buf => m.onUtpRecv connectID buf
  | .utpAccept peerAddress => m.onUtpAccept peerAddress
  | .utpConnected connectID => m.onUtpConnected connectID
  | .utpError peerAddr connectID => m.onUtpError peerAddr connectID
  | .utpIdle _ => m

end UTPManager

end EChannel.LibTrans
