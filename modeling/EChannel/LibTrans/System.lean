import EChannel.LibTrans.UtpManager

/-!
# `EChannel.LibTrans.System`: the two threads

`System` is the main thread and the uTP thread with the two queues of signals between them,
each delivered in the order of emission. A step is a call from the application or from ICE in
the main thread, the next slot of either thread, or a report of libutp. Every interleaving is
a run of `System.step`.

The steps of the uTP thread are those of `UtpHandle.step`; `System.utpAction` is the one that a
request stands for.
-/

set_option autoImplicit false

namespace EChannel.LibTrans

open LibUtp

/-- Both threads. -/
structure System where
  main : UTPManager
  utp : UtpHandle

/-- The steps of the system. `connectSuccess` is a further notification for the channel
registered at the address. -/
inductive SysAction
  | onICENego (c : ChanId) (isSuccess isRelay : Bool) (address : QString)
  | onICEReadPkt (pkt : Packet) (peerAddr : QString)
  | write (c : ChanId) (data : QByteArray)
  | close (c : ChanId)
  | connectSuccess (peerAddr : QString)
  | mainSlot
  | utpSlot (seed : Nat) (o : Oracle)
  | utpEvent (e : UtpHandle.UtpEvent) (o : Oracle)

namespace System

/-- The channels after `init`: each in its role, with the value that its `m_utpConnectID`
happens to have. -/
def newChannels (role : ChanId → Bool) (garbage : ChanId → Int) : ChanId → TransportChannel :=
  fun c => TransportChannel.new (role c) (garbage c)

/-- Both threads after their `init`. -/
def init (channels : ChanId → TransportChannel) : System :=
  { main := UTPManager.init channels, utp := UtpHandle.init }

/-- What the uTP thread does for a request. -/
def utpAction (req : UtpRequest) (seed : Nat) (o : Oracle) : UtpHandle.UtpAction :=
  match req with
  | .connectToPeer peerAddr connectID => .connectToPeer peerAddr connectID seed
  | .parse _ _ => .processLoop o
  | .pack peerAddr buf => .save2WriteQueue peerAddr buf o
  | .setAcceptConnID peerAddr connectID => .setAcceptConnID peerAddr connectID
  | .close peerAddr connectID => .onCloseSocket peerAddr connectID

/-- A step of the uTP thread. -/
def stepUtp (y : System) (a : UtpHandle.UtpAction) : Option System :=
  match y.utp.step a with
  | some u => some { y with utp := u }
  | none => none

/-- The step function of the system. -/
def step (y : System) : SysAction → Option System
  | .onICENego c isSuccess isRelay address =>
    some { y with main := y.main.onICENego c isSuccess isRelay address }
  | .onICEReadPkt pkt peerAddr => some { y with main := y.main.onICEReadPkt pkt peerAddr }
  | .write c data => some { y with main := y.main.write c data }
  | .close c => some { y with main := y.main.close c }
  | .connectSuccess peerAddr =>
    match y.main.hashChannels.lookup peerAddr with
    | some c => some { y with main := y.main.connectSuccess c peerAddr }
    | none => none
  | .mainSlot =>
    match y.utp.outbox with
    | [] => none
    | sig :: rest => some { main := y.main.slot sig, utp := { y.utp with outbox := rest } }
  | .utpSlot seed o =>
    match y.main.outbox with
    | [] => none
    | req :: rest =>
      { y with main := { y.main with outbox := rest } }.stepUtp (utpAction req seed o)
  | .utpEvent e o => y.stepUtp (.event e o)

/-- Both queues of signals are empty. -/
def Drained (y : System) : Prop := y.main.outbox = [] ∧ y.utp.outbox = []

end System

end EChannel.LibTrans
