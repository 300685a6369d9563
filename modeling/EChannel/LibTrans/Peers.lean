import EChannel.LibTrans.System

/-!
# `EChannel.LibTrans.Peers`: the two endpoints of a session

A session has a connecting endpoint and an accepting one. Each is a `System`, with the
session's channel as its channel 0, and ICE has given each the other's address. The datagrams
that a main thread hands to ICE are in flight until they are delivered. They can be delivered
in any order, more than once, or not at all.

For a datagram, `processRecv` calls `utp_process_udp`. A `ST_SYN` makes a socket unless there
is one with its key already, and a `ST_STATE` completes the connection of a connecting
socket. Of their own accord the sockets repeat the `ST_SYN` or send a `ST_STATE` (a keep-alive
or an acknowledgement) or data. No endpoint closes its socket or loses it.
-/

set_option autoImplicit false

namespace EChannel.LibTrans

open LibUtp

namespace UtpHandle

/-- The socket with the key `(peerAddr, connIdRecv)`. -/
def findSocket (st : UtpHandle) (peerAddr : QString) (connIdRecv : Nat) : Option SockId :=
  (List.range st.nextSock).find? fun s =>
    match st.sockets s with
    | none => false
    | some sock => sock.addr = peerAddr ∧ sock.connIdRecv = connIdRecv

/-- A report of libutp, if the state of the socket allows it. -/
def report (st : UtpHandle) (e : UtpEvent) (o : Oracle) : UtpHandle :=
  match st.step (.event e o) with
  | some st' => st'
  | none => st

/-- `utp_process_udp`, as far as it makes and connects sockets. -/
def utpProcessUdp (st : UtpHandle) (peerAddr : QString) (pkt : Packet) (o : Oracle) :
    UtpHandle :=
  match pkt with
  -- A repeated `ST_SYN` finds the key taken, so `report` changes nothing.
  | .syn connid => st.report (.accept peerAddr connid) o
  -- Outside `CS_SYN_SENT` a `ST_STATE` only acknowledges.
  | .state connid =>
    match st.findSocket peerAddr connid with
    | some s => st.report (.connect s) o
    | none => st
  | .other _ => st

/-- What a socket sends when its timer runs out. -/
def timerPacket (sock : UTPSocket) : Option Packet :=
  match sock.state with
  | .synSent => some (.syn sock.connIdRecv)
  | .connected => some (.state sock.connIdSend)
  | .connectedFull => some (.state sock.connIdSend)
  | _ => none

end UtpHandle

/-- The steps of an endpoint. `timer` and `data` are packets that libutp sends, `read` and
`writable` what it reports for the data packets of the peer. -/
inductive EndAction
  | onICENego (isRelay : Bool)
  | write (data : QByteArray)
  | mainSlot
  | utpSlot (seed : Nat) (o o' : Oracle)
  | timer (s : SockId)
  | data (s : SockId) (bytes : QByteArray)
  | read (s : SockId) (buf : QByteArray)
  | writable (s : SockId) (o : Oracle)

namespace System

/-- The next slot of the uTP thread, with `processRecv` for a datagram. -/
def recvSlot (y : System) (seed : Nat) (o o' : Oracle) : Option System :=
  match y.main.outbox with
  | .parse peerAddr pkt :: _ =>
    match y.step (.utpSlot seed o) with
    | some y' => some { y' with utp := y'.utp.utpProcessUdp peerAddr pkt o' }
    | none => none
  | _ => y.step (.utpSlot seed o)

/-- A packet of the socket `s`. -/
def sendFrom (y : System) (s : SockId) (packet : UTPSocket → Option Packet) : Option System :=
  match y.utp.sockets s with
  | none => none
  | some sock =>
    match packet sock with
    | none => none
    | some pkt => y.step (.utpEvent (.sendto sock.addr pkt) [])

/-- The step function of an endpoint whose peer has the address `peer`. -/
def endStep (y : System) (peer : QString) : EndAction → Option System
  | .onICENego isRelay => y.step (.onICENego 0 true isRelay peer)
  | .write data => y.step (.write 0 data)
  | .mainSlot => y.step .mainSlot
  | .utpSlot seed o o' => y.recvSlot seed o o'
  | .timer s => y.sendFrom s UtpHandle.timerPacket
  | .data s bytes => y.sendFrom s fun sock =>
      if sock.isConnected then some (.other bytes) else none
  | .read s buf => y.step (.utpEvent (.read s buf) [])
  | .writable s o => y.step (.utpEvent (.writable s) o)

end System

/-- Both endpoints and the datagrams in flight between them. -/
structure Peers where
  ctl : System
  acc : System
  toAcc : List Packet
  toCtl : List Packet

/-- The steps of a session. A delivered datagram stays in flight when it is a duplicate. -/
inductive PeersAction
  | ctl (a : EndAction)
  | acc (a : EndAction)
  | deliverAcc (i : Nat) (duplicate : Bool)
  | deliverCtl (i : Nat) (duplicate : Bool)
  | loseAcc (i : Nat)
  | loseCtl (i : Nat)

namespace Peers

/-- The session before any step, with one endpoint in either role. -/
def init (ctlGarbage accGarbage : Int) : Peers :=
  { ctl := System.init (System.newChannels (fun _ => true) fun _ => ctlGarbage)
    acc := System.init (System.newChannels (fun _ => false) fun _ => accGarbage)
    toAcc := [], toCtl := [] }

/-- The datagrams that a step of the main thread hands to ICE. -/
def sent (y y' : System) : List Packet :=
  (y'.main.iceOut.drop y.main.iceOut.length).map Prod.snd

/-- What stays in flight after the delivery of the datagram `i`. -/
def remaining (net : List Packet) (i : Nat) (duplicate : Bool) : List Packet :=
  if duplicate then net else net.eraseIdx i

/-- The step function of the session between the addresses `ctlAddr` and `accAddr`. -/
def step (ctlAddr accAddr : QString) (p : Peers) : PeersAction → Option Peers
  | .ctl a =>
    match p.ctl.endStep accAddr a with
    | some y => some { p with ctl := y, toAcc := p.toAcc ++ sent p.ctl y }
    | none => none
  | .acc a =>
    match p.acc.endStep ctlAddr a with
    | some y => some { p with acc := y, toCtl := p.toCtl ++ sent p.acc y }
    | none => none
  | .deliverAcc i duplicate =>
    match p.toAcc[i]? with
    | some pkt =>
      some { p with
        acc := { p.acc with main := p.acc.main.onICEReadPkt pkt ctlAddr }
        toAcc := remaining p.toAcc i duplicate }
    | none => none
  | .deliverCtl i duplicate =>
    match p.toCtl[i]? with
    | some pkt =>
      some { p with
        ctl := { p.ctl with main := p.ctl.main.onICEReadPkt pkt accAddr }
        toCtl := remaining p.toCtl i duplicate }
    | none => none
  | .loseAcc i => some { p with toAcc := p.toAcc.eraseIdx i }
  | .loseCtl i => some { p with toCtl := p.toCtl.eraseIdx i }

/-- No message is in flight, between the endpoints or between their threads. -/
def Quiescent (p : Peers) : Prop :=
  p.toAcc = [] ∧ p.toCtl = [] ∧ System.Drained p.ctl ∧ System.Drained p.acc

end Peers

end EChannel.LibTrans
