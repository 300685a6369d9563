import EChannel.LibUtp.Socket
import EChannel.Support.Run
import Mathlib.Logic.Function.Basic

/-!
# `EChannel.LibTrans.UtpHandle`: the object of the uTP thread

`UtpHandle` (`libTrans/src/utphandle.cpp`) owns the libutp context. Its slots run in the uTP
thread for the signals of the main thread, and its static callbacks run there when libutp
reports an event. Both are functions on the record `UtpHandle`; `UtpHandle.step` takes one
of them.

* The two socket maps, `m_okChannels` and `m_writeQueue` are fields. `m_recvQueue` is empty
  between two slots (`processRecv` drains it), so it is not a field.
* The signals that the object emits go to `UTPManager` in the main thread. They are queued
  there; `outbox` holds those not delivered yet.
* libutp is the table `sockets`. What it reports, and when, is an input (`UtpEvent`), with
  the guard that the state of the socket allows the report.
* How much each `utp_write` takes is an input too: an `Oracle` holds the answers in the order
  of the calls, and a call beyond the list takes nothing.
* `hist` records what happened: packs enqueued, offered, finished and discarded, sockets
  installed and established, blocks read. `PackInfo.ticket` is the length of the history when
  the pack was enqueued. No branch reads either.

`onInit` has run: before it, the slots are not connected and requests are lost.
-/

set_option autoImplicit false

namespace EChannel.LibTrans

open LibUtp

/-- `UtpHandle::PackInfo`, with the ticket of the history. -/
structure PackInfo where
  peerAddr : QString
  buf : QByteArray
  pos : Nat
  ticket : Nat
  deriving DecidableEq, Repr

/-- The bytes `buf[pos..]` that are still to be written. -/
def PackInfo.rest (pack : PackInfo) : QByteArray := pack.buf.drop pack.pos

/-- The pack as it was enqueued, at position 0. -/
def PackInfo.start (pack : PackInfo) : PackInfo := { pack with pos := 0 }

/-- A pack that is written from its start keeps its address. -/
@[simp] theorem PackInfo.start_peerAddr (pack : PackInfo) :
    pack.start.peerAddr = pack.peerAddr := rfl

/-- A pack that is written from its start keeps its bytes. -/
@[simp] theorem PackInfo.start_buf (pack : PackInfo) : pack.start.buf = pack.buf := rfl

/-- A pack that is written from its start keeps its ticket. -/
@[simp] theorem PackInfo.start_ticket (pack : PackInfo) :
    pack.start.ticket = pack.ticket := rfl

/-- The signals from `UtpHandle` to `UTPManager`. -/
inductive UtpSignal
  | reqUDPSend (peerAddr : QString) (pkt : Packet)
  | utpRecv (connectID : Int) (buf : QByteArray)
  | utpAccept (peerAddr : QString)
  | utpConnected (connectID : Int)
  | utpError (peerAddr : QString) (connectID : Int)
  | utpIdle (peerAddr : QString)
  deriving DecidableEq, Repr

/-- What the history records. `offer s pack sent` is one `utp_write` on `s` of the bytes from
`pack.pos` on that took `sent` of them. `finish` and `discard` are the two ways a pack leaves
the queue; `discard` notes `m_okChannels` at that moment, `read` the user data. -/
inductive HistEvent
  | enqueue (pack : PackInfo)
  | offer (s : SockId) (pack : PackInfo) (sent : Nat)
  | finish (pack : PackInfo)
  | discard (pack : PackInfo) (okChannels : List QString)
  | install (peerAddr : QString) (s : SockId)
  | established (s : SockId)
  | read (s : SockId) (connectID : Int) (buf : QByteArray)
  | close (s : SockId)
  | destroyed (s : SockId)
  deriving DecidableEq, Repr

/-- The answers of libutp to a sequence of `utp_write` calls. -/
abbrev Oracle := List WriteResult

/-- The state of the uTP thread. -/
structure UtpHandle where
  sockets : SockId → Option UTPSocket
  nextSock : SockId
  utpSockets : QHash Int SockId
  utpSocketsAddr : QHash QString SockId
  okChannels : List QString
  writeQueue : List PackInfo
  outbox : List UtpSignal
  hist : List HistEvent

namespace UtpHandle

/-- The state after `onInit`. -/
def init : UtpHandle :=
  { sockets := fun _ => none, nextSock := 0, utpSockets := ∅, utpSocketsAddr := ∅,
    okChannels := [], writeQueue := [], outbox := [], hist := [] }

/-- Queue a signal to the main thread. -/
def emit (st : UtpHandle) (sig : UtpSignal) : UtpHandle :=
  { st with outbox := st.outbox ++ [sig] }

/-- The state with another write queue. -/
def withQueue (st : UtpHandle) (q : List PackInfo) : UtpHandle := { st with writeQueue := q }

/-- Append to the history. -/
def record (st : UtpHandle) (e : HistEvent) : UtpHandle :=
  { st with hist := st.hist ++ [e] }

/-- Replace the record of a socket. -/
def setSocket (st : UtpHandle) (s : SockId) (sock : UTPSocket) : UtpHandle :=
  { st with sockets := Function.update st.sockets s (some sock) }

/-- `utp_get_userdata`. -/
def userdata (st : UtpHandle) (s : SockId) : Int :=
  match st.sockets s with
  | some sock => sock.userdata
  | none => 0

/-! ### Writing -/

/-- One `utp_write` on `s` of what is left of the pack. -/
def utpWrite (st : UtpHandle) (s : SockId) (pack : PackInfo) (r : WriteResult) :
    UtpHandle × Nat :=
  match st.sockets s with
  | none => (st.record (.offer s pack 0), 0)
  | some sock =>
    let w := sock.write (pack.buf.length - pack.pos) r
    ((st.setSocket s w.1).record (.offer s pack w.2), w.2)

/-- The write loop of `UtpHandle::write_data`, with `p - buf` as the position of the pack.
The result is `none` for `return true`; for `return false` it is the pack with its new
position. -/
def writeLoop (st : UtpHandle) (s : SockId) (pack : PackInfo) :
    Oracle → UtpHandle × Option PackInfo × Oracle
  | [] =>
    if pack.pos < pack.buf.length then
      ((st.utpWrite s pack ⟨0, false⟩).1, some pack, [])
    else (st, none, [])
  | r :: o =>
    if pack.pos < pack.buf.length then
      let w := st.utpWrite s pack r
      -- "socket no longer writable": the position of this round goes to `pack.pos`.
      if w.2 = 0 then (w.1, some pack, o)
      else if pack.pos + w.2 = pack.buf.length then
        (w.1.emit (.utpIdle pack.peerAddr), none, o)
      else writeLoop w.1 s { pack with pos := pack.pos + w.2 } o
    else (st, none, r :: o)

/-- `UtpHandle::write_data`. -/
def writeData (st : UtpHandle) (pack : PackInfo) (o : Oracle) :
    UtpHandle × Option PackInfo × Oracle :=
  match st.utpSocketsAddr.lookup pack.peerAddr with
  -- Without a socket for the address, `write_data` returns false at once.
  | none => (st, some pack, o)
  | some s => st.writeLoop s pack o

/-- The loop of `UtpHandle::processWrite` over the packs of the queue. -/
def processWriteLoop : List PackInfo → UtpHandle → Oracle → UtpHandle
  | [], st, _ => st
  | pack :: rest, st, o =>
    if pack.peerAddr ∈ st.okChannels then
      match st.writeData pack o with
      -- `write_data` returned true: `dequeue`, and on with the next pack.
      | (st', none, o') =>
        processWriteLoop rest ((st'.withQueue rest).record (.finish pack.start)) o'
      -- It returned false: the pack stays at the head, and the loop ends.
      | (st', some pack', _) => st'.withQueue (pack' :: rest)
    else
      -- `dequeue` and `continue`: nothing of the pack goes to libutp any more.
      processWriteLoop rest
        ((st.withQueue rest).record (.discard pack.start st.okChannels)) o

/-- `UtpHandle::processWrite`. -/
def processWrite (st : UtpHandle) (o : Oracle) : UtpHandle :=
  processWriteLoop st.writeQueue st o

/-- `UtpHandle::save2WriteQueue`. -/
def save2WriteQueue (st : UtpHandle) (peerAddr : QString) (buf : QByteArray) (o : Oracle) :
    UtpHandle :=
  let pack : PackInfo := { peerAddr, buf, pos := 0, ticket := st.hist.length }
  ((st.withQueue (st.writeQueue ++ [pack])).record (.enqueue pack)).processWrite o

/-! ### The other slots -/

/-- `UtpHandle::connectToPeer`, with the `conn_seed` that libutp draws. `utp_connect` sends
the `ST_SYN` through `callback_sendto`. -/
def connectToPeer (st : UtpHandle) (peerAddr : QString) (connectID : Int) (seed : Nat) :
    UtpHandle :=
  let s := st.nextSock
  let sock := { UTPSocket.connecting peerAddr seed with userdata := connectID }
  (({ st with
      nextSock := s + 1
      utpSockets := st.utpSockets.insert connectID s
      utpSocketsAddr := st.utpSocketsAddr.insert peerAddr s }.setSocket s sock).emit
    (.reqUDPSend peerAddr (.syn seed))).record (.install peerAddr s)

/-- `UtpHandle::setAcceptConnID`. -/
def setAcceptConnID (st : UtpHandle) (peerAddr : QString) (connectID : Int) : UtpHandle :=
  match st.utpSocketsAddr.lookup peerAddr with
  | none => st
  | some s =>
    match st.sockets s with
    | none => st
    | some sock => st.setSocket s { sock with userdata := connectID }

/-- `utp_close` on a socket of the table. -/
def utpClose (st : UtpHandle) (s : SockId) : UtpHandle :=
  match st.sockets s with
  | none => st.record (.close s)
  | some sock => (st.setSocket s sock.close).record (.close s)

/-- `UtpHandle::onCloseSocket`: by connection id first, by address when there is none. -/
def onCloseSocket (st : UtpHandle) (peerAddr : QString) (connectID : Int) : UtpHandle :=
  match st.utpSockets.lookup connectID with
  | some s => st.utpClose s
  | none =>
    match st.utpSocketsAddr.lookup peerAddr with
    | some s => st.utpClose s
    | none => st

/-! ### The callbacks -/

/-- `callback_on_accept` for the new socket `s`. -/
def callbackOnAccept (st : UtpHandle) (s : SockId) (peerAddr : QString) (o : Oracle) :
    UtpHandle :=
  ((({ st with
      utpSocketsAddr := st.utpSocketsAddr.insert peerAddr s
      okChannels := st.okChannels ++ [peerAddr] }.emit (.utpAccept peerAddr)).record
    (.install peerAddr s)).record (.established s)).processWrite o

/-- `callback_on_read`. -/
def callbackOnRead (st : UtpHandle) (s : SockId) (buf : QByteArray) : UtpHandle :=
  (st.emit (.utpRecv (st.userdata s) buf)).record (.read s (st.userdata s) buf)

/-- `callback_on_state_change` with `UTP_STATE_CONNECT`, which falls through to
`UTP_STATE_WRITABLE`. A socket that is in no map has the empty key. -/
def callbackOnConnect (st : UtpHandle) (s : SockId) (o : Oracle) : UtpHandle :=
  (({ st with okChannels := st.okChannels ++ [st.utpSocketsAddr.key s []] }.emit
    (.utpConnected (st.userdata s))).record (.established s)).processWrite o

/-- `callback_on_state_change` with `UTP_STATE_DESTROYING`. -/
def callbackOnDestroying (st : UtpHandle) (s : SockId) : UtpHandle :=
  let peerAddr := st.utpSocketsAddr.key s []
  -- `m_okChannels` keeps the address.
  { st with
      utpSockets := st.utpSockets.erase (st.userdata s)
      utpSocketsAddr := st.utpSocketsAddr.erase peerAddr }.emit
    (.utpError peerAddr (st.userdata s))

/-! ### libutp reports and the step function -/

/-- What libutp can report. `accept` is a `ST_SYN` from `peerAddr`, `connect` the `ST_STATE`
that answers ours, `error` a reset, an ICMP error or a timeout, `expire` the end of a closing
socket, `sendto` a packet that libutp sends on its own (retransmission, acknowledgement,
keep-alive). -/
inductive UtpEvent
  | accept (peerAddr : QString) (connid : Nat)
  | connect (s : SockId)
  | writable (s : SockId)
  | read (s : SockId) (buf : QByteArray)
  | eof (s : SockId)
  | error (s : SockId)
  | expire (s : SockId)
  | destroying (s : SockId)
  | sendto (peerAddr : QString) (pkt : Packet)
  deriving DecidableEq, Repr

/-- No socket of the table `sockets`, below `n`, has the key `(peerAddr, connIdRecv)`. -/
def keyFree (sockets : SockId → Option UTPSocket) (peerAddr : QString) (connIdRecv n : Nat) :
    Bool :=
  (List.range n).all fun s =>
    match sockets s with
    | none => true
    | some sock => ¬ (sock.addr = peerAddr ∧ sock.connIdRecv = connIdRecv)

/-- `utp_process_udp` on a `ST_SYN` whose connection is new: the socket is made, the
acknowledgement goes out, then `callback_on_accept` runs. -/
def acceptSyn (st : UtpHandle) (peerAddr : QString) (connid : Nat) (o : Oracle) : UtpHandle :=
  let s := st.nextSock
  (({ st with nextSock := s + 1 }.setSocket s (UTPSocket.accepted peerAddr connid)).emit
    (.reqUDPSend peerAddr (.state connid))).callbackOnAccept s peerAddr o

/-- One report of libutp, `none` when the state of the socket does not allow it. The address
of a datagram is printed as `ip:port`, so it has a colon. -/
def onEvent (st : UtpHandle) (o : Oracle) : UtpEvent → Option UtpHandle
  | .accept peerAddr connid =>
    if ':' ∈ peerAddr ∧ keyFree st.sockets peerAddr (connid + 1) st.nextSock then
      some (st.acceptSyn peerAddr connid o)
    else none
  | .connect s =>
    match st.sockets s with
    | none => none
    | some sock =>
      if sock.state = .synSent then
        some ((st.setSocket s { sock with state := .connected }).callbackOnConnect s o)
      else none
  | .writable s =>
    match st.sockets s with
    | none => none
    | some sock =>
      if sock.state = .connectedFull then
        some ((st.setSocket s { sock with state := .connected }).processWrite o)
      else none
  | .read s buf =>
    match st.sockets s with
    | none => none
    | some sock => if sock.isConnected then some (st.callbackOnRead s buf) else none
  | .eof s =>
    match st.sockets s with
    | none => none
    | some sock =>
      if sock.isConnected then
        some ((st.setSocket s { sock with state := .gotFin }).utpClose s)
      else none
  | .error s =>
    match st.sockets s with
    | none => none
    -- `callback_on_error` emits nothing: its `emit` is commented out.
    | some sock => some (st.setSocket s sock.fail)
  | .expire s =>
    match st.sockets s with
    | none => none
    | some sock =>
      if sock.state = .gotFin ∨ sock.state = .destroyDelay ∨ sock.state = .finSent then
        some (st.setSocket s sock.expire)
      else none
  | .destroying s =>
    match st.sockets s with
    | none => none
    | some sock =>
      if sock.state = .destroy then
        -- libutp frees the socket after the callback.
        let st' := st.callbackOnDestroying s
        some ({ st' with sockets := Function.update st'.sockets s none }.record (.destroyed s))
      else none
  | .sendto peerAddr pkt => some (st.emit (.reqUDPSend peerAddr pkt))

/-- One step of the uTP thread: a slot, or a report of libutp. `save2RecvQueue` runs
`processWrite` first (`processLoop`); what libutp makes of the datagram follows as
reports. The timer slot `checkUtp` does nothing but let libutp report. -/
inductive UtpAction
  | connectToPeer (peerAddr : QString) (connectID : Int) (seed : Nat)
  | setAcceptConnID (peerAddr : QString) (connectID : Int)
  | onCloseSocket (peerAddr : QString) (connectID : Int)
  | save2WriteQueue (peerAddr : QString) (buf : QByteArray) (o : Oracle)
  | processLoop (o : Oracle)
  | event (e : UtpEvent) (o : Oracle)
  deriving DecidableEq, Repr

/-- The step function of the uTP thread. A `conn_seed` is drawn until it is free. For an
address without a colon `connectToPeer` reads `ipport[1]` out of range. -/
def step (st : UtpHandle) : UtpAction → Option UtpHandle
  | .connectToPeer peerAddr connectID seed =>
    if ':' ∈ peerAddr ∧ keyFree st.sockets peerAddr seed st.nextSock then
      some (st.connectToPeer peerAddr connectID seed)
    else none
  | .setAcceptConnID peerAddr connectID => some (st.setAcceptConnID peerAddr connectID)
  | .onCloseSocket peerAddr connectID => some (st.onCloseSocket peerAddr connectID)
  | .save2WriteQueue peerAddr buf o => some (st.save2WriteQueue peerAddr buf o)
  | .processLoop o => some (st.processWrite o)
  | .event e o => st.onEvent o e

end UtpHandle

end EChannel.LibTrans
