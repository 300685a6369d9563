import EChannel.LibUtp.Incoming
import EChannel.LibUtp.PackedSockAddr
import EChannel.LibUtp.UtpHash

/-!
# `EChannel.LibUtp.Context`: the sockets of a context

`utp_context` has all sockets of a process in a hash table, under the address of the peer and the
id that the packets of the connection carry. `utp_process_udp` finds the socket of a packet
there, makes a socket for a `ST_SYN`, and answers what belongs to nobody with a `ST_RESET`;
`utp_check_timeouts` goes through the table and deletes the sockets that are done.

* A pointer to a socket is its key, as long as the socket is in the table. `last_utp_socket` is
  such a pointer; to use it after the socket was deleted is a `fault`, and so is the assertion of
  the destructor.
* Every step has its own surroundings `env`, so nothing is assumed about the clock between two
  steps, or about the order in which the sockets read it.
* The calls that the upper layer makes inside a callback are calls on the socket that calls back.
  In particular no callback of `utp_check_timeouts` touches another socket.
* The order of `ack_sockets` is not kept: one round of `utp_issue_deferred_acks` is
  `deferredAck`, for any socket.
* `UTP_ON_ACCEPT` is set, so a `ST_SYN` is answered, and `callback_on_firewall` of `UtpHandle`
  lets every connection in.
-/

set_option autoImplicit false

namespace EChannel.LibUtp

/-- `RST_INFO_TIMEOUT`, in milliseconds. -/
def rstInfoTimeout : Int := 10000

/-- `RST_INFO_LIMIT`. -/
def rstInfoLimit : Nat := 1000

/-- `TIMEOUT_CHECK_INTERVAL`, in milliseconds. -/
def timeoutCheckInterval : UInt64 := 500

/-- The number of sockets above which no connection is accepted. -/
def acceptLimit : Nat := 3000

/-- `UTPSocketKey`. -/
structure UTPSocketKey where
  addr : PackedSockAddr
  recvId : UInt32
  deriving DecidableEq, Repr

/-- `RST_Info`. -/
structure RstInfo where
  addr : PackedSockAddr
  connid : UInt32
  ackNr : UInt16
  timestamp : UInt64
  deriving DecidableEq, Repr

/-- The entry is about this packet. -/
def RstInfo.isFor (r : RstInfo) (addr : PackedSockAddr) (id : UInt32) (seqNr : UInt16) : Bool :=
  r.connid = id ∧ r.addr = addr ∧ r.ackNr = seqNr

/-- `utp_context`. `resets` are the `ST_RESET` packets that were sent to nobody's packets. -/
structure UtpContext where
  currentMs : UInt64
  lastUtpSocket : Option UTPSocketKey
  rstInfo : List RstInfo
  utpSockets : UtpHash UTPSocketKey Conn
  lastCheck : UInt64
  resets : List (PackedSockAddr × List UInt8)
  fault : Bool

namespace UtpContext

/-- A new context. The constructor leaves `last_check` as it was. -/
def init (hashCompute : UTPSocketKey → UInt32) (lastCheck : UInt64) : UtpContext :=
  { currentMs := 0
    lastUtpSocket := none
    rstInfo := []
    utpSockets := .create 79 15 hashCompute
    lastCheck
    resets := []
    fault := false }

/-! ### One socket -/

/-- The socket of `key` does something. It shares `current_ms` with the others. -/
def on (ctx : UtpContext) (key : UTPSocketKey) (f : Conn → Conn) : UtpContext :=
  match ctx.utpSockets.lookup key with
  | none => ctx
  | some c =>
    let c := f { c with currentMs := ctx.currentMs }
    { ctx with currentMs := c.currentMs, utpSockets := ctx.utpSockets.setValue key c }

/-- A socket comes into the table. -/
def add (ctx : UtpContext) (key : UTPSocketKey) (c : Conn) : UtpContext :=
  match ctx.utpSockets.add key c with
  | none => { ctx with fault := true }
  | some utpSockets => { ctx with currentMs := c.currentMs, utpSockets }

/-- `utp_connect`, with the numbers that are drawn until one is not in use. -/
def connect (ctx : UtpContext) (env : Env) (addr : PackedSockAddr) (draws : List UInt32)
    (seqNr : UInt16) : UtpContext :=
  -- `conn_seed &= 0xffff`
  let seeds := draws.map UInt32.toUInt16
  match seeds.find? fun seed => (ctx.utpSockets.lookup ⟨addr, seed.toUInt32⟩).isNone with
  | none => ctx
  | some seed => ctx.add ⟨addr, seed.toUInt32⟩ (.utpConnect env seed seqNr)

/-! ### Packets -/

/-- The lookup of the socket of a packet. It is remembered. -/
def findSlow (ctx : UtpContext) (addr : PackedSockAddr) (id : UInt32) :
    UtpContext × Option UTPSocketKey :=
  match ctx.utpSockets.lookup ⟨addr, id⟩ with
  | none => (ctx, none)
  | some _ => ({ ctx with lastUtpSocket := some ⟨addr, id⟩ }, some ⟨addr, id⟩)

/-- The socket of a packet that is not a `ST_SYN`: the last one that was found, or by a lookup. -/
def find (ctx : UtpContext) (addr : PackedSockAddr) (id : UInt32) :
    UtpContext × Option UTPSocketKey :=
  match ctx.lastUtpSocket with
  | none => ctx.findSlow addr id
  | some last =>
    match ctx.utpSockets.lookup last with
    | none => { ctx with fault := true }.findSlow addr id
    | some c =>
      if last.addr = addr ∧ c.connIdRecv = id then (ctx, some last) else ctx.findSlow addr id

/-- The id of the packet is the send id of this socket. -/
def sendsTo (ctx : UtpContext) (key : UTPSocketKey) (id : UInt32) : Bool :=
  match ctx.utpSockets.lookup key with
  | none => false
  | some c => c.connIdSend = id

/-- The socket of a `ST_RESET`, which has the receive id of the socket or its send id. -/
def findReset (ctx : UtpContext) (addr : PackedSockAddr) (id : UInt32) : Option UTPSocketKey :=
  if (ctx.utpSockets.lookup ⟨addr, id⟩).isSome then some ⟨addr, id⟩
  else if ctx.sendsTo ⟨addr, id + 1⟩ id then some ⟨addr, id + 1⟩
  else if ctx.sendsTo ⟨addr, id - 1⟩ id then some ⟨addr, id - 1⟩
  else none

/-- `UTPSocket::send_rst`. -/
def rstPacket (id : UInt32) (ackNr seqNr : UInt16) : List UInt8 :=
  ({ PacketFormatV1.ofType .reset with
    connid := id.toUInt16, ackNr, seqNr : PacketFormatV1 }).encode

/-- A packet that belongs to nobody is answered with a `ST_RESET`, once. -/
def rejectUnknown (ctx : UtpContext) (addr : PackedSockAddr) (id : UInt32) (seqNr : UInt16)
    (now : UInt64) (rand : UInt16) : UtpContext :=
  let ctx := { ctx with currentMs := now }
  match ctx.rstInfo.findIdx? fun r => r.isFor addr id seqNr with
  | some i =>
    { ctx with rstInfo := ctx.rstInfo.modify i fun r => { r with timestamp := now } }
  | none =>
    if rstInfoLimit < ctx.rstInfo.length then ctx
    else
      { ctx with
        rstInfo := ctx.rstInfo ++ [{ addr, connid := id, ackNr := seqNr, timestamp := now }]
        resets := ctx.resets ++ [(addr, rstPacket id seqNr rand)] }

/-- A packet that is neither a `ST_RESET` nor a `ST_SYN`. -/
def processOther (ctx : UtpContext) (env : Env) (addr : PackedSockAddr) (packet : List UInt8)
    (beyond : UInt8) (id : UInt32) (seqNr : UInt16) (now : UInt64) (rand : UInt16) : UtpContext :=
  match ctx.find addr id with
  | (ctx, none) => ctx.rejectUnknown addr id seqNr now rand
  | (ctx, some key) => ctx.on key fun c => c.utpProcessUdp env packet beyond

/-- A `ST_SYN`. -/
def processSyn (ctx : UtpContext) (env : Env) (addr : PackedSockAddr) (packet : List UInt8)
    (beyond : UInt8) (id : UInt32) (rand : UInt16) : UtpContext :=
  -- The connection is there already.
  if (ctx.utpSockets.lookup ⟨addr, id + 1⟩).isSome then ctx
  else if acceptLimit < ctx.utpSockets.count then ctx
  else
    match Conn.accept env packet beyond rand with
    | none => ctx
    | some c => ctx.add ⟨addr, id + 1⟩ c

/-- `utp_process_udp`. -/
def processUdp (ctx : UtpContext) (env : Env) (addr : PackedSockAddr) (packet : List UInt8)
    (beyond : UInt8) (now : UInt64) (rand : UInt16) : UtpContext :=
  match PacketFormatV1.decode packet with
  | none => ctx
  | some (pf, _) =>
    if pf.utpVersion ≠ 1 then ctx
    else
      match PacketType.ofCode pf.type with
      | some .reset =>
        match ctx.findReset addr pf.connid.toUInt32 with
        | none => ctx
        | some key => ctx.on key fun c => c.utpProcessUdp env packet beyond
      | some .syn => ctx.processSyn env addr packet beyond pf.connid.toUInt32 rand
      | _ => ctx.processOther env addr packet beyond pf.connid.toUInt32 pf.seqNr now rand

/-! ### Timers -/

/-- `Array::MoveUpLast`. -/
def moveUpLast {α : Type} (l : List α) (i : Nat) : List α :=
  match l.getLast? with
  | none => l
  | some x => (l.set i x).dropLast

/-- The loop of `utp_check_timeouts` over `rst_info`. -/
def expireRst (now : UInt64) : Nat → Nat → List RstInfo → List RstInfo
  | 0, _, l => l
  | n + 1, i, l =>
    match l[i]? with
    | none => l
    | some r =>
      if rstInfoTimeout ≤ Conn.elapsed now r.timestamp then expireRst now n i (moveUpLast l i)
      else expireRst now n (i + 1) l

/-- `delete conn`. -/
def destroy (ctx : UtpContext) (key : UTPSocketKey) (c : Conn) : UtpContext :=
  let r := ctx.utpSockets.del ⟨key.addr, c.connIdRecv⟩
  { ctx with
    lastUtpSocket := if ctx.lastUtpSocket = some key then none else ctx.lastUtpSocket
    utpSockets := r.1
    fault := ctx.fault || !r.2 }

/-- The body of the loop of `utp_check_timeouts` over the sockets. -/
def checkSocket (ctx : UtpContext) (env : Env) (key : UTPSocketKey) (c : Conn) : UtpContext :=
  let c := ({ c with currentMs := ctx.currentMs }).checkTimeouts env
  let ctx := { ctx with
    currentMs := c.currentMs
    utpSockets := ctx.utpSockets.setValue key c }
  if c.state = .destroy then ctx.destroy key c else ctx

/-- The loop of `utp_check_timeouts` over the sockets. -/
def checkLoop (env : UTPSocketKey → Env) : Nat → UtpHashIterator → UtpContext → UtpContext
  | 0, _, ctx => ctx
  | n + 1, it, ctx =>
    match ctx.utpSockets.iterate it with
    | none => ctx
    | some (i, it) =>
      match ctx.utpSockets.entry i with
      | none => { ctx with fault := true }
      | some (key, c) => checkLoop env n it (ctx.checkSocket (env key) key c)

/-- `utp_check_timeouts`. -/
def checkTimeouts (ctx : UtpContext) (env : UTPSocketKey → Env) (now : UInt64) : UtpContext :=
  let ctx := { ctx with currentMs := now }
  if now - ctx.lastCheck < timeoutCheckInterval then ctx
  else
    let ctx := { ctx with
      lastCheck := now
      rstInfo := expireRst now (ctx.rstInfo.length + 1) 0 ctx.rstInfo }
    checkLoop env (ctx.utpSockets.count + 1) .init ctx

/-! ### Runs -/

end UtpContext

/-- What can happen to a context. -/
inductive ContextEvent
  | connect (env : Env) (addr : PackedSockAddr) (draws : List UInt32) (seqNr : UInt16)
  | udp (env : Env) (addr : PackedSockAddr) (packet : List UInt8) (beyond : UInt8) (now : UInt64)
    (rand : UInt16)
  | call (env : Env) (key : UTPSocketKey) (a : Call)
  | deferredAck (env : Env) (key : UTPSocketKey)
  | checkTimeouts (env : UTPSocketKey → Env) (now : UInt64)

/-- A connection that the upper layer asks for. -/
def ContextEvent.isConnect : ContextEvent → Bool
  | .connect .. => true
  | _ => false

/-- A round of `utp_check_timeouts`. -/
def ContextEvent.isCheck : ContextEvent → Bool
  | .checkTimeouts .. => true
  | _ => false

namespace UtpContext

/-- One event. -/
def step (ctx : UtpContext) : ContextEvent → UtpContext
  | .connect env addr draws seqNr => ctx.connect env addr draws seqNr
  | .udp env addr packet beyond now rand => ctx.processUdp env addr packet beyond now rand
  | .call env key a => ctx.on key fun c => c.call env a
  | .deferredAck env key => ctx.on key fun c => c.issueDeferredAck env
  | .checkTimeouts env now => ctx.checkTimeouts env now

/-- The events one after the other. -/
def run (ctx : UtpContext) (events : List ContextEvent) : UtpContext := events.foldl step ctx

end UtpContext

end EChannel.LibUtp
