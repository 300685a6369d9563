import EChannel.LibUtp.CircularBuffer
import EChannel.LibUtp.DelayHist
import EChannel.LibUtp.PacketFormat
import EChannel.LibUtp.Socket

/-!
# `EChannel.LibUtp.Conn`: a uTP socket from the inside

`Socket.lean` has the socket as its callers see it. Here is `UTPSocket` of `utp_internal.cpp`
itself, with its windows, buffers and timers, under the name `conn` that the C functions give
it, and the functions that send: `send_packet`, `flush_packets`, `write_outgoing_packet`,
`utp_writev`, `utp_close` and `check_timeouts`. What an incoming packet does is in
`Incoming.lean`.

* Clocks, and what the upper layer does inside a callback, are inputs: an `Env` has the reading
  of the clock for each time it is read, and the calls made in each callback.
* `effects` records what leaves the socket, datagrams and callbacks, in order, and the bytes that
  writes took. `queued` counts the packets that got a sequence number. No branch reads them.
* `fault` is set when an `assert` fails or a null pointer is used. The run goes on, as in a
  release build. Two groups of assertions are about what is not in the hands of the socket, and
  have a mark of their own: `misused` is for those on the calls of the upper layer (`utp_close`
  and `utp_read_drained`, which then only set the mark), `Delays.fault` and `Congestion.fault`
  are for those on the delays that the peer reports and on what `apply_ccontrol` makes of them.
  Assertions that the branch in front of them or a type gives (the length of an MTU probe, the
  type of a packet that is written, a payload that is not negative) have no mark.
* `apply_ccontrol` computes with `double`. Its two window sizes are inputs (`Ledbat`); what it
  does with them is modelled.
* `current_ms` belongs to the context, which all sockets share. Each entry point that uses it
  reads the clock first, so it is kept with the socket.
* The callbacks that `UtpHandle` does not set are left out: the receive window is then
  `opt_rcvbuf`, and no statistics are called.
-/

set_option autoImplicit false

namespace EChannel.LibUtp

/-! ### Constants -/

/-- `REORDER_BUFFER_MAX_SIZE`. -/
def reorderBufferMaxSize : Nat := 1024

/-- `OUTGOING_BUFFER_MAX_SIZE`. -/
def outgoingBufferMaxSize : Nat := 1024

/-- `PACKET_SIZE`. -/
def packetSizeMax : Nat := 1435

/-- `MIN_WINDOW_SIZE`. -/
def minWindowSize : Nat := 10

/-- `MAX_WINDOW_DECAY`, in milliseconds. -/
def maxWindowDecay : Int := 100

/-- `DUPLICATE_ACKS_BEFORE_RESEND`. -/
def duplicateAcksBeforeResend : Nat := 3

/-- `KEEPALIVE_INTERVAL`. -/
def keepaliveInterval : Int := 29000

/-- `UDP_IPV4_MTU`: every address of `UtpHandle` is an `AF_INET` one. -/
def udpIpv4Mtu : Nat := 1402

/-- `mtu_floor` in `mtu_reset`. -/
def mtuFloorMin : Nat := 576

/-! ### The socket -/

/-- `OutgoingPacket`: `header` and `body` are its `data`. -/
structure OutgoingPacket where
  header : PacketFormatV1
  body : List UInt8
  timeSent : UInt64
  transmissions : Nat
  needResend : Bool
  deriving DecidableEq, Repr

/-- The field `payload`. -/
def OutgoingPacket.payload (pkt : OutgoingPacket) : Nat := pkt.body.length

/-- The field `length`. -/
def OutgoingPacket.length (pkt : OutgoingPacket) : Nat :=
  PacketFormatV1.headerSize + pkt.payload

/-- The `UTP_STATE_*` of the state callback. -/
inductive UtpState
  | connect
  | writable
  | eof
  deriving DecidableEq, Repr

/-- The `UTP_E*` of the error callback. -/
inductive UtpError
  | connRefused
  | connReset
  | timedOut
  deriving DecidableEq, Repr

/-- What leaves a socket. `took` notes the bytes that one round of `write_outgoing_packet` put
into a packet. -/
inductive Effect
  | sendto (datagram : List UInt8) (dontFrag : Bool)
  | onRead (bytes : List UInt8)
  | onAccept
  | onStateChange (s : UtpState)
  | onError (e : UtpError)
  | took (bytes : List UInt8)
  deriving DecidableEq, Repr

/-- What the upper layer can do with a socket inside a callback. -/
inductive Call
  | write (bytes : List UInt8)
  | close
  | readDrained
  deriving DecidableEq, Repr

/-- The MTU discovery. -/
structure MtuSearch where
  mtuDiscoverTime : UInt64
  mtuCeiling : Nat
  mtuFloor : Nat
  mtuLast : Nat
  mtuProbeSeq : UInt16
  mtuProbeSize : Nat
  deriving DecidableEq, Repr

/-- The congestion window. -/
structure Congestion where
  maxWindow : Nat
  maxWindowUser : Nat
  optSndbuf : Nat
  targetDelay : Nat
  lastRwinDecay : Int
  lastMaxedOutWindow : UInt64
  zerowindowTime : UInt64
  slowStart : Bool
  ssthresh : Nat
  fault : Bool
  deriving DecidableEq, Repr

/-- The round trip time and the timer that hangs on it. -/
structure RoundTrip where
  rtt : Nat
  rttVar : Nat
  rto : Nat
  rttHist : DelayHist
  retransmitTimeout : Nat
  rtoTimeout : UInt64
  retransmitCount : Nat
  deriving DecidableEq

/-- What decides about resending a packet before its timeout. -/
structure Resending where
  duplicateAck : UInt8
  fastTimeout : Bool
  timeoutSeqNr : UInt16
  fastResendSeqNr : UInt16
  deriving DecidableEq, Repr

/-- The measured delays. -/
structure Delays where
  replyMicro : UInt32
  lastMeasuredDelay : UInt64
  ourHist : DelayHist
  theirHist : DelayHist
  averageDelay : Int
  currentDelaySum : Int
  currentDelaySamples : Nat
  averageDelayBase : UInt32
  averageSampleTime : UInt64
  clockDrift : Int
  clockDriftRaw : Int
  fault : Bool
  deriving DecidableEq

/-- A socket begins without a sample. -/
def Delays.new (now : UInt64) : Delays :=
  { replyMicro := 0, lastMeasuredDelay := now + 0x70000000, ourHist := .clear now,
    theirHist := .clear now, averageDelay := 0, currentDelaySum := 0, currentDelaySamples := 0,
    averageDelayBase := 0, averageSampleTime := now + 5000, clockDrift := 0,
    clockDriftRaw := 0, fault := false }

/-- `UTPSocket`. `ackPending` says that the socket is in `ack_sockets` (`ida` is not -1), and
`closes` counts the calls of `utp_close`. -/
structure Conn where
  state : ConnState
  connIdRecv : UInt32
  connIdSend : UInt32
  seqNr : UInt16
  curWindowPackets : Nat
  curWindow : Nat
  outbuf : SizableCircularBuffer OutgoingPacket
  ackNr : UInt16
  inbuf : SizableCircularBuffer (List UInt8)
  reorderCount : Nat
  gotFin : Bool
  eofPkt : UInt16
  mtu : MtuSearch
  cong : Congestion
  rtt : RoundTrip
  resend : Resending
  delays : Delays
  lastGotPacket : UInt64
  lastSentPacket : UInt64
  optRcvbuf : Nat
  lastRcvWin : Nat
  extensions : List UInt8
  ackPending : Bool
  currentMs : UInt64
  ticks : Nat
  callbacks : Nat
  queued : Nat
  closes : Nat
  effects : List Effect
  fault : Bool
  misused : Bool

/-- What `apply_ccontrol` computes its two window sizes from. -/
structure LedbatInput where
  ourDelay : UInt32
  clockDrift : Int
  targetDelay : Nat
  bytesAcked : Nat
  maxWindow : Nat
  packetSize : Nat
  sinceMaxedOut : UInt64
  deriving DecidableEq, Repr

/-- `ledbat_cwnd`, `ss_cwnd`, and whether the delay is above 0.9 of the target. -/
structure Ledbat where
  ledbatCwnd : Nat
  ssCwnd : Nat
  delayed : Bool
  deriving DecidableEq, Repr

/-- The surroundings of a socket: what the clock says when it is read for the n-th time, what
the upper layer calls inside the n-th callback, and the arithmetic of the congestion control. -/
structure Env where
  millis : Nat → UInt64
  micros : Nat → UInt64
  reply : Nat → List Call
  ledbat : LedbatInput → Ledbat
  micros_lt : ∀ n, (micros n).toNat < 2 ^ 63

/-- The bytes of a read callback. -/
def Effect.readBytes : Effect → List UInt8
  | .onRead bytes => bytes
  | _ => []

/-- The bytes that a write took. -/
def Effect.tookBytes : Effect → List UInt8
  | .took bytes => bytes
  | _ => []

/-- The datagram that was sent. -/
def Effect.datagrams : Effect → List (List UInt8)
  | .sendto d _ => [d]
  | _ => []

namespace Conn

/-- All bytes that the upper layer was given. -/
def reads (c : Conn) : List UInt8 := c.effects.flatMap Effect.readBytes

/-- All bytes that writes took. -/
def taken (c : Conn) : List UInt8 := c.effects.flatMap Effect.tookBytes

/-- All datagrams sent. -/
def datagrams (c : Conn) : List (List UInt8) := c.effects.flatMap Effect.datagrams

/-! ### Small steps -/

/-- `assert`. -/
def assert (c : Conn) (p : Prop) [Decidable p] : Conn :=
  { c with fault := c.fault || !decide p }

/-- Record what leaves the socket. -/
def emit (c : Conn) (e : Effect) : Conn := { c with effects := c.effects ++ [e] }

/-- The clock was read. -/
def tick (c : Conn) : Conn := { c with ticks := c.ticks + 1 }

/-- A number as an `int32`. -/
def int32 (n : Int) : Int := n.bmod (2 ^ 32)

/-- A number as a `uint`. -/
def uint (n : Nat) : Nat := n % 2 ^ 32

/-- `(int)(now - since)` of two times. -/
def elapsed (now since : UInt64) : Int := int32 (now - since).toNat

/-- `ctx->current_ms = utp_call_get_milliseconds(..)`. -/
def readClock (c : Conn) (env : Env) : Conn := { c.tick with currentMs := env.millis c.ticks }

/-- The index of the oldest packet in the send queue. -/
def oldest (c : Conn) : Int := (c.seqNr.toNat : Int) - c.curWindowPackets

/-- `UTPSocket::get_rcv_window`, without a `UTP_GET_READ_BUFFER_SIZE` callback. -/
def getRcvWindow (c : Conn) : Nat := c.optRcvbuf

/-- `UTPSocket::get_packet_size`. -/
def getPacketSize (c : Conn) : Nat :=
  (if c.mtu.mtuLast ≠ 0 then c.mtu.mtuLast else c.mtu.mtuCeiling) - PacketFormatV1.headerSize

/-- `UTPSocket::schedule_ack`. -/
def scheduleAck (c : Conn) : Conn := { c with ackPending := true }

/-- `UTPSocket::maybe_decay_win`. -/
def maybeDecayWin (c : Conn) : Conn :=
  if (c.currentMs.toNat : Int) - c.cong.lastRwinDecay ≥ maxWindowDecay then
    let maxWindow := max (c.cong.maxWindow / 2) minWindowSize
    { c with cong :=
        { c.cong with
          maxWindow := maxWindow
          lastRwinDecay := c.currentMs.toNat
          slowStart := false
          ssthresh := maxWindow } }
  else c

/-! ### MTU discovery -/

/-- `UTPSocket::mtu_search_update`. -/
def mtuSearchUpdate (c : Conn) (env : Env) : Conn :=
  let c := c.assert (c.mtu.mtuFloor ≤ c.mtu.mtuCeiling)
  let m : MtuSearch := { c.mtu with
    mtuLast := (c.mtu.mtuFloor + c.mtu.mtuCeiling) / 2
    mtuProbeSeq := 0
    mtuProbeSize := 0 }
  -- The search is over when the two are close enough.
  if m.mtuCeiling - m.mtuFloor ≤ 16 then
    { c.tick with mtu :=
        { m with
          mtuLast := m.mtuFloor
          mtuCeiling := m.mtuFloor
          mtuDiscoverTime := env.millis c.ticks + 30 * 60 * 1000 } }
  else { c with mtu := m }

/-- `UTPSocket::mtu_reset`. -/
def mtuReset (c : Conn) (env : Env) : Conn :=
  let c := { c with mtu := { c.mtu with mtuCeiling := udpIpv4Mtu, mtuFloor := mtuFloorMin } }
  let c := c.assert (c.mtu.mtuFloor ≤ c.mtu.mtuCeiling)
  { c.tick with mtu := { c.mtu with mtuDiscoverTime := env.millis c.ticks + 30 * 60 * 1000 } }

/-- `mtu_ceiling = mtu_probe_size - 1`, and the next round of the search. -/
def mtuProbeFailed (c : Conn) (env : Env) : Conn :=
  ({ c with mtu := { c.mtu with mtuCeiling := c.mtu.mtuProbeSize - 1 } }).mtuSearchUpdate env

/-- The state of the search without a probe. -/
def mtuProbeClear (c : Conn) : Conn :=
  { c with mtu := { c.mtu with mtuProbeSeq := 0, mtuProbeSize := 0 } }

/-! ### Sending -/

/-- `UTPSocket::send_data`: stamp the header, send it with what stands behind it, and leave the
list of sockets that owe an acknowledgment. Every send stamps anew, so the stamps are not kept
with a packet of the send queue. -/
def sendData (c : Conn) (env : Env) (pf : PacketFormatV1) (rest : List UInt8) (dontFrag : Bool) :
    Conn :=
  let pf := { pf with
    tvUsec := (env.micros c.ticks).toUInt32
    replyMicro := c.delays.replyMicro }
  ({ c.tick with lastSentPacket := c.currentMs, ackPending := false }).emit
    (.sendto (pf.encode ++ rest) dontFrag)

/-- The bit mask of the segments received, of the `window` indices behind `ack_nr + 1`. -/
def eackMask (c : Conn) (window : Nat) : Nat :=
  (List.range window).foldl
    (fun m (i : Nat) =>
      if (c.inbuf.get ((c.ackNr.toNat : Int) + i + 2)).isSome then m ||| 2 ^ i else m) 0

/-- The states below `CS_GOT_FIN`. -/
def beforeFin (c : Conn) : Bool :=
  match c.state with
  | .uninitialized | .idle | .synSent | .synRecv | .connected | .connectedFull => true
  | _ => false

/-- `UTPSocket::send_ack`. -/
def sendAck (c : Conn) (env : Env) (synack : Bool) : Conn :=
  let c := { c with lastRcvWin := c.getRcvWindow }
  let pf := { PacketFormatV1.ofType .state with
    connid := c.connIdSend.toUInt16
    ackNr := c.ackNr
    seqNr := c.seqNr
    windowsize := UInt32.ofNat c.lastRcvWin }
  if c.reorderCount ≠ 0 ∧ c.beforeFin = true then
    let c := c.assert (synack = false)
    -- The reorder count should only be non-zero if `ack_nr + 1` is missing.
    let c := c.assert (c.inbuf.get ((c.ackNr.toNat : Int) + 1) = none)
    c.sendData env { pf with ext := 1 } (ackExtension (c.eackMask (min (14 + 16) c.inbuf.size)))
      false
  else c.sendData env pf [] false

/-- `UTPSocket::send_keep_alive`. -/
def sendKeepAlive (c : Conn) (env : Env) : Conn :=
  let c := ({ c with ackNr := c.ackNr - 1 }).sendAck env false
  { c with ackNr := c.ackNr + 1 }

/-- Use the packet as an MTU probe when it is of a size that is to be tried. -/
def mtuProbe (c : Conn) (pkt : OutgoingPacket) : Conn × Bool :=
  if c.mtu.mtuFloor < c.mtu.mtuCeiling ∧ c.mtu.mtuFloor < pkt.length ∧
      pkt.length ≤ c.mtu.mtuCeiling ∧ c.mtu.mtuProbeSeq = 0 ∧ c.seqNr ≠ 1 ∧
      pkt.transmissions = 0 then
    ({ c with mtu :=
        { c.mtu with mtuProbeSeq := c.seqNr - 1, mtuProbeSize := pkt.length } }, true)
  else (c, false)

/-- `UTPSocket::send_packet`, for the packet at the index `i` of `outbuf`. -/
def sendPacket (c : Conn) (env : Env) (i : Int) (pkt : OutgoingPacket) : Conn :=
  let curTime := env.millis c.ticks
  let c := c.tick
  let c :=
    if pkt.transmissions = 0 ∨ pkt.needResend = true then
      { c with curWindow := c.curWindow + pkt.payload }
    else c
  let timeSent := env.micros c.ticks
  let c := c.tick
  let c := if c.mtu.mtuDiscoverTime < curTime then c.mtuReset env else c
  let probe := c.mtuProbe pkt
  let pkt := { pkt with
    header := { pkt.header with ackNr := c.ackNr }
    timeSent := timeSent
    transmissions := pkt.transmissions + 1
    needResend := false }
  ({ probe.1 with outbuf := c.outbuf.put i (some pkt) }).sendData env pkt.header pkt.body probe.2

/-- `UTPSocket::is_full`; no `bytes` stands for -1. -/
def isFull (c : Conn) (bytes : Option Nat) : Bool × Conn :=
  let packetSize := c.getPacketSize
  let bytes := min (bytes.getD packetSize) packetSize
  let maxSend := min (min c.cong.maxWindow c.cong.optSndbuf) c.cong.maxWindowUser
  -- One place is kept for the FIN packet.
  if outgoingBufferMaxSize - 1 ≤ c.curWindowPackets ∨ maxSend < c.curWindow + bytes then
    (true, { c with cong := { c.cong with lastMaxedOutWindow := c.currentMs } })
  else (false, c)

/-- The loop of `flush_packets`, with `i` at the next of `n` packets. -/
def flushLoop (env : Env) (packetSize : Nat) : Nat → UInt16 → Conn → Conn
  | 0, _, c => c
  | n + 1, i, c =>
    match c.outbuf.get i.toNat with
    | none => flushLoop env packetSize n (i + 1) c
    | some pkt =>
      if pkt.transmissions > 0 ∧ pkt.needResend = false then
        flushLoop env packetSize n (i + 1) c
      else
        let full := c.isFull none
        if full.1 then full.2
        else
          -- Nagle: the last packet waits while it is small and others are in flight.
          let c := full.2
          if i ≠ c.seqNr - 1 ∨ c.curWindowPackets = 1 ∨ packetSize ≤ pkt.payload then
            flushLoop env packetSize n (i + 1) (c.sendPacket env i.toNat pkt)
          else flushLoop env packetSize n (i + 1) c

/-- `UTPSocket::flush_packets`. -/
def flushPackets (c : Conn) (env : Env) : Conn :=
  flushLoop env c.getPacketSize c.curWindowPackets (c.seqNr - UInt16.ofNat c.curWindowPackets) c

/-! ### Writing -/

/-- The packet at the end of the send queue when it can take more data: it was not sent, and it
is not full. -/
def lastUnsent (c : Conn) (data : List UInt8) (packetSize : Nat) : Option OutgoingPacket :=
  if 0 < c.curWindowPackets then
    match c.outbuf.get ((c.seqNr.toNat : Int) - 1) with
    | none => none
    | some pkt =>
      if data ≠ [] ∧ pkt.transmissions = 0 ∧ pkt.payload < packetSize then some pkt else none
  else none

/-- The header fields that `write_outgoing_packet` fills in every round. -/
def fillHeader (c : Conn) (flags : PacketType) (pf : PacketFormatV1) : PacketFormatV1 :=
  { (pf.setVersion 1).setType flags.code with
    ext := 0
    connid := c.connIdSend.toUInt16
    windowsize := UInt32.ofNat c.lastRcvWin
    ackNr := c.ackNr }

/-- Put a new packet at the end of the send queue. -/
def appendPacket (c : Conn) (pkt : OutgoingPacket) : Conn :=
  let buf := SizableCircularBuffer.ensureSize c.outbuf c.seqNr.toNat c.curWindowPackets
  { c with
    outbuf := buf.put c.seqNr.toNat
      (some { pkt with header := { pkt.header with seqNr := c.seqNr } })
    seqNr := c.seqNr + 1
    curWindowPackets := c.curWindowPackets + 1
    queued := c.queued + 1 }

/-- One round of `write_outgoing_packet`: the data goes into the last packet or into a new one,
and what did not fit is left. -/
def writeRound (c : Conn) (flags : PacketType) (packetSize : Nat) (data : List UInt8) :
    Conn × List UInt8 :=
  let c := c.assert (c.curWindowPackets < outgoingBufferMaxSize)
  match c.lastUnsent data packetSize with
  | some pkt =>
    let added := min (data.length + pkt.payload) (max packetSize pkt.payload) - pkt.payload
    let c := c.assert (pkt.needResend = false)
    let c := c.assert (flags = .data)
    let c := { c with lastRcvWin := c.getRcvWindow }
    let pkt := { pkt with
      header := c.fillHeader flags pkt.header
      body := pkt.body ++ data.take added }
    (({ c with outbuf := c.outbuf.put ((c.seqNr.toNat : Int) - 1) (some pkt) }).emit
      (.took (data.take added)), data.drop added)
  | none =>
    let c := c.assert (data = [] ∨ flags = .data)
    let c := { c with lastRcvWin := c.getRcvWindow }
    ((c.appendPacket
      { header := c.fillHeader flags .zero, body := data, timeSent := 0, transmissions := 0,
        needResend := false }).emit (.took data), [])

/-- The rounds of `write_outgoing_packet`. Each takes at least one byte of the rest. -/
def writeRounds (flags : PacketType) (packetSize : Nat) : Nat → Conn → List UInt8 → Conn
  | 0, c, _ => c
  | n + 1, c, data =>
    let r := c.writeRound flags packetSize data
    if r.2 = [] then r.1 else writeRounds flags packetSize n r.1 r.2

/-- `UTPSocket::write_outgoing_packet`. -/
def writeOutgoingPacket (c : Conn) (env : Env) (flags : PacketType) (data : List UInt8) : Conn :=
  let c :=
    if c.curWindowPackets = 0 then
      -- Set up the initial timeout timer.
      ({ c with rtt :=
          { c.rtt with
            retransmitTimeout := c.rtt.rto
            rtoTimeout := c.currentMs + UInt64.ofNat c.rtt.rto } }).assert (c.curWindow = 0)
    else c
  (writeRounds flags c.getPacketSize (data.length + 1) c data).flushPackets env

/-- The loop of `utp_writev`: `bytes` is what is left, `sent` what was taken. The last component
says whether the loop ended because nothing is left. -/
def writeLoop (env : Env) (packetSize : Nat) :
    Nat → Conn → List UInt8 → Nat → Conn × Nat × Bool
  | 0, c, _, sent => (c, sent, false)
  | n + 1, c, bytes, sent =>
    let num := min bytes.length packetSize
    let full := c.isFull (some num)
    if full.1 then (full.2, sent, false)
    else
      let c := full.2.writeOutgoingPacket env .data (bytes.take num)
      if min (bytes.drop num).length packetSize = 0 then (c, sent + num, true)
      else writeLoop env packetSize n c (bytes.drop num) (sent + num)

/-- `utp_writev` with one buffer, as `utp_write` calls it, and the number of bytes that it
returns. -/
def utpWrite (c : Conn) (env : Env) (bytes : List UInt8) : Conn × Nat :=
  if c.state ≠ .connected then (c, 0)
  else
    let c := c.readClock env
    let r := writeLoop env c.getPacketSize (bytes.length + 1) c bytes 0
    if r.2.2 then (r.1, r.2.1)
    else
      let full := r.1.isFull none
      (if full.1 then { full.2 with state := .connectedFull } else full.2, r.2.1)

/-- `utp_read_drained`. -/
def utpReadDrained (c : Conn) (env : Env) : Conn :=
  if c.state = .uninitialized then { c with misused := true }
  else if c.lastRcvWin < c.getRcvWindow then
    -- A window of 0 is reported at once.
    if c.lastRcvWin = 0 then c.sendAck env false else (c.readClock env).scheduleAck
  else c

/-- `utp_close`. It begins with the assertion that the socket is `closable`. -/
def utpClose (c : Conn) (env : Env) : Conn :=
  let c := { c with closes := c.closes + 1 }
  if c.state.closable = false then { c with misused := true }
  else
    match c.state with
    | .connected | .connectedFull =>
      ({ c with state := .finSent }).writeOutgoingPacket env .fin []
    | .synSent =>
      { c.tick with
        rtt := { c.rtt with
          rtoTimeout := env.millis c.ticks + UInt64.ofNat (min (uint (c.rtt.rto * 2)) 60) }
        state := .destroyDelay }
    | .gotFin => { c with state := .destroyDelay }
    | _ => { c with state := .destroy }

/-- One call of the upper layer. -/
def call (c : Conn) (env : Env) : Call → Conn
  | .write bytes => (c.utpWrite env bytes).1
  | .close => c.utpClose env
  | .readDrained => c.utpReadDrained env

/-- A callback, with the calls that the upper layer makes inside it. None of these calls makes
another callback. -/
def callback (c : Conn) (env : Env) (e : Effect) : Conn :=
  (env.reply c.callbacks).foldl (fun c a => c.call env a)
    ({ c.emit e with callbacks := c.callbacks + 1 })

/-! ### Timeouts -/

/-- "Every packet should be considered lost": the packets of the send queue from the newest on,
with `n` to go. -/
def loseLoop : Nat → Int → Conn → Conn
  | 0, _, c => c
  | n + 1, i, c =>
    match c.outbuf.get i with
    | none => loseLoop n (i - 1) c
    | some pkt =>
      if pkt.transmissions = 0 ∨ pkt.needResend = true then loseLoop n (i - 1) c
      else
        let c := c.assert (pkt.payload ≤ c.curWindow)
        loseLoop n (i - 1)
          { c with
            outbuf := c.outbuf.put i (some { pkt with needResend := true })
            curWindow := c.curWindow - pkt.payload }

/-- The probe was the only packet outstanding. -/
def probeTimedOut (c : Conn) : Bool :=
  c.curWindowPackets = 1 ∧ c.seqNr - 1 = c.mtu.mtuProbeSeq ∧ c.mtu.mtuProbeSeq ≠ 0

/-- The congestion window after a timeout. -/
def shrinkWindow (c : Conn) : Conn :=
  if c.curWindowPackets = 0 ∧ c.getPacketSize < c.cong.maxWindow then
    { c with
      resend := { c.resend with duplicateAck := 0 }
      cong := { c.cong with maxWindow := max (c.cong.maxWindow * 2 / 3) c.getPacketSize } }
  else
    { c with
      resend := { c.resend with duplicateAck := 0 }
      cong := { c.cong with maxWindow := c.getPacketSize, slowStart := true } }

/-- Resend the oldest packet after a timeout. -/
def resendOldest (c : Conn) (env : Env) : Conn :=
  if 0 < c.curWindowPackets then
    let c := { c with
      rtt := { c.rtt with retransmitCount := c.rtt.retransmitCount + 1 }
      resend := { c.resend with fastTimeout := true, timeoutSeqNr := c.seqNr } }
    match c.outbuf.get c.oldest with
    | none => c.assert False
    | some pkt => c.sendPacket env c.oldest pkt
  else c

/-- What the expired timer does: `true` when the connection was given up. -/
def retransmit (c : Conn) (env : Env) : Conn × Bool :=
  let ignoreLoss := c.probeTimedOut
  let c := (if ignoreLoss then c.mtuProbeFailed env else c).mtuProbeClear
  let newTimeout :=
    if ignoreLoss then c.rtt.retransmitTimeout else uint (c.rtt.retransmitTimeout * 2)
  if c.state = .synRecv then
    (({ c with state := .destroy }).callback env (.onError .timedOut), true)
  else if 4 ≤ c.rtt.retransmitCount ∨ c.state = .synSent ∧ 2 ≤ c.rtt.retransmitCount then
    (({ c with state := if c.state = ConnState.finSent then .destroy else .reset }).callback env
      (.onError .timedOut), true)
  else
    let c := { c with rtt :=
      { c.rtt with
        retransmitTimeout := newTimeout
        rtoTimeout := c.currentMs + UInt64.ofNat newTimeout } }
    let c := if ignoreLoss then c else c.shrinkWindow
    let c := loseLoop c.curWindowPackets ((c.seqNr.toNat : Int) - 1) c
    (c.resendOldest env, false)

/-- "Mark the socket as writable" when it was full and is not any more. -/
def markWritable (c : Conn) (env : Env) : Conn :=
  if c.state = .connectedFull then
    let full := c.isFull none
    if full.1 then full.2
    else ({ full.2 with state := .connected }).callback env (.onStateChange .writable)
  else c

/-- The cases of `check_timeouts` for a connection that is open or closing. -/
def checkOpen (c : Conn) (env : Env) : Conn :=
  let c :=
    if 0 ≤ elapsed c.currentMs c.cong.zerowindowTime ∧ c.cong.maxWindowUser = 0 then
      { c with cong := { c.cong with maxWindowUser := packetSizeMax } }
    else c
  let r :=
    if 0 ≤ elapsed c.currentMs c.rtt.rtoTimeout ∧ 0 < c.rtt.rtoTimeout then c.retransmit env
    else (c, false)
  if r.2 then r.1
  else
    let c := r.1.markWritable env
    if (c.state = .connected ∨ c.state = .connectedFull) ∧
        keepaliveInterval ≤ elapsed c.currentMs c.lastSentPacket then
      c.sendKeepAlive env
    else c

/-- `UTPSocket::check_timeouts`, after `utp_check_timeouts` has read the clock. -/
def checkTimeouts (c : Conn) (env : Env) : Conn :=
  let c := c.readClock env
  let c := c.assert (c.curWindowPackets = 0 ∨ c.outbuf.get c.oldest ≠ none)
  let c := if c.state ≠ .destroy then c.flushPackets env else c
  match c.state with
  | .synSent | .synRecv | .connectedFull | .connected | .finSent => c.checkOpen env
  | .gotFin | .destroyDelay =>
    if 0 ≤ elapsed c.currentMs c.rtt.rtoTimeout then
      let c := { c with state := if c.state = .destroyDelay then .destroy else .reset }
      if 0 < c.curWindowPackets then c.callback env (.onError .connReset) else c
    else c
  | _ => c

end Conn

end EChannel.LibUtp
