import EChannel.LibUtp.Conn

/-!
# `EChannel.LibUtp.Incoming`: what a packet does to a socket

`utp_process_incoming` of `utp_internal.cpp`, cut where the function changes its subject: the
duplicate acknowledgments, the bytes that were acknowledged, the delays, the acknowledgment
itself, the selective one, and the payload with the packets that waited for it. The C function
returns the length of the payload, which its caller passes to a statistics callback that is not
set, so the length is left out here.

`utpConnect` and `accept` make the sockets of the two ends, `processReset` is what a `ST_RESET`
does.
-/

set_option autoImplicit false

namespace EChannel.LibUtp

/-- `MAX_EACK`. -/
def maxEack : Nat := 128

/-- `ACK_NR_MASK`, for the comparison of sequence numbers. -/
def ackNrMask : UInt32 := 0xFFFF

/-- A packet after its header and the extension headers were read. `beyond` is the byte behind
the end of the packet in the caller's buffer. -/
structure Segment where
  header : PacketFormatV1
  flags : PacketType
  selack : Option SelAck
  data : List UInt8
  beyond : UInt8
  deriving DecidableEq, Repr

namespace Conn

/-! ### Acknowledged packets -/

/-- The round trip time after a packet that was sent once was acknowledged. -/
def sampleRtt (c : Conn) (env : Env) (pkt : OutgoingPacket) : Conn :=
  let ertt := ((env.micros c.ticks - pkt.timeSent) / 1000).toUInt32
  let c := c.tick
  let r :=
    if c.rtt.rtt = 0 then { c.rtt with rtt := ertt.toNat, rttVar := ertt.toNat / 2 }
    else
      let delta := int32 ((c.rtt.rtt : Int) - ertt.toNat)
      -- `(int)(abs(delta) - rtt_var) / 4`, on machine words.
      let step := int32 ((delta.natAbs : Int) - c.rtt.rttVar)
      { c.rtt with
        rttVar := (((c.rtt.rttVar : Int) + step.tdiv 4) % 2 ^ 32).toNat
        rtt := uint (c.rtt.rtt - c.rtt.rtt / 8 + ertt.toNat / 8)
        rttHist := c.rtt.rttHist.addSample ertt c.currentMs }
  { c with rtt := { r with rto := max (uint (r.rtt + r.rttVar * 4)) 1000 } }

/-- The result of `ack_packet`. -/
inductive AckStatus
  | acked
  | alreadyAcked
  | notSent
  deriving DecidableEq, Repr

/-- `UTPSocket::ack_packet`. -/
def ackPacket (c : Conn) (env : Env) (seq : Int) : AckStatus × Conn :=
  match c.outbuf.get seq with
  | none => (.alreadyAcked, c)
  | some pkt =>
    if pkt.transmissions = 0 then (.notSent, c)
    else
      let c := { c with outbuf := c.outbuf.put seq none }
      let c := if pkt.transmissions = 1 then c.sampleRtt env pkt else c
      let c := { c with rtt :=
        { c.rtt with
          retransmitTimeout := c.rtt.rto
          rtoTimeout := c.currentMs + UInt64.ofNat c.rtt.rto
          retransmitCount := 0 } }
      -- A packet that needs to be resent is not counted in `cur_window`.
      if pkt.needResend then (.acked, c)
      else
        let c := c.assert (pkt.payload ≤ c.curWindow)
        (.acked, { c with curWindow := c.curWindow - pkt.payload })

/-- `min<int64>(min_rtt, ..)` for a packet that was acknowledged now. -/
def lowerRtt (minRtt : Int) (now timeSent : UInt64) : Int :=
  if timeSent < now then min minRtt (((now - timeSent).toNat : Int).bmod (2 ^ 64))
  else min minRtt 50000

/-- `((seq_nr - v - 1) & ACK_NR_MASK) >= (uint16)(cur_window_packets - 1)`, negated: `v` is in
the send queue behind the oldest packet. -/
def inQueue (c : Conn) (v : UInt16) : Bool :=
  (c.seqNr - v - 1).toNat < c.curWindowPackets - 1

/-- One round of `selective_ack_bytes`, for `bits = n - 1`. -/
def selectiveAckBytesAt (c : Conn) (base : UInt16) (sel : SelAck) (beyond : UInt8) (now : UInt64)
    (acc : Nat × Int) (n : Nat) : Nat × Int :=
  let v := base + UInt16.ofNat n - 1
  if c.inQueue v then
    match c.outbuf.get v.toNat with
    | none => acc
    | some pkt =>
      if 0 < pkt.transmissions ∧ 1 ≤ n ∧ sel.bitSet beyond (n - 1) = true then
        (acc.1 + pkt.payload, lowerRtt acc.2 now pkt.timeSent)
      else acc
  else acc

/-- `UTPSocket::selective_ack_bytes`. The loop starts at `len * 8`, one bit behind the mask. -/
def selectiveAckBytes (c : Conn) (env : Env) (base : UInt16) (sel : SelAck) (beyond : UInt8)
    (minRtt : Int) : (Nat × Int) × Conn :=
  if c.curWindowPackets = 0 then ((0, minRtt), c)
  else
    (((List.range (sel.len.toNat * 8 + 2)).reverse.foldl
      (c.selectiveAckBytesAt base sel beyond (env.micros c.ticks)) (0, minRtt)), c.tick)

/-- The variables of the loop in `selective_ack`: `resends` has its top first. -/
structure EackLoop where
  conn : Conn
  count : Nat
  resends : List UInt16

/-- `resends[nr++] = v`, after the lower half was thrown away when the stack was full. -/
def pushResend (resends : List UInt16) (v : UInt16) : List UInt16 :=
  v :: if maxEack - 2 ≤ resends.length then resends.take (resends.length - maxEack / 2)
    else resends

/-- A packet can be resent when it is not before `fast_resend_seq_nr` and enough later ones were
acknowledged. -/
def mayResend (c : Conn) (count : Nat) (v : UInt16) : Bool :=
  (v - c.resend.fastResendSeqNr).toNat ≤ outgoingBufferMaxSize ∧ duplicateAcksBeforeResend ≤ count

/-- One round of `selective_ack`, for `bits = n - 1`. -/
def selectiveAckAt (env : Env) (base : UInt16) (sel : SelAck) (beyond : UInt8)
    (acc : EackLoop) (n : Nat) : EackLoop :=
  let v := base + UInt16.ofNat n - 1
  if acc.conn.inQueue v then
    let bitSet := decide (1 ≤ n) && sel.bitSet beyond (n - 1)
    let count := if bitSet then acc.count + 1 else acc.count
    match acc.conn.outbuf.get v.toNat with
    | none => { acc with count := count }
    | some pkt =>
      if pkt.transmissions = 0 then { acc with count := count }
      else if bitSet then
        -- The selective acknowledgment never meets the oldest packet.
        let c := acc.conn.assert
          (acc.conn.outbuf.slot v.toNat ≠ acc.conn.outbuf.slot acc.conn.oldest)
        { acc with conn := (c.ackPacket env v.toNat).2, count := count }
      else if acc.conn.mayResend count v then
        { acc with count := count, resends := pushResend acc.resends v }
      else { acc with count := count }
  else acc

/-- The loop that resends from the stack, four packets at most; `i` counts them. -/
def resendLoop (env : Env) : List UInt16 → Nat → Conn → Bool → Conn × Bool
  | [], _, c, backOff => (c, backOff)
  | v :: resends, i, c, backOff =>
    match c.outbuf.get v.toNat with
    -- An old packet that was acknowledged already is not in the send queue any more.
    | none => resendLoop env resends i c backOff
    | some pkt =>
      let c := c.sendPacket env v.toNat pkt
      let c := { c with resend := { c.resend with fastResendSeqNr := v + 1 } }
      if 4 ≤ i + 1 then (c, true) else resendLoop env resends (i + 1) c true

/-- `UTPSocket::selective_ack`. -/
def selectiveAck (c : Conn) (env : Env) (base : UInt16) (sel : SelAck) (beyond : UInt8) : Conn :=
  if c.curWindowPackets = 0 then c
  else
    let acc := (List.range (sel.len.toNat * 8 + 1)).reverse.foldl
      (selectiveAckAt env base sel beyond) ⟨c, 0, []⟩
    let resends :=
      if acc.conn.mayResend acc.count (base - 1) then (base - 1) :: acc.resends else acc.resends
    let r := resendLoop env resends 0 acc.conn false
    let c := if r.2 then r.1.maybeDecayWin else r.1
    { c with resend := { c.resend with duplicateAck := UInt8.ofNat acc.count } }

/-! ### Before the acknowledgment -/

/-- The `ack_nr` is not one that the other end could send now. -/
def invalidAck (c : Conn) (pf : PacketFormatV1) (flags : PacketType) : Bool :=
  let currWindow := UInt16.ofNat (c.curWindowPackets + duplicateAcksBeforeResend)
  decide (flags ≠ .syn ∨ c.state ≠ .synRecv) &&
    (wrappingCompareLess (c.seqNr - 1).toUInt32 pf.ackNr.toUInt32 ackNrMask ||
      wrappingCompareLess pf.ackNr.toUInt32 (c.seqNr - 1 - currWindow).toUInt32 ackNrMask)

/-- The number of packets that the `ack_nr` acknowledges, 0 for an old one. -/
def acks (c : Conn) (ackNr : UInt16) : Nat :=
  let n := (ackNr - (c.seqNr - 1 - UInt16.ofNat c.curWindowPackets)).toNat
  if c.curWindowPackets < n then 0 else n

/-- Count the duplicate acknowledgments; the third can mean that the MTU probe was too large. -/
def countDuplicate (c : Conn) (env : Env) (ackNr : UInt16) : Conn :=
  if 0 < c.curWindowPackets then
    if ackNr = c.seqNr - UInt16.ofNat c.curWindowPackets - 1 then
      let c := { c with resend := { c.resend with duplicateAck := c.resend.duplicateAck + 1 } }
      if c.resend.duplicateAck.toNat = duplicateAcksBeforeResend ∧ c.mtu.mtuProbeSeq ≠ 0 then
        if ackNr = c.mtu.mtuProbeSeq - 1 then c.mtuProbeFailed env else c.mtuProbeClear
      else c
    else { c with resend := { c.resend with duplicateAck := 0 } }
  else c

/-- The `i`-th packet that is acknowledged: count its bytes, and raise the MTU when it was the
probe. -/
def ackedBytesAt (env : Env) (now : UInt64) (acc : Conn × Nat × Int) (i : Nat) :
    Conn × Nat × Int :=
  let c := acc.1
  let seq := c.seqNr - UInt16.ofNat c.curWindowPackets + UInt16.ofNat i
  match c.outbuf.get seq.toNat with
  | none => acc
  | some pkt =>
    if pkt.transmissions = 0 then acc
    else
      let c :=
        if c.mtu.mtuProbeSeq ≠ 0 ∧ seq = c.mtu.mtuProbeSeq then
          ({ c with mtu := { c.mtu with mtuFloor := c.mtu.mtuProbeSize } }).mtuSearchUpdate env
        else c
      (c, acc.2.1 + pkt.payload, lowerRtt acc.2.2 now pkt.timeSent)

/-! ### Delays -/

/-- `INT_MAX`. -/
def intMax : Int := 2 ^ 31 - 1

/-- The delay that a packet reports, 0 for none. -/
def actualDelay (pf : PacketFormatV1) : UInt32 :=
  if pf.replyMicro = 0x7FFFFFFF then 0 else pf.replyMicro

/-- `average_delay_sample`: from the base to the delay, the shorter way around. -/
def averageDelaySample (base actualDelay : UInt32) : Int :=
  let distDown := base - actualDelay
  let distUp := actualDelay - base
  if distDown > distUp then distUp.toNat else -distDown.toNat

/-- The average of the samples of the last 5 seconds, and the clock drift that it shows. Two
assertions keep the average between `-INT_MAX` and `INT_MAX`. -/
def averageDelays (d : Delays) (currentMs : UInt64) (actualDelay : UInt32) : Delays :=
  let base := if d.averageDelayBase = 0 then actualDelay else d.averageDelayBase
  let sum := d.currentDelaySum + averageDelaySample base actualDelay
  let samples := d.currentDelaySamples + 1
  if currentMs > d.averageSampleTime then
    let fault := d.fault || !decide (sum.tdiv samples < intMax ∧ -intMax < sum.tdiv samples)
    let average := int32 (sum.tdiv samples)
    let least := min d.averageDelay average
    let most := max d.averageDelay average
    -- Normalize around zero: the least is at most 0 and the most is at least 0.
    let adjust := if least > 0 then int32 (-least) else if most < 0 then int32 (-most) else 0
    let drift := int32 (int32 (average + adjust) - int32 (d.averageDelay + adjust))
    { d with
      fault := fault
      averageDelay := int32 (average + adjust)
      averageSampleTime := d.averageSampleTime + 5000
      currentDelaySum := 0
      currentDelaySamples := 0
      averageDelayBase := base - UInt32.ofInt adjust
      clockDrift := (d.clockDrift * 7 + drift).tdiv 8
      clockDriftRaw := drift }
  else
    { d with
      averageDelayBase := base
      currentDelaySum := sum
      currentDelaySamples := samples }

/-- What the two time stamps of a packet say about the delays. `time` is when it came. -/
def measureDelays (d : Delays) (currentMs time : UInt64) (pf : PacketFormatV1) (minRtt : Int) :
    Delays × UInt32 :=
  let theirDelay : UInt32 := if pf.tvUsec = 0 then 0 else (time - pf.tvUsec.toUInt64).toUInt32
  let prevDelayBase := d.theirHist.delayBase
  let theirHist :=
    if theirDelay ≠ 0 then d.theirHist.addSample theirDelay currentMs else d.theirHist
  -- The other clock runs slower than ours: shift our delay base the other way.
  let ourHist :=
    if prevDelayBase ≠ 0 ∧
        wrappingCompareLess theirHist.delayBase prevDelayBase timestampMask = true ∧
        prevDelayBase - theirHist.delayBase ≤ 10000 then
      d.ourHist.shift (prevDelayBase - theirHist.delayBase)
    else d.ourHist
  let d := { d with
    lastMeasuredDelay := currentMs
    replyMicro := theirDelay
    theirHist := theirHist
    ourHist := ourHist }
  let d :=
    if actualDelay pf ≠ 0 then
      averageDelays { d with ourHist := d.ourHist.addSample (actualDelay pf) currentMs } currentMs
        (actualDelay pf)
    else d
  let d :=
    if minRtt < d.ourHist.getValue.toNat then
      { d with ourHist := d.ourHist.shift (UInt32.ofInt (d.ourHist.getValue.toNat - minRtt)) }
    else d
  (d, actualDelay pf)

/-- `clamp<size_t>(max_window, MIN_WINDOW_SIZE, opt_sndbuf)`. -/
def clampWindow (maxWindow optSndbuf : Nat) : Nat := max (min maxWindow optSndbuf) minWindowSize

/-- `MAX_CWND_INCREASE_BYTES_PER_RTT`. -/
def maxCwndIncreaseBytesPerRtt : Int := 3000

/-- The `penalty` for a clock that runs slow. -/
def delayPenalty (clockDrift : Int) : Int :=
  if clockDrift < -200000 then (-clockDrift - 200000).tdiv 7 else 0

/-- `scaled_gain <= 1. + MAX_CWND_INCREASE_BYTES_PER_RTT * ..`, multiplied by the two
denominators `max(max_window, bytes_acked)` and `target`. -/
def gainBounded (bytesAcked maxWindow : Nat) (target ourDelay : Int) : Prop :=
  let factor := maxCwndIncreaseBytesPerRtt * min bytesAcked maxWindow
  factor * int32 (target - ourDelay) ≤ (max maxWindow bytesAcked + factor) * target

instance (bytesAcked maxWindow : Nat) (target ourDelay : Int) :
    Decidable (gainBounded bytesAcked maxWindow target ourDelay) :=
  inferInstanceAs (Decidable (_ ≤ _))

/-- The assertions of `apply_ccontrol` on `our_delay` and on `scaled_gain`. `target` is not
`target_delay` when that is not an `int` above 0. -/
def delayInRange (c : Conn) (bytesAcked : Nat) (ourDelay : UInt32) : Prop :=
  let target := if int32 c.cong.targetDelay ≤ 0 then 100000 else int32 c.cong.targetDelay
  let our := int32 ourDelay.toNat
  our ≠ intMax ∧ 0 ≤ our ∧
    gainBounded bytesAcked c.cong.maxWindow target
      (int32 (our + delayPenalty c.delays.clockDrift))

instance (c : Conn) (bytesAcked : Nat) (ourDelay : UInt32) :
    Decidable (c.delayInRange bytesAcked ourDelay) :=
  inferInstanceAs (Decidable (_ ∧ _ ∧ _))

/-- `UTPSocket::apply_ccontrol`. -/
def applyCcontrol (c : Conn) (env : Env) (bytesAcked : Nat) (minRtt : Int) : Conn :=
  let c := c.assert (0 ≤ minRtt)
  let ourDelay := min c.delays.ourHist.getValue (UInt32.ofInt minRtt)
  let c := c.assert (0 < bytesAcked)
  let out := env.ledbat
    { ourDelay := ourDelay, clockDrift := c.delays.clockDrift, targetDelay := c.cong.targetDelay,
      bytesAcked := bytesAcked, maxWindow := c.cong.maxWindow, packetSize := c.getPacketSize,
      sinceMaxedOut := c.currentMs - c.cong.lastMaxedOutWindow }
  let g :=
    if c.cong.slowStart then
      if c.cong.ssthresh < out.ssCwnd then { c.cong with slowStart := false }
      else if out.delayed then { c.cong with slowStart := false, ssthresh := c.cong.maxWindow }
      else { c.cong with maxWindow := max out.ssCwnd out.ledbatCwnd }
    else { c.cong with maxWindow := out.ledbatCwnd }
  { c with cong :=
    { g with
      maxWindow := clampWindow g.maxWindow g.optSndbuf
      fault := g.fault || !decide (c.delayInRange bytesAcked ourDelay) } }

/-! ### The acknowledgment -/

/-- The state changes of the handshake and of the last acknowledgment. -/
def handshake (c : Conn) (env : Env) (flags : PacketType) (acks : Nat) : Conn :=
  let c :=
    if flags = .data ∧ c.state = .synRecv then { c with state := .connected } else c
  if flags = .state ∧ c.state = .synSent then
    ({ c with state := .connected }).callback env (.onStateChange .connect)
  else if c.state = .finSent ∧ c.curWindowPackets = acks then { c with state := .destroy }
  else c

/-- `for (int i = 0; i < acks; ++i)`: acknowledge from the oldest packet on. -/
def ackLoop (env : Env) : Nat → Conn → Conn
  | 0, c => c
  | n + 1, c =>
    let r := c.ackPacket env c.oldest
    -- Behind a packet that was not sent nothing can be acknowledged.
    if r.1 = .notSent then r.2
    else ackLoop env n { r.2 with curWindowPackets := r.2.curWindowPackets - 1 }

/-- Packets at the front may have been acknowledged selectively. -/
def trimLoop : Nat → Conn → Conn
  | 0, c => c
  | n + 1, c =>
    if 0 < c.curWindowPackets ∧ c.outbuf.get c.oldest = none then
      trimLoop n { c with curWindowPackets := c.curWindowPackets - 1 }
    else c

/-- Send the only packet left if it was held back. -/
def flushNagle (c : Conn) (env : Env) : Conn :=
  if c.curWindowPackets = 1 then
    match c.outbuf.get ((c.seqNr.toNat : Int) - 1) with
    | none => c.assert False
    | some pkt =>
      if pkt.transmissions = 0 then c.sendPacket env ((c.seqNr.toNat : Int) - 1) pkt else c
  else c

/-- Fast timeout-retry. -/
def fastRetry (c : Conn) (env : Env) : Conn :=
  if c.resend.fastTimeout then
    if c.seqNr - UInt16.ofNat c.curWindowPackets ≠ c.resend.fastResendSeqNr then
      { c with resend := { c.resend with fastTimeout := false } }
    else
      match c.outbuf.get c.oldest with
      | none => c
      | some pkt =>
        if 0 < pkt.transmissions then
          ({ c with resend :=
              { c.resend with fastResendSeqNr := c.resend.fastResendSeqNr + 1 } }).sendPacket env
            c.oldest pkt
        else c
  else c

/-- The branch `if (acks <= conn->cur_window_packets)`. -/
def acknowledge (c : Conn) (env : Env) (pf : PacketFormatV1) (flags : PacketType) (acks : Nat) :
    Conn :=
  let c := { c with cong :=
    { c.cong with
      maxWindowUser := pf.windowsize.toNat
      zerowindowTime :=
        if pf.windowsize.toNat = 0 then c.currentMs + 15000 else c.cong.zerowindowTime } }
  let c := c.handshake env flags acks
  let c :=
    if wrappingCompareLess c.resend.fastResendSeqNr.toUInt32 (pf.ackNr + 1).toUInt32 ackNrMask then
      { c with resend := { c.resend with fastResendSeqNr := pf.ackNr + 1 } }
    else c
  let c := ackLoop env acks c
  let c := trimLoop c.curWindowPackets c
  let c := c.assert (c.curWindowPackets = 0 → c.curWindow = 0)
  let c := c.assert (c.curWindowPackets = 0 ∨ c.outbuf.get c.oldest ≠ none)
  (c.flushNagle env).fastRetry env

/-! ### The payload -/

/-- The FIN packet and everything before it has come. -/
def reachEof (c : Conn) (env : Env) : Conn :=
  if c.gotFin = true ∧ c.eofPkt = c.ackNr then
    let c :=
      if c.state ≠ .finSent then
        ({ c with
          state := .gotFin
          rtt := { c.rtt with
            rtoTimeout := c.currentMs + UInt64.ofNat
              (min (uint (c.rtt.rto * 3)) 60) } }).callback env
          (.onStateChange .eof)
      else c
    { c.sendAck env false with reorderCount := 0 }
  else c

/-- Pass bytes to the upper layer, unless there are none or we have closed. -/
def post (c : Conn) (env : Env) (bytes : List UInt8) : Conn :=
  if bytes ≠ [] ∧ c.state ≠ .finSent then c.callback env (.onRead bytes) else c

/-- `for (;;)`: the packets in the reorder buffer that are in order now. Every round takes one
of them. -/
def drainLoop (env : Env) : Nat → Conn → Conn
  | 0, c => c
  | n + 1, c =>
    let c := c.reachEof env
    if c.reorderCount = 0 then c
    else
      match c.inbuf.get ((c.ackNr.toNat : Int) + 1) with
      | none => c
      | some p =>
        let c := { c with inbuf := c.inbuf.put ((c.ackNr.toNat : Int) + 1) none }
        let c := c.post env p
        let c := ({ c with ackNr := c.ackNr + 1 }).assert (0 < c.reorderCount)
        drainLoop env n { c with reorderCount := c.reorderCount - 1 }

/-- The next expected packet. -/
def inOrder (c : Conn) (env : Env) (data : List UInt8) : Conn :=
  let c := c.post env data
  let c := { c with ackNr := c.ackNr + 1 }
  (drainLoop env (c.reorderCount + 1) c).scheduleAck

/-- A packet that comes too early, `seqnr` packets past the expected one. -/
def outOfOrder (c : Conn) (pf : PacketFormatV1) (data : List UInt8) (seqnr : Nat) : Conn :=
  if c.gotFin = true ∧ c.eofPkt < pf.seqNr then c
  else if 0x3ff < seqnr then c
  else
    -- Grow first, so that the buffer does not show an older packet at this index.
    let buf := SizableCircularBuffer.ensureSize c.inbuf ((pf.seqNr.toNat : Int) + 1) (seqnr + 1)
    let c := { c with inbuf := buf }
    if (c.inbuf.get pf.seqNr.toNat).isSome then c
    else
      let c := c.assert
        (c.inbuf.slot pf.seqNr.toNat ≠ c.inbuf.slot ((c.ackNr.toNat : Int) + 1))
      ({ c with
        inbuf := c.inbuf.put pf.seqNr.toNat (some data)
        reorderCount := c.reorderCount + 1 }).scheduleAck

/-- The end of `utp_process_incoming`: the payload of a packet, with `seqnr` relative to the
expected one. -/
def receive (c : Conn) (env : Env) (s : Segment) (seqnr : Nat) : Conn :=
  if s.flags = .state then c
  else if c.state = .connected ∨ c.state = .connectedFull ∨ c.state = .finSent then
    let c :=
      if s.flags = .fin ∧ c.gotFin = false then
        { c with gotFin := true, eofPkt := s.header.seqNr }
      else c
    if seqnr = 0 then c.inOrder env s.data else c.outOfOrder s.header s.data seqnr
  else c

/-! ### The whole function -/

/-- `selective_ack_bytes`, for a packet that may have no mask. -/
def selackBytes (c : Conn) (env : Env) (s : Segment) (minRtt : Int) : (Nat × Int) × Conn :=
  match s.selack with
  | none => ((0, minRtt), c)
  | some sel => c.selectiveAckBytes env (s.header.ackNr + 2) sel s.beyond minRtt

/-- `selective_ack`, for a packet that may have no mask. -/
def applySelack (c : Conn) (env : Env) (s : Segment) : Conn :=
  match s.selack with
  | none => c
  | some sel => c.selectiveAck env (s.header.ackNr + 2) sel s.beyond

/-- What is measured with the `acks` packets that a packet acknowledges, before they go: from the
duplicate counter to the congestion control. `time` is when the packet came. -/
def measureAcks (c : Conn) (env : Env) (s : Segment) (time : UInt64) (acks : Nat) : Conn :=
  let c := c.countDuplicate env s.header.ackNr
  let now := env.micros c.ticks
  -- `min_rtt` starts at `INT64_MAX`.
  let acc := (List.range acks).foldl (ackedBytesAt env now) (c.tick, 0, 2 ^ 63 - 1)
  let c := acc.1
  let sel := c.selackBytes env s acc.2.2
  let ackedBytes := acc.2.1 + sel.1.1
  let minRtt := sel.1.2
  let c := sel.2.assert (0 ≤ minRtt)
  let d := measureDelays c.delays c.currentMs time s.header minRtt
  let c := { c with delays := d.1 }
  if d.2 ≠ 0 ∧ 1 ≤ ackedBytes then c.applyCcontrol env ackedBytes minRtt else c

/-- The acknowledgment part: from the duplicate counter to the selective acknowledgment. -/
def processAcks (c : Conn) (env : Env) (s : Segment) (time : UInt64) : Conn :=
  let acks := c.acks s.header.ackNr
  let c := c.measureAcks env s time acks
  let c := if acks ≤ c.curWindowPackets then c.acknowledge env s.header s.flags acks else c
  let c := c.applySelack env s
  let c := c.assert (c.curWindowPackets = 0 ∨ c.outbuf.get c.oldest ≠ none)
  c.markWritable env

/-- `utp_process_incoming` once the headers were read. -/
def processSegment (c : Conn) (env : Env) (s : Segment) (time : UInt64) (syn : Bool) : Conn :=
  let c := if c.state = .synSent then { c with ackNr := s.header.seqNr - 1 } else c
  let c := { c with lastGotPacket := c.currentMs }
  if syn then c
  else
    let seqnr := (s.header.seqNr - c.ackNr - 1).toNat
    if reorderBufferMaxSize ≤ seqnr then
      -- Not a sequence number that we expect. An old packet is acknowledged once more.
      if 65536 - reorderBufferMaxSize ≤ seqnr ∧ s.flags ≠ .state then c.scheduleAck else c
    else (c.processAcks env s time).receive env s seqnr

/-- `utp_process_incoming`. `beyond` is the byte behind the packet. -/
def utpProcessIncoming (c : Conn) (env : Env) (packet : List UInt8) (beyond : UInt8)
    (syn : Bool) : Conn :=
  let c := c.readClock env
  match PacketFormatV1.decode packet with
  | none => c
  | some (pf, data) =>
    match PacketType.ofCode pf.type with
    | none => c
    | some flags =>
      let time := env.micros c.ticks
      let c := c.tick
      if c.invalidAck pf flags then c
      else
        let c := c.assert (flags ≠ .reset)
        let scan := skipExtensions pf.ext data c.extensions
        let c := { c with extensions := scan.extensions }
        match scan.result with
        | none => c
        | some (selack, data) =>
          c.processSegment env { header := pf, flags, selack, data, beyond } time syn

/-! ### The two ends of a connection -/

/-- `utp_create_socket` and `utp_initialize_socket`, with the two connection ids. -/
def create (env : Env) (connIdRecv connIdSend : UInt32) : Conn :=
  let now := env.millis 0
  { state := .idle
    connIdRecv := connIdRecv
    connIdSend := connIdSend
    seqNr := 1
    curWindowPackets := 0
    curWindow := 0
    outbuf := .empty 4
    ackNr := 0
    inbuf := .empty 4
    reorderCount := 0
    gotFin := false
    eofPkt := 0
    mtu :=
      { mtuDiscoverTime := env.millis 1 + 30 * 60 * 1000, mtuCeiling := udpIpv4Mtu,
        mtuFloor := mtuFloorMin, mtuLast := udpIpv4Mtu, mtuProbeSeq := 0, mtuProbeSize := 0 }
    cong :=
      { maxWindow := udpIpv4Mtu - PacketFormatV1.headerSize, maxWindowUser := 255 * packetSizeMax,
        optSndbuf := 1024 * 1024, targetDelay := 100 * 1000,
        lastRwinDecay := (now.toNat : Int) - maxWindowDecay, lastMaxedOutWindow := 0,
        zerowindowTime := 0, slowStart := true, ssthresh := 1024 * 1024,
        fault := false }
    rtt :=
      { rtt := 0, rttVar := 800, rto := 3000, rttHist := .clear now, retransmitTimeout := 0,
        rtoTimeout := 0, retransmitCount := 0 }
    resend := { duplicateAck := 0, fastTimeout := false, timeoutSeqNr := 0, fastResendSeqNr := 1 }
    delays := Delays.new now
    lastGotPacket := now
    lastSentPacket := now
    optRcvbuf := 1024 * 1024
    lastRcvWin := 0
    extensions := List.replicate 8 0
    ackPending := false
    currentMs := now
    ticks := 2
    callbacks := 0
    queued := 0
    closes := 0
    effects := []
    fault := false
    misused := false }

/-- `utp_connect`, with the random `conn_seed` and the random first sequence number. -/
def utpConnect (env : Env) (connSeed seqNr : UInt16) : Conn :=
  let c := create env connSeed.toUInt32 (connSeed.toUInt32 + 1)
  let c := ({ c with state := .synSent }).readClock env
  let c := { c with
    rtt := { c.rtt with retransmitTimeout := 3000, rtoTimeout := c.currentMs + 3000 }
    lastRcvWin := c.getRcvWindow
    seqNr := seqNr }
  let pf := { PacketFormatV1.ofType .syn with
    connid := c.connIdRecv.toUInt16
    windowsize := UInt32.ofNat c.lastRcvWin }
  let pkt : OutgoingPacket :=
    { header := pf, body := [], timeSent := 0, transmissions := 0, needResend := false }
  let c := c.appendPacket pkt
  match c.outbuf.get seqNr.toNat with
  | none => c
  | some pkt => c.sendPacket env seqNr.toNat pkt

/-- The socket that `utp_process_udp` makes for a `ST_SYN`, with its random first sequence
number. -/
def accept (env : Env) (packet : List UInt8) (beyond : UInt8) (seqNr : UInt16) : Option Conn :=
  match PacketFormatV1.decode packet with
  | none => none
  | some (pf, _) =>
    if pf.utpVersion = 1 ∧ PacketType.ofCode pf.type = some .syn then
      let c := create env (pf.connid.toUInt32 + 1) pf.connid.toUInt32
      let c := { c with
        ackNr := pf.seqNr
        seqNr := seqNr
        resend := { c.resend with fastResendSeqNr := seqNr }
        state := .connected }
      let c := c.utpProcessIncoming env packet beyond true
      some ((c.sendAck env true).callback env .onAccept)
    else none

/-- A `ST_RESET` for this socket. The error is chosen after the state was changed. -/
def processReset (c : Conn) (env : Env) : Conn :=
  let c := { c with state := if c.state = ConnState.finSent then .destroy else .reset }
  c.callback env (.onError (if c.state = ConnState.synSent then .connRefused else .connReset))

/-- `utp_issue_deferred_acks`, for this socket. -/
def issueDeferredAck (c : Conn) (env : Env) : Conn :=
  if c.ackPending then c.sendAck env false else c

/-- `utp_process_udp` for a packet of this connection that is not a `ST_SYN`. -/
def utpProcessUdp (c : Conn) (env : Env) (packet : List UInt8) (beyond : UInt8) : Conn :=
  match PacketFormatV1.decode packet with
  | none => c
  | some (pf, _) =>
    if pf.utpVersion = 1 then
      match PacketType.ofCode pf.type with
      | some .reset => c.processReset env
      -- A second `ST_SYN` of the same connection is not answered.
      | some .syn => c
      | _ => c.utpProcessIncoming env packet beyond false
    else c

end Conn

end EChannel.LibUtp
