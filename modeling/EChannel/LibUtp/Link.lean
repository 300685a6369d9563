import EChannel.LibUtp.Incoming

/-!
# `EChannel.LibUtp.Link`: a socket in its surroundings

`Conn.run` is what a socket goes through when any calls, packets and timers come to it, in any
order. A packet there is any list of bytes.

`Link` is two sockets with a network between them. `a` is the end that connects, `b` the one that
`utp_process_udp` makes when the SYN comes. The network keeps every datagram: it may lose one, by
never delivering it, deliver it late, out of order or more than once. One thing is asked of it: it
does not deliver a datagram when either end has queued 2 ^ 15 packets or more since that was sent.
Sequence numbers have 16 bits, so a datagram kept for longer could be taken for a new one. A
`ST_RESET` may come at any time, since whoever does not know a connection answers with one.
-/

set_option autoImplicit false

namespace EChannel.LibUtp

/-! ### One socket -/

/-- What can happen to a socket. -/
inductive Event
  | call (a : Call)
  | udp (packet : List UInt8) (beyond : UInt8)
  | checkTimeouts
  | issueDeferredAcks
  deriving DecidableEq, Repr

/-- The delay that a packet reports is 0, for none, or less than `INT_MAX` above `lo` on the clock
that wraps. -/
def Event.reportsAbove (lo : UInt32) : Event → Bool
  | .udp packet _ =>
    match PacketFormatV1.decode packet with
    | none => true
    | some (pf, _) =>
      Conn.actualDelay pf = 0 ∨ ((Conn.actualDelay pf - lo).toNat : Int) < Conn.intMax
  | _ => true

/-- Surroundings where the clock stands still and nobody writes inside a callback. -/
def Env.still : Env where
  millis := fun _ => 1000
  micros := fun _ => 1000000
  reply := fun _ => []
  ledbat := fun i => ⟨i.maxWindow, i.maxWindow, false⟩
  micros_lt := fun _ => by decide

namespace Conn

/-- A socket begins with `utp_connect`, or with the SYN that it accepts. -/
inductive Started (env : Env) : Conn → Prop
  | connect (connSeed seqNr : UInt16) : Started env (utpConnect env connSeed seqNr)
  | accept (packet : List UInt8) (beyond : UInt8) (seqNr : UInt16) (c : Conn)
    (h : accept env packet beyond seqNr = some c) : Started env c

/-- One event. -/
def handle (c : Conn) (env : Env) : Event → Conn
  | .call a => c.call env a
  | .udp packet beyond => c.utpProcessUdp env packet beyond
  | .checkTimeouts => c.checkTimeouts env
  | .issueDeferredAcks => c.issueDeferredAck env

/-- The events one after the other. -/
def run (c : Conn) (env : Env) (events : List Event) : Conn :=
  events.foldl (fun c e => c.handle env e) c

end Conn

/-! ### Two sockets -/

/-- A datagram in the network, with the packets that the two ends had queued when it was sent. -/
structure Sent where
  datagram : List UInt8
  atA : Nat
  atB : Nat
  deriving DecidableEq, Repr

/-- Two sockets, and everything that either has sent. -/
structure Link where
  a : Conn
  b : Option Conn
  fromA : List Sent
  fromB : List Sent

/-- What can happen at one end of a link. `deliver i` is the `i`-th datagram of the other end. -/
inductive EndEvent
  | call (a : Call)
  | deliver (i : Nat) (beyond : UInt8)
  | reset
  | checkTimeouts
  | issueDeferredAcks
  deriving DecidableEq, Repr

/-- What can happen to a link. `accept i` is the arrival of a SYN at an end that has no socket
yet, with the random first sequence number of that end. -/
inductive LinkEvent
  | accept (i : Nat) (beyond : UInt8) (seqNr : UInt16)
  | atA (e : EndEvent)
  | atB (e : EndEvent)
  deriving DecidableEq, Repr

namespace Conn

/-- One end of a link. `incoming` has the datagrams that may be delivered. -/
def handleEnd (c : Conn) (env : Env) (incoming : Nat → Option (List UInt8)) : EndEvent → Conn
  | .call a => c.call env a
  | .deliver i beyond =>
    match incoming i with
    | none => c
    | some packet => c.utpProcessUdp env packet beyond
  | .reset => c.processReset env
  | .checkTimeouts => c.checkTimeouts env
  | .issueDeferredAcks => c.issueDeferredAck env

/-- The datagrams that `c'` has sent since it was `c`, with the counts of the two ends. -/
def sentSince (c c' : Conn) (atA atB : Nat) : List Sent :=
  (c'.datagrams.drop c.datagrams.length).map fun d => { datagram := d, atA, atB }

end Conn

namespace Link

/-- The packets that the accepting end has queued. -/
def queuedB (l : Link) : Nat := (l.b.map Conn.queued).getD 0

/-- A datagram that is not too old. -/
def fresh (l : Link) (m : Sent) : Bool :=
  l.a.queued < m.atA + 2 ^ 15 ∧ l.queuedB < m.atB + 2 ^ 15

/-- The datagrams of `net` that may be delivered. -/
def incoming (l : Link) (net : List Sent) (i : Nat) : Option (List UInt8) :=
  match net[i]? with
  | none => none
  | some m => if l.fresh m then some m.datagram else none

/-- `utp_connect` at one end. -/
def connect (env : Env) (connSeed seqNr : UInt16) : Link :=
  let a := Conn.utpConnect env connSeed seqNr
  { a := a
    b := none
    fromA := a.datagrams.map fun d => { datagram := d, atA := 0, atB := 0 }
    fromB := [] }

/-- The SYN comes to the other end. -/
def accept (l : Link) (env : Env) (packet : List UInt8) (beyond : UInt8) (seqNr : UInt16) : Link :=
  match Conn.accept env packet beyond seqNr with
  | none => l
  | some b =>
    { l with
      b := some b
      fromB := b.datagrams.map fun d => { datagram := d, atA := l.a.queued, atB := 0 } }

def step (l : Link) (envA envB : Env) : LinkEvent → Link
  | .accept i beyond seqNr =>
    match l.b, l.fromA[i]? with
    | none, some m => l.accept envB m.datagram beyond seqNr
    | _, _ => l
  | .atA e =>
    let a := l.a.handleEnd envA (l.incoming l.fromB) e
    { l with a := a, fromA := l.fromA ++ l.a.sentSince a l.a.queued l.queuedB }
  | .atB e =>
    match l.b with
    | none => l
    | some b =>
      let b' := b.handleEnd envB (l.incoming l.fromA) e
      { l with b := some b', fromB := l.fromB ++ b.sentSince b' l.a.queued b.queued }

def run (l : Link) (envA envB : Env) (events : List LinkEvent) : Link :=
  events.foldl (fun l e => l.step envA envB e) l

/-- The bytes that the accepting end has read. -/
def readsB (l : Link) : List UInt8 := (l.b.map Conn.reads).getD []

/-- The bytes that the accepting end has taken. -/
def takenB (l : Link) : List UInt8 := (l.b.map Conn.taken).getD []

end Link

end EChannel.LibUtp
