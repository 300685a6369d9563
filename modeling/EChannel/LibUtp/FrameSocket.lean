import EChannel.LibUtp.Incoming
import EChannel.Support.SlidingWindow
import Mathlib.Logic.Relation

/-!
# `EChannel.LibUtp.FrameSocket`: a socket as the two ends of a sliding window

What a socket is for, without buffers, windows and timers: it is the sender of its own frames
and the receiver of the frames of its peer (`Support/SlidingWindow.lean`). Frames are numbered
from 0 without end. On the wire the frame `k` has the number `seqOf k`, which is 16 bits of
`isn + k`, and the frame `j` that this end takes has the number `peerSeq j`.

`FrameSocket.Step p` is everything a socket may do while it works on the packet `p`, or on none.
What it may conclude from a packet is said in numbers of the wire (`Claims`, `Delivers`); which
frame is meant is not its knowledge but that of the two ends together.
-/

set_option autoImplicit false

namespace EChannel.LibUtp

open SlidingWindow

/-- What a packet of the send queue carries. -/
structure Frame where
  kind : PacketType
  body : List UInt8
  deriving DecidableEq, Repr

/-- A socket: the sender of its frames and the receiver of the other ones. `irs` is the number
before the first frame that it takes, known when it is `synced`; `fin` is the number of the
peer's last frame once it has seen that; `eof` says that it has taken that frame, and `past` that
the peer has sent frames behind it. `reads` are the bytes that went to the upper layer, `out` the
datagrams it has sent. `ids` are the connection ids, which never change, `closes` counts the calls
of `utp_close`, and `delays` is what it has measured. -/
structure FrameSocket where
  ids : UInt32 × UInt32
  state : ConnState
  isn : UInt16
  snd : Sender Frame
  synced : Bool
  irs : UInt16
  rcv : Receiver Frame
  fin : Option UInt16
  eof : Bool
  past : Bool
  reads : List UInt8
  out : List (List UInt8)
  closes : Nat
  delays : Delays

/-- A datagram, as it reads. -/
structure Carries (d : List UInt8) (flags : PacketType) (seq ack : UInt16) (sel : Option SelAck)
    (data : List UInt8) : Prop where
  reads : ∃ pf rest, PacketFormatV1.decode d = some (pf, rest) ∧ pf.utpVersion = 1 ∧
    PacketType.ofCode pf.type = some flags ∧ pf.seqNr = seq ∧ pf.ackNr = ack ∧
    ∀ bits, skipExtensions pf.ext rest bits = ⟨bits, some (sel, data)⟩

namespace FrameSocket

/-- The number of the own frame `k` on the wire. -/
def seqOf (s : FrameSocket) (k : Nat) : UInt16 := s.isn + UInt16.ofNat k

/-- The number of the frame `j` of the peer on the wire, counted from the first one taken. -/
def peerSeq (s : FrameSocket) (j : Nat) : UInt16 := s.irs + 1 + UInt16.ofNat j

/-- `p` says that the peer has the frame `k`: with its `ack_nr`, or with a bit of its mask. -/
def Claims (s : FrameSocket) (p : Segment) (k : Nat) : Prop :=
  (∃ a, k < a ∧ a ≤ s.snd.frames.length ∧ p.header.ackNr + 1 = s.seqOf a) ∨
    ∃ sel i, p.selack = some sel ∧ i < sel.len.toNat * 8 ∧ sel.bitSet p.beyond i = true ∧
      p.header.ackNr + 2 + UInt16.ofNat i = s.seqOf k

/-- `p` brings `x` as the frame `j`. -/
def Delivers (s : FrameSocket) (p : Segment) (j : Nat) (x : Frame) : Prop :=
  (p.flags = .data ∨ p.flags = .fin) ∧ x = ⟨p.flags, p.data⟩ ∧ p.header.seqNr = s.peerSeq j ∧
    s.rcv.next ≤ j ∧ j < s.rcv.next + reorderBufferMaxSize

/-- An acknowledgment that says no more than this end has: `ack_nr` is the last frame taken or
the one before, and the bits of the mask are frames held. -/
def Truthful (s : FrameSocket) (ack : UInt16) (sel : Option SelAck) : Prop :=
  (∃ a, s.rcv.next ≤ a ∧ a ≤ s.rcv.next + 1 ∧ ack + 1 = s.irs + UInt16.ofNat a) ∧
    ∀ m beyond i, sel = some m → i < m.len.toNat * 8 → m.bitSet beyond i = true →
      ∃ j, s.rcv.next ≤ j ∧ (s.rcv.held j).isSome = true ∧
        ack + 2 + UInt16.ofNat i = s.peerSeq j

/-- A socket in one of these states is connected to its peer or was: it takes no frames in the
others. -/
def Receiving (s : FrameSocket) : Prop :=
  s.state = .connected ∨ s.state = .connectedFull ∨ s.state = .finSent

/-- The changes of state that have no other meaning here. -/
inductive Moves : ConnState → ConnState → Prop
  | full : Moves .connected .connectedFull
  | writable : Moves .connectedFull .connected
  | delay (st : ConnState) (h : st = .synSent ∨ st = .gotFin) : Moves st .destroyDelay
  | reset (st : ConnState) : Moves st .reset
  | destroy (st : ConnState) : Moves st .destroy

/-- What a socket may do while it works on the packet `p`. -/
inductive Step (p : Option Segment) : FrameSocket → FrameSocket → Prop
  | queue (s : FrameSocket) (body : List UInt8) (hstate : s.state = .connected)
    (hroom : s.snd.frames.length < s.snd.base + outgoingBufferMaxSize) :
    Step p s { s with snd := { s.snd with frames := s.snd.frames ++ [⟨.data, body⟩] } }
  | amend (s : FrameSocket) (body more : List UInt8) (hstate : s.state = .connected)
    (hlast : s.snd.frames[s.snd.frames.length - 1]? = some ⟨.data, body⟩)
    (hsent : s.snd.frames.length - 1 ∉ s.snd.sent) :
    Step p s { s with snd :=
      { s.snd with frames := s.snd.frames.dropLast ++ [⟨.data, body ++ more⟩] } }
  | called (s : FrameSocket) : Step p s { s with closes := s.closes + 1 }
  | close (s : FrameSocket) (hstate : s.state = .connected ∨ s.state = .connectedFull)
    (hroom : s.snd.frames.length < s.snd.base + outgoingBufferMaxSize)
    (hcalled : 0 < s.closes) :
    Step p s { s with
      state := .finSent
      snd := { s.snd with frames := s.snd.frames ++ [⟨.fin, []⟩] } }
  | transmit (s : FrameSocket) (k : Nat) (x : Frame) (d : List UInt8) (ack : UInt16)
    (hk : s.snd.base ≤ k) (hx : s.snd.frames[k]? = some x)
    (hd : Carries d x.kind (s.seqOf k) ack none x.body)
    (hack : s.synced = true → s.Truthful ack none) :
    Step p s { s with
      snd := { s.snd with sent := insert k s.snd.sent }
      out := s.out ++ [d] }
  | sendAck (s : FrameSocket) (d : List UInt8) (ack : UInt16) (sel : Option SelAck)
    (hstate : s.state ≠ .synSent)
    (hd : Carries d .state (s.seqOf s.snd.frames.length) ack sel [])
    (hack : s.synced = true → s.Truthful ack sel) :
    Step p s { s with out := s.out ++ [d] }
  | ack (s : FrameSocket) (seg : Segment) (k : Nat) (hp : p = some seg)
    (hk : s.snd.base ≤ k) (hlt : k < s.snd.frames.length) (hsent : k ∈ s.snd.sent)
    (hclaim : s.Claims seg k) :
    Step p s { s with snd := { s.snd with acked := insert k s.snd.acked } }
  | advance (s : FrameSocket) (h : s.snd.base ∈ s.snd.acked)
    (hlt : s.snd.base < s.snd.frames.length) :
    Step p s { s with snd := { s.snd with base := s.snd.base + 1 } }
  | sync (s : FrameSocket) (seg : Segment) (hp : p = some seg) (hflags : seg.flags = .state)
    (hstate : s.state = .synSent) (hsync : s.synced = false) :
    Step p s { s with
      state := .connected
      synced := true
      irs := seg.header.seqNr - 1 }
  | read (s : FrameSocket) (seg : Segment) (x : Frame) (hp : p = some seg)
    (hstate : s.Receiving) (hsync : s.synced = true) (heof : s.eof = false)
    (hidle : s.rcv.reading = none) (h : s.Delivers seg s.rcv.next x) :
    Step p s { s with
      rcv := { s.rcv with reading := some x }
      reads := if s.state = .finSent then s.reads else s.reads ++ x.body }
  | readHeld (s : FrameSocket) (x : Frame) (hstate : s.Receiving) (hsync : s.synced = true)
    (heof : s.eof = false) (hidle : s.rcv.reading = none)
    (h : s.rcv.held s.rcv.next = some x) :
    Step p s { s with
      rcv := { s.rcv with reading := some x }
      reads := if s.state = .finSent then s.reads else s.reads ++ x.body }
  | take (s : FrameSocket) (x : Frame) (h : s.rcv.reading = some x) :
    Step p s { s with rcv :=
      { s.rcv with next := s.rcv.next + 1, got := s.rcv.got ++ [x], reading := none } }
  | hold (s : FrameSocket) (seg : Segment) (j : Nat) (x : Frame) (hp : p = some seg)
    (hsync : s.synced = true) (h : s.Delivers seg j x) :
    Step p s { s with rcv := { s.rcv with held := Function.update s.rcv.held j (some x) } }
  | sawFin (s : FrameSocket) (seg : Segment) (j : Nat) (x : Frame) (hp : p = some seg)
    (hflags : seg.flags = .fin) (hsync : s.synced = true) (h : s.Delivers seg j x) :
    Step p s { s with fin := some seg.header.seqNr }
  | reachEof (s : FrameSocket) (f : UInt16) (hstate : s.Receiving) (hsync : s.synced = true)
    (hidle : s.rcv.reading = none) (hfin : s.fin = some f)
    (hf : f = s.irs + UInt16.ofNat s.rcv.next) :
    Step p s { s with
      eof := true
      state := if s.state = .finSent then .finSent else .gotFin }
  -- A peer that sends frames behind its last one: nothing is promised about them.
  | pastEof (s : FrameSocket) (seg : Segment) (n : Nat) (hp : p = some seg)
    (heof : s.eof = true) (hsync : s.synced = true)
    (h : s.past = true ∨ ∃ j x, s.Delivers seg j x) :
    Step p s { s with past := true, rcv := { s.rcv with next := n } }
  | move (s : FrameSocket) (st : ConnState) (h : Moves s.state st)
    (hcalled : s.closes = 0 → st.closable = true) : Step p s { s with state := st }
  | measure (s : FrameSocket) (seg : Segment) (currentMs time : UInt64) (minRtt : Int)
    (hp : p = some seg) :
    Step p s { s with
      delays := (Conn.measureDelays s.delays currentMs time seg.header minRtt).1 }

/-- Any number of steps while it works on `p`. -/
def Steps (p : Option Segment) : FrameSocket → FrameSocket → Prop := Relation.ReflTransGen (Step p)

end FrameSocket

end EChannel.LibUtp
