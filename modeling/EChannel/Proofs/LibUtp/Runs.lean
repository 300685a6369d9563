import EChannel.LibUtp.Link
import EChannel.Proofs.LibUtp.Delays
import EChannel.Proofs.LibUtp.Invariant

/-!
# `EChannel.Proofs.LibUtp.Runs`: whole runs of a socket

A socket that was started keeps `Inv` through any run: any calls of the upper layer, also inside
callbacks, any packets of any content, and any clock. So none of the assertions of `fault` fails
and no null pointer is used (`run_fault`), and the buffers stay within their limits
(`run_bounds`), whatever a peer sends. `run_keeps` is the rule behind it: what the steps of a
socket of frames keep, holds after a run.
-/

set_option autoImplicit false

namespace EChannel.LibUtp

namespace Conn

variable {env : Env} {c : Conn} {s : FrameSocket}

/-- A socket begins with no call of `utp_close` and no sample of a delay. -/
theorem Started.inv (h : Started env c) :
    ∃ s, Inv c s ∧ ∀ lo, AverageOk lo s.delays := by
  cases h with
  | connect connSeed seqNr =>
    obtain ⟨d, -, h⟩ := utpConnect_inv env connSeed seqNr
    exact ⟨_, h, fun lo => .new lo (env.millis 0)⟩
  | accept packet beyond seqNr _ hacc =>
    obtain ⟨pf, rest, s, -, -, hs, h⟩ := accept_inv env hacc
    refine ⟨s, h, fun lo => hs.averageOk (fun _ hno => by cases hno) ?_⟩
    exact .new lo (env.millis 0)

/-- The packet that a socket works on is that of the event. -/
def OfEvent (e : Event) (p : Option Segment) : Prop :=
  ∀ seg, p = some seg → ∃ packet beyond, e = .udp packet beyond ∧ IsSegment packet beyond seg

/-- One event. -/
theorem handle_inv (env : Env) (h : Inv c s) (e : Event) :
    ∃ p s', OfEvent e p ∧ FrameSocket.Steps p s s' ∧ Inv (c.handle env e) s' := by
  have hnone : OfEvent e none := fun seg hno => by cases hno
  cases e with
  | call a => exact ⟨none, (call_inv env h a).imp fun _ hs => ⟨hnone, hs⟩⟩
  | udp packet beyond =>
    obtain ⟨p, s', hp, hs, h'⟩ := utpProcessUdp_handled env h packet beyond
    exact ⟨p, s', fun seg hseg => ⟨packet, beyond, rfl, hp seg hseg⟩, hs, h'⟩
  | checkTimeouts => exact ⟨none, (checkTimeouts_inv env h).imp fun _ hs => ⟨hnone, hs⟩⟩
  | issueDeferredAcks => exact ⟨none, (issueDeferredAck_inv env h).imp fun _ hs => ⟨hnone, hs⟩⟩

/-- What the steps of every event keep, holds after the run. -/
theorem run_keeps {P : FrameSocket → Prop} (env : Env) (events : List Event)
    (hP : ∀ e ∈ events, ∀ p s s', OfEvent e p → FrameSocket.Steps p s s' → P s → P s')
    {c : Conn} {s : FrameSocket} (h : Inv c s) (hs : P s) :
    ∃ s', Inv (c.run env events) s' ∧ P s' := by
  induction events generalizing c s with
  | nil => exact ⟨s, h, hs⟩
  | cons e events ih =>
    obtain ⟨p, s1, hp, hsteps, h1⟩ := handle_inv env h e
    have hs1 := hP e List.mem_cons_self p s s1 hp hsteps hs
    exact ih (fun e' he' => hP e' (List.mem_cons_of_mem e he')) h1 hs1

/-- A socket that was started keeps its invariant. -/
theorem Started.run (h : Started env c) (events : List Event) :
    ∃ s, Inv (c.run env events) s := by
  obtain ⟨s, hs, -⟩ := h.inv
  obtain ⟨s', h', -⟩ := run_keeps (P := fun _ => True) env events (fun _ _ _ _ _ _ _ _ => trivial)
    hs trivial
  exact ⟨s', h'⟩

/-- A packet reports no delay, or one above `lo`. -/
theorem actualDelay_of_reportsAbove {lo : UInt32} {e : Event} (he : e.reportsAbove lo = true)
    {p : Option Segment} (hp : OfEvent e p) (seg : Segment) (hseg : p = some seg) :
    actualDelay seg.header = 0 ∨ Above lo (actualDelay seg.header) := by
  obtain ⟨packet, beyond, rfl, hof⟩ := hp seg hseg
  obtain ⟨rest, -, hdec, -, -⟩ := hof.reads
  simpa [Event.reportsAbove, hdec, Above] using he

-- A peer that reports 1 and five seconds later `INT_MAX` more makes an assertion fail.
example :
    let env := { Env.still with millis := fun n => 1000 + 6000 * n.toUInt64 }
    ((utpConnect env 7 100).run env
      [.udp [0x21, 0, 0, 7, 0, 0, 0, 9, 0, 0, 0, 1, 0, 0x10, 0, 0, 0x12, 0x34, 0, 100] 0,
        .udp [0x21, 0, 0, 7, 0, 0, 0, 9, 0x80, 0, 0, 0, 0, 0x10, 0, 0, 0x12, 0x35, 0, 100]
          0]).delays.fault = true := by
  decide +kernel

/-- The windows of a socket stay within their limits: at most 1024 packets are kept for the peer,
`cur_window` is what is in flight of them, `reorder_count` counts the packets kept from the peer,
and the MTU search stays between its bounds. -/
theorem run_bounds (h : Started env c) (events : List Event) :
    let c' := c.run env events
    c'.curWindowPackets ≤ c'.outbuf.size ∧ c'.outbuf.size ≤ 1024 ∧ c'.inbuf.size ≤ 2048 ∧
      c'.curWindow = flight (c'.outbuf.segment c'.oldest c'.curWindowPackets) ∧
      (c'.curWindowPackets = 0 ∨ c'.outbuf.get c'.oldest ≠ none) ∧
      (c'.beforeFin = true →
        c'.reorderCount = c'.inbuf.occupied ((c'.ackNr.toNat : Int) + 1) ∧
          c'.inbuf.get ((c'.ackNr.toNat : Int) + 1) = none) ∧
      MtuOk c'.mtu := by
  obtain ⟨s', h'⟩ := h.run events
  have hrep := h'.rep
  refine ⟨hrep.send.fits, Nat.pow_le_pow_right (by decide) hrep.send.bits,
    Nat.pow_le_pow_right (by decide) hrep.recv.bits, hrep.send.inFlight,
    hrep.front_iff.mp h'.front, fun hbefore => ?_, hrep.mtu⟩
  have heof := eof_of_beforeFin hrep hbefore
  exact ⟨h'.counted heof, hrep.next heof⟩

/-- The SYN is answered, and three bytes are written. -/
theorem run_bounds_connect :
    ((utpConnect .still 7 100).run .still
      [.udp [0x21, 0, 0, 7, 0, 0, 0, 9, 0, 0, 1, 0xf4, 0, 0x10, 0, 0, 0x12, 0x34, 0, 100] 0xff,
        .call (.write [1, 2, 3])]).outbuf.size ≤ 1024 :=
  (run_bounds (.connect 7 100) _).2.1

end Conn

/-! ### After the end -/

/-- The connection was given up, by either end. -/
def ConnState.ended : ConnState → Bool
  | .synSent | .connected | .connectedFull => false
  | _ => true

/-- A step leaves a connection that is over as it is. -/
theorem FrameSocket.Step.ended {p : Option Segment} {s s' : FrameSocket} (hs : Step p s s')
    (h : s.state.ended = true) :
    s'.state.ended = true ∧ s'.reads = s.reads ∧ s'.snd.frames = s.snd.frames := by
  have hne {st : ConnState} (hst : s.state = st) (hopen : st.ended = false) : False := by
    rw [hst, hopen] at h
    cases h
  have hfin (hstate : s.Receiving) : s.state = .finSent := by
    rcases hstate with hst | hst | hst
    · exact (hne hst rfl).elim
    · exact (hne hst rfl).elim
    · exact hst
  cases hs with
  | queue body hstate hroom => exact (hne hstate rfl).elim
  | amend body more hstate hlast hsent => exact (hne hstate rfl).elim
  | close hstate hroom hcalled => exact (hstate.elim (hne · rfl) (hne · rfl)).elim
  | sync seg hp hflags hstate hsync => exact (hne hstate rfl).elim
  | read seg x hp hstate hsync heof hidle hx => exact ⟨h, if_pos (hfin hstate), rfl⟩
  | readHeld x hstate hsync heof hidle hx => exact ⟨h, if_pos (hfin hstate), rfl⟩
  | reachEof f hstate hsync hidle hf heq =>
    refine ⟨?_, rfl, rfl⟩
    show ConnState.ended (if _ then _ else _) = true
    rw [if_pos (hfin hstate)]
    rfl
  | move st hmove hcalled =>
    refine ⟨?_, rfl, rfl⟩
    show st.ended = true
    rcases hmove.ended with ⟨hst | hst, -⟩ | ⟨hun, hsyn⟩
    · exact (hne hst rfl).elim
    · exact (hne hst rfl).elim
    · rcases hun with rfl | rfl | rfl | rfl
      · exact absurd rfl hsyn
      · rfl
      · rfl
      · rfl
  | _ => exact ⟨h, rfl, rfl⟩

/-- Any number of steps leave an ended socket as it is. -/
theorem FrameSocket.Steps.ended {p : Option Segment} {s s' : FrameSocket} (hs : Steps p s s')
    (h : s.state.ended = true) :
    s'.state.ended = true ∧ s'.reads = s.reads ∧ s'.snd.frames = s.snd.frames := by
  induction hs with
  | refl => exact ⟨h, rfl, rfl⟩
  | tail _ hstep ih =>
    obtain ⟨h1, h2, h3⟩ := ih
    obtain ⟨h1', h2', h3'⟩ := hstep.ended h1
    exact ⟨h1', h2'.trans h2, h3'.trans h3⟩

namespace Conn

variable {env : Env} {c : Conn}

/-- Nothing more is read or taken once the connection is over. -/
theorem run_of_ended (env : Env) (events : List Event) {c : Conn} {s : FrameSocket} (h : Inv c s)
    (hend : c.state.ended = true) :
    (c.run env events).state.ended = true ∧ (c.run env events).reads = c.reads ∧
      (c.run env events).taken = c.taken := by
  rw [h.rep.state] at hend
  obtain ⟨s', h', hend', hreads, hframes⟩ := run_keeps
    (P := fun s' => s'.state.ended = true ∧ s'.reads = s.reads ∧ s'.snd.frames = s.snd.frames)
    env events (fun e _ p s1 s2 _ hsteps ⟨h1, h2, h3⟩ => by
      obtain ⟨h1', h2', h3'⟩ := hsteps.ended h1
      exact ⟨h1', h2'.trans h2, h3'.trans h3⟩) h ⟨hend, rfl, rfl⟩
  refine ⟨?_, ?_, ?_⟩
  · rw [h'.rep.state]
    exact hend'
  · rw [h'.rep.reads, h.rep.reads, hreads]
  · rw [h'.rep.taken, h.rep.taken, hframes]

/-- A socket that has left the connection never comes back to it: whatever happens, no more bytes
go to the upper layer, and no more are taken from it. -/
theorem run_ended (h : Started env c) (events more : List Event)
    (hend : (c.run env events).state.ended = true) :
    ((c.run env events).run env more).state.ended = true ∧
      ((c.run env events).run env more).reads = (c.run env events).reads ∧
      ((c.run env events).run env more).taken = (c.run env events).taken := by
  obtain ⟨s', h'⟩ := h.run events
  exact run_of_ended env more h' hend

/-- A socket that was closed while it connected takes no byte. -/
theorem run_ended_connect :
    (((utpConnect .still 7 100).run .still [.call .close]).run .still
      [.call (.write [1, 2, 3])]).taken = [] :=
  (run_ended (.connect 7 100) [.call .close] _ (by decide +kernel)).2.2

end Conn

end EChannel.LibUtp
