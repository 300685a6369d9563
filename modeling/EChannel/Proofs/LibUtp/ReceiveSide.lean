import EChannel.Proofs.LibUtp.AckSide

/-!
# `EChannel.Proofs.LibUtp.ReceiveSide`: what the payload of a packet does

A packet that is expected next is read and taken, and after it the packets of the reorder buffer
that are in order now; one that comes too early is held. `reorder_count` is the number of packets
in the reorder buffer (`Counted`), so that the loop that takes them ends with the next slot
empty.

While the loop is at its head, the slot of the next frame may still be occupied. `Draining` is
`Rep` but for that slot.
-/

set_option autoImplicit false

namespace EChannel.LibUtp

open SlidingWindow

/-- `reorder_count` counts the packets in the reorder buffer, until the last frame was taken. -/
def Counted (c : Conn) (s : FrameSocket) : Prop :=
  s.eof = false → c.reorderCount = c.inbuf.occupied ((c.ackNr.toNat : Int) + 1)

/-- No frame is being read, and the next one has not come. -/
structure Settled (s : FrameSocket) : Prop where
  reading : s.rcv.reading = none
  held : s.eof = false → s.rcv.held s.rcv.next = none

/-- A quiet step leaves the receiver settled. -/
theorem Settled.of_quiet {s s' : FrameSocket} (h : Settled s) (hq : Quiet s s') : Settled s' := by
  refine ⟨by rw [hq.rcv]; exact h.reading, fun heof => ?_⟩
  rw [hq.rcv]
  exact h.held (hq.eof.symm.trans heof)

namespace Conn

variable (env : Env) {p : Option Segment} {seg : Segment} {c c' : Conn} {s s' : FrameSocket}

/-- The count depends on the receiving members only. -/
theorem counted_of_view (h : Counted c s) (hview : c'.recvView = c.recvView)
    (hsame : s'.eof = s.eof) : Counted c' s' := by
  intro heof
  have hcount := h (hsame.symm.trans heof)
  have h1 : c'.reorderCount = c.reorderCount := congrArg RecvView.reorderCount hview
  have h2 : c'.inbuf = c.inbuf := congrArg RecvView.inbuf hview
  have h3 : c'.ackNr = c.ackNr := congrArg RecvView.ackNr hview
  rw [h1, h2, h3, hcount]

/-- `c'` shows a state that `s` reaches, with the window where it was. -/
def Received (p : Option Segment) (s : FrameSocket) (c' : Conn) : Prop :=
  ∃ s', FrameSocket.Steps p s s' ∧ Rep c' s' ∧ FrameSocket.Extends s s' ∧ Counted c' s' ∧ Settled s'

/-- An acknowledgment is owed from now on. -/
theorem Received.scheduleAck (h : Received p s c') (hsync : s.synced = true) :
    Received p s c'.scheduleAck := by
  obtain ⟨s', hs, hrep, hext, hcount, hset⟩ := h
  have hne := hrep.ok.state_ne_synSent (hs.synced hsync)
  exact ⟨s', hs, { hrep with pending := fun _ => hne }, hext, hcount, hset⟩

/-! ### Reading -/

/-- A frame is passed to the upper layer. -/
def startReading (s : FrameSocket) (x : Frame) : FrameSocket :=
  { s with
    rcv := { s.rcv with reading := some x }
    reads := if s.state = .finSent then s.reads else s.reads ++ x.body }

/-- The slots do not show the frame that is being read. -/
theorem recvRep_reading (h : Rep c s) (hsync : s.synced = true) (x : Frame) :
    RecvRep c.ackNr c.inbuf s.synced s.irs { s.rcv with reading := some x } s.eof := by
  refine { h.recv with unsynced := fun hno => ?_ }
  rw [hsync] at hno
  cases hno

/-- The read callback, if it is made. -/
theorem post_sim (h : Rep c s) (hsync : s.synced = true) (x : Frame)
    (hok : (startReading s x).Ok) :
    Sim StaysOpen none c (startReading s x) (c.post env x.body) := by
  have hrecv := recvRep_reading h hsync x
  unfold post
  split
  · rename_i hcond
    have hst : s.state ≠ .finSent := fun hst => hcond.2 (h.state.trans hst)
    have hrep : Rep { c.emit (.onRead x.body) with callbacks := c.callbacks + 1 }
        (startReading s x) :=
      { h with
        ok := hok
        recv := hrecv
        reads := by
          show (c.emit (.onRead x.body)).reads = if s.state = .finSent then _ else _
          rw [reads_emit, if_neg hst, h.reads]
          rfl
        taken := by
          show (c.emit (.onRead x.body)).taken = _
          rw [taken_emit]
          exact (List.append_nil _).trans h.taken
        out := by
          show (c.emit (.onRead x.body)).datagrams = _
          rw [datagrams_emit]
          exact (List.append_nil _).trans h.out }
    exact Sim.of_view (d := { c.emit (.onRead x.body) with callbacks := c.callbacks + 1 }) rfl
      (calls_sim env (env.reply c.callbacks) hrep)
  · rename_i hcond
    -- Nothing is read when there are no bytes, or after the close.
    have hreads : s.reads = if s.state = .finSent then s.reads else s.reads ++ x.body := by
      split
      · rfl
      · rename_i hst
        have hnil : x.body = [] := by
          by_contra hne
          exact hcond ⟨hne, fun h' => hst (h.state.symm.trans h')⟩
        rw [hnil, List.append_nil]
    have hrep : Rep c (startReading s x) :=
      { h with ok := hok, recv := hrecv, reads := h.reads.trans hreads }
    exact (Sim.of_rep hrep rfl).stays

/-! ### Draining -/

/-- At the head of the loop: `Rep`, but for the slot of the next frame. -/
structure Draining (c : Conn) (s : FrameSocket) : Prop where
  rep : Rep { c with inbuf := c.inbuf.put ((c.ackNr.toNat : Int) + 1) none } s
  slot : s.eof = false →
    c.inbuf.get ((c.ackNr.toNat : Int) + 1) = (s.rcv.held s.rcv.next).map Frame.body

/-- With the slot empty, nothing is missing. -/
theorem Draining.rep_of_none (h : Draining c s)
    (hnone : c.inbuf.get ((c.ackNr.toNat : Int) + 1) = none) : Rep c s := by
  have hput : c.inbuf.put ((c.ackNr.toNat : Int) + 1) none = c.inbuf := by
    conv_lhs => rw [← hnone]
    exact RingBuffer.put_get_self _ _
  have := h.rep
  rwa [hput] at this

/-- The frame that was read is taken. -/
def takeReading (s : FrameSocket) (x : Frame) : FrameSocket :=
  { s with rcv :=
    { s.rcv with next := s.rcv.next + 1, got := s.rcv.got ++ [x], reading := none } }

/-- After a frame was taken the loop is at its head. -/
theorem draining_take (h : Rep c s) (hsync : s.synced = true) (heof : s.eof = false) (x : Frame)
    (hok : (takeReading s x).Ok) : Draining { c with ackNr := c.ackNr + 1 } (takeReading s x) := by
  have hbits : c.inbuf.bits ≤ 16 := Nat.le_trans h.recv.bits (by decide)
  have hsize := h.recv.size
  have hwire := sameWire_succ c.ackNr
  have hslots := h.recv.slots heof
  -- The slots behind the new `ack_nr` are those behind the old one, one further.
  have hget (j : Nat) (hj : j + 1 < c.inbuf.size) :
      c.inbuf.get (((c.ackNr + 1).toNat : Int) + 1 + j) =
        (s.rcv.held (s.rcv.next + 1 + j)).map Frame.body := by
    have hw : SameWire (((c.ackNr + 1).toNat : Int) + 1 + j)
        ((c.ackNr.toNat : Int) + 1 + (j + 1 : Nat)) := by
      unfold SameWire at hwire ⊢
      omega
    rw [get_wire hbits hw, hslots (j + 1) (by omega) hj]
    congr 2
    omega
  have hlast : c.inbuf.get ((c.ackNr + 1).toNat : Int) = none := by
    rw [get_wire hbits hwire]
    exact h.next heof
  refine ⟨{ h with ok := hok, recv := ?_, next := ?_ }, fun _ => ?_⟩
  · constructor
    case bits => exact h.recv.bits
    case size => exact hsize
    case ack =>
      intro _
      show c.ackNr + 1 = s.irs + UInt16.ofNat (s.rcv.next + 1)
      rw [h.recv.ack hsync, UInt16.ofNat_add, UInt16.add_assoc]
      rfl
    case slots =>
      intro _ j hj hlt
      have hlt' : j < c.inbuf.size := hlt
      show (c.inbuf.put (((c.ackNr + 1).toNat : Int) + 1) none).get
        (((c.ackNr + 1).toNat : Int) + 1 + j) = (s.rcv.held (s.rcv.next + 1 + j)).map Frame.body
      rw [RingBuffer.get_put_of_ne _ (by omega) (by omega) (by omega)]
      by_cases hround : j + 1 < c.inbuf.size
      · exact hget j hround
      · -- One round behind is the frame just taken, and nothing is held beyond.
        have hbeyond := h.recv.beyond heof (s.rcv.next + 1 + j) (by omega)
        rw [hbeyond]
        have hcongr : c.inbuf.get (((c.ackNr + 1).toNat : Int) + 1 + j) =
            c.inbuf.get ((c.ackNr + 1).toNat : Int) := by
          refine RingBuffer.get_congr ?_
          rw [show ((c.ackNr + 1).toNat : Int) + 1 + j =
            ((c.ackNr + 1).toNat : Int) + c.inbuf.size by omega]
          exact Int.add_emod_right _ _
        rw [hcongr, hlast]
        rfl
    case last =>
      intro _
      show (c.inbuf.put (((c.ackNr + 1).toNat : Int) + 1) none).get ((c.ackNr + 1).toNat : Int) =
        none
      rw [RingBuffer.get_put_of_ne _ (by omega) (by omega) (by omega)]
      exact hlast
    case beyond =>
      intro _ k hk
      have hk' : s.rcv.next + 1 + c.inbuf.size ≤ k := hk
      exact h.recv.beyond heof k (by omega)
    case unsynced =>
      intro hno
      rw [show s.synced = false from hno] at hsync
      cases hsync
  · intro _
    exact RingBuffer.get_put_self _ _ _
  · have := hget 0 (by omega)
    rw [show ((c.ackNr + 1).toNat : Int) + 1 + (0 : Nat) = ((c.ackNr + 1).toNat : Int) + 1 by omega]
      at this
    exact this

/-- The count does not change when `ack_nr` moves on. -/
theorem counted_take (hbits : c.inbuf.bits ≤ 16) :
    c.inbuf.occupied (((c.ackNr + 1).toNat : Int) + 1) =
      c.inbuf.occupied ((c.ackNr.toNat : Int) + 1) := by
  rw [← RingBuffer.occupied_succ _ ((c.ackNr.toNat : Int) + 1)]
  refine RingBuffer.occupied_congr (emod_size_of_wire hbits ?_)
  have := sameWire_succ c.ackNr
  unfold SameWire at this ⊢
  omega

/-- The last frame was taken: from here on the buffer does not matter. -/
theorem rep_eof (h : Draining c s) {st : ConnState} (r : RoundTrip)
    (hst : st = .finSent ∨ st = .gotFin)
    (hok : ({ s with eof := true, state := st } : FrameSocket).Ok) :
    Rep { c with state := st, rtt := r } { s with eof := true, state := st } := by
  refine
    { h.rep with
      ok := hok
      state := rfl
      room := fun hopen => ?_
      recv := { h.rep.recv with
        slots := fun hno => by cases hno
        last := fun hno => by cases hno
        beyond := fun hno => by cases hno
        unsynced := fun hno => ?_ }
      next := fun hno => by cases hno
      pending := fun _ => ?_ }
  · rcases hst with rfl | rfl <;> rcases hopen with hopen | hopen <;> cases hopen
  · have := (hok.eof rfl).1
    rw [show ({ s with eof := true, state := st } : FrameSocket).synced = s.synced from rfl, hno]
      at this
    cases this
  · rcases hst with rfl | rfl <;> simp

/-- The end of the peer's frames is reported and acknowledged. -/
theorem reachEof_rep (h : Draining c s) (hopen : s.Receiving) (hsync : s.synced = true)
    (hidle : s.rcv.reading = none) (hfin : c.gotFin = true ∧ c.eofPkt = c.ackNr) :
    (c.reachEof env).reorderCount = 0 ∧
      ∃ s', FrameSocket.Steps none s s' ∧ Rep (c.reachEof env) s' ∧ s'.eof = true ∧
        s'.rcv = s.rcv := by
  obtain ⟨f, hf⟩ : ∃ f, s.fin = some f := by
    have hsome := h.rep.gotFin
    rw [show c.gotFin = true from hfin.1] at hsome
    exact Option.isSome_iff_exists.mp hsome.symm
  have hlast : f = s.irs + UInt16.ofNat s.rcv.next := by
    have heof : c.eofPkt = f := h.rep.eofPkt f hf
    have hack : c.ackNr = s.irs + UInt16.ofNat s.rcv.next := h.rep.recv.ack hsync
    rw [← heof, hfin.2, hack]
  have hstep := FrameSocket.Step.reachEof (p := none) s f hopen hsync hidle hf hlast
  have hok := h.rep.ok.step hstep
  have hend : ∃ s', FrameSocket.Steps none s s' ∧ s'.eof = true ∧
      s'.synced = true ∧ s'.rcv = s.rcv ∧
      Rep (if c.state ≠ .finSent then
        ({ c with
          state := .gotFin
          rtt := { c.rtt with
            rtoTimeout := c.currentMs + UInt64.ofNat (min (uint (c.rtt.rto * 3)) 60) } } :
          Conn).callback env (.onStateChange .eof)
      else c) s' := by
    by_cases hst : s.state = .finSent
    · have hc : c.state = .finSent := h.rep.state.trans hst
      rw [if_neg (by simpa using hc)]
      rw [if_pos hst] at hstep hok
      refine ⟨_, .single hstep, rfl, hsync, rfl, ?_⟩
      have hself : ({ c with state := .finSent, rtt := c.rtt } : Conn) = c := by rw [← hc]
      have := rep_eof h c.rtt (Or.inl rfl) hok
      rwa [hself] at this
    · have hc : c.state ≠ .finSent := fun hno => hst (h.rep.state.symm.trans hno)
      rw [if_pos hc]
      rw [if_neg hst] at hstep hok
      have hrep := rep_eof h { c.rtt with
        rtoTimeout := c.currentMs + UInt64.ofNat (min (uint (c.rtt.rto * 3)) 60) } (Or.inr rfl) hok
      obtain ⟨s', hs, hrep', -, hq, -⟩ := callback_sim (p := none) env hrep
        (e := .onStateChange .eof) ⟨rfl, rfl, rfl⟩
      exact ⟨s', (Relation.ReflTransGen.single hstep).trans hs, hq.eof, (hq.synced hsync).1, hq.rcv,
        hrep'⟩
  dsimp only [reachEof]
  rw [if_pos hfin]
  refine ⟨rfl, ?_⟩
  obtain ⟨s', hs, heof, hsync', hrcv, hrep⟩ := hend
  generalize (if c.state ≠ .finSent then _ else c) = c1 at hrep ⊢
  have hne := hrep.ok.state_ne_synSent hsync'
  obtain ⟨s'', hs', hrep', -, hq, -⟩ := sendAck_sim (p := none) env hrep hne
  exact ⟨s'', hs.trans hs', { hrep' with }, hq.eof.trans heof, hq.rcv.trans hrcv⟩

/-- The loop that takes the packets that are in order now. -/
theorem drainLoop_rep (n : Nat) {c : Conn} {s : FrameSocket} (h : Draining c s)
    (hcount : Counted c s) (hopen : s.Receiving) (heof : s.eof = false) (hsync : s.synced = true)
    (hidle : s.rcv.reading = none) (hn : c.reorderCount < n) :
    ∃ s', FrameSocket.Steps none s s' ∧ Rep (drainLoop env n c) s' ∧
      Counted (drainLoop env n c) s' ∧ Settled s' := by
  induction n generalizing c s with
  | zero => omega
  | succ n ih =>
    dsimp only [drainLoop]
    by_cases hfin : c.gotFin = true ∧ c.eofPkt = c.ackNr
    · obtain ⟨hzero, s', hs, hrep, heof', hrcv⟩ := reachEof_rep env h hopen hsync hidle hfin
      rw [if_pos hzero]
      have hno : s'.eof ≠ false := by rw [heof']; simp
      exact ⟨s', hs, hrep, fun hf => absurd hf hno, by rw [hrcv]; exact hidle,
        fun hf => absurd hf hno⟩
    · have hsame : c.reachEof env = c := if_neg hfin
      rw [hsame]
      -- The loop ends when the next slot is empty.
      have hdone (hnone : c.inbuf.get ((c.ackNr.toNat : Int) + 1) = none) :
          ∃ s', FrameSocket.Steps none s s' ∧ Rep c s' ∧ Counted c s' ∧ Settled s' := by
        have hslot := h.slot heof
        rw [hnone] at hslot
        exact ⟨s, .refl, h.rep_of_none hnone, hcount, hidle,
          fun _ => Option.map_eq_none_iff.mp hslot.symm⟩
      split
      · rename_i hzero
        -- No packet is left in the buffer.
        have hnone : c.inbuf.get ((c.ackNr.toNat : Int) + 1) = none := by
          have hocc : c.inbuf.occupied ((c.ackNr.toNat : Int) + 1) = 0 :=
            (hcount heof).symm.trans hzero
          have := RingBuffer.get_of_occupied_eq_zero hocc (k := 0) c.inbuf.size_pos
          rwa [show (c.ackNr.toNat : Int) + 1 + (0 : Nat) = (c.ackNr.toNat : Int) + 1 by omega]
            at this
        exact hdone hnone
      · rename_i hpos
        split
        · exact hdone ‹_›
        · rename_i b hget
          obtain ⟨x, hheld, rfl⟩ : ∃ x, s.rcv.held s.rcv.next = some x ∧ x.body = b := by
            have hslot := h.slot heof
            rw [hget] at hslot
            exact Option.map_eq_some_iff.mp hslot.symm
          have hread : FrameSocket.Step none s (startReading s x) :=
            .readHeld s x hopen hsync heof hidle hheld
          obtain ⟨s2, hs2, hrep2, hview, hq, hstay⟩ := post_sim env h.rep hsync x
            (h.rep.ok.step hread)
          generalize ({ c with inbuf := c.inbuf.put ((c.ackNr.toNat : Int) + 1) none } : Conn).post
            env x.body = c2 at hrep2 hview ⊢
          have hreading : s2.rcv.reading = some x := by rw [hq.rcv]; rfl
          have heof2 : s2.eof = false := hq.eof.trans heof
          have hsync2 : s2.synced = true := (hq.synced hsync).1
          have htake : FrameSocket.Step none s2 (takeReading s2 x) := .take s2 x hreading
          have hdrain := draining_take hrep2 hsync2 heof2 x (hrep2.ok.step htake)
          have hcount2 : c2.reorderCount = c.reorderCount := congrArg RecvView.reorderCount hview
          have hbuf2 : c2.inbuf = c.inbuf.put ((c.ackNr.toNat : Int) + 1) none :=
            congrArg RecvView.inbuf hview
          have hack2 : c2.ackNr = c.ackNr := congrArg RecvView.ackNr hview
          rw [assert_of _ (by rw [hcount2]; omega)]
          have hocc : c2.inbuf.occupied ((c2.ackNr.toNat : Int) + 1) + 1 = c2.reorderCount := by
            have hput := RingBuffer.occupied_put c.inbuf ((c.ackNr.toNat : Int) + 1) none (k := 0)
              c.inbuf.size_pos
            rw [show (c.ackNr.toNat : Int) + 1 + (0 : Nat) = (c.ackNr.toNat : Int) + 1 by omega,
              hget] at hput
            rw [hbuf2, hack2, hcount2, hcount heof]
            exact hput
          obtain ⟨s3, hs3, hrep3, hcount3, hset3⟩ := ih
            (c := { c2 with ackNr := c2.ackNr + 1, reorderCount := c2.reorderCount - 1 })
            (s := takeReading s2 x) ⟨{ hdrain.rep with }, hdrain.slot⟩
            (fun _ => by
              show c2.reorderCount - 1 = c2.inbuf.occupied (((c2.ackNr + 1).toNat : Int) + 1)
              rw [counted_take (Nat.le_trans hrep2.recv.bits (by decide))]
              omega)
            (hstay hopen) heof2 hsync2 rfl
            (by show c2.reorderCount - 1 < n; omega)
          exact ⟨s3, ((Relation.ReflTransGen.single hread).trans hs2).trans
            ((Relation.ReflTransGen.single htake).trans hs3), hrep3, hcount3, hset3⟩

/-! ### Behind the last frame -/

/-- Behind the last frame the reorder buffer may be any. -/
theorem rep_past (h : Rep c s) (heof : s.eof = true) {b : SizableCircularBuffer (List UInt8)}
    (hbits : b.bits ≤ 11) (hsize : 16 ≤ b.size) (r : Nat) :
    Rep { c with inbuf := b, reorderCount := r } s := by
  have hno : s.eof ≠ false := by rw [heof]; simp
  refine
    { h with
      recv := { h.recv with
        bits := hbits
        size := hsize
        slots := fun hf => absurd hf hno
        last := fun hf => absurd hf hno
        beyond := fun hf => absurd hf hno
        unsynced := fun hf => absurd ((h.ok.eof heof).1.symm.trans hf) (by simp) }
      next := fun hf => absurd hf hno }

/-- A frame behind the last one is taken. -/
theorem rep_pastTake (h : Rep c s) (heof : s.eof = true)
    (hok : ({ s with past := true, rcv := { s.rcv with next := s.rcv.next + 1 } } :
      FrameSocket).Ok) :
    Rep { c with ackNr := c.ackNr + 1 }
      { s with past := true, rcv := { s.rcv with next := s.rcv.next + 1 } } := by
  have hno : s.eof ≠ false := by rw [heof]; simp
  refine
    { h with
      ok := hok
      recv := { h.recv with
        ack := fun hsync => ?_
        slots := fun hf => absurd hf hno
        last := fun hf => absurd hf hno
        beyond := fun hf => absurd hf hno
        unsynced := fun hf => absurd ((h.ok.eof heof).1.symm.trans hf) (by simp) }
      next := fun hf => absurd hf hno }
  show c.ackNr + 1 = s.irs + UInt16.ofNat (s.rcv.next + 1)
  rw [h.recv.ack hsync, UInt16.ofNat_add, UInt16.add_assoc]
  rfl

/-- Behind the last frame the loop reads nothing. -/
theorem drainLoop_past (seg : Segment) (n : Nat) {c : Conn} {s : FrameSocket} (h : Rep c s)
    (hst : s.state = .finSent) (heof : s.eof = true) (hpast : s.past = true)
    (hfront : s.Front) (hidle : s.rcv.reading = none) :
    Received (some seg) s (drainLoop env n c) := by
  induction n generalizing c s with
  | zero =>
    have hno : s.eof ≠ false := by rw [heof]; simp
    exact ⟨s, .refl, h, FrameSocket.Extends.refl s, fun hf => absurd hf hno, hidle,
      fun hf => absurd hf hno⟩
  | succ n ih =>
    have hsync : s.synced = true := (h.ok.eof heof).1
    have hno : s.eof ≠ false := by rw [heof]; simp
    have hdone : Received (some seg) s c :=
      ⟨s, .refl, h, FrameSocket.Extends.refl s, fun hf => absurd hf hno, hidle,
        fun hf => absurd hf hno⟩
    dsimp only [drainLoop]
    have hc : c.state = .finSent := h.state.trans hst
    by_cases hfin : c.gotFin = true ∧ c.eofPkt = c.ackNr
    · have hreach : c.reachEof env = { c.sendAck env false with reorderCount := 0 } := by
        dsimp only [reachEof]
        rw [if_pos hfin, if_neg (by simpa using hc)]
      rw [hreach, if_pos rfl]
      have hsend := sendAck_sim (p := none) env h (h.ok.state_ne_synSent hsync)
      obtain ⟨s', hs, hrep, -, hq, -, hext⟩ := hsend.of_none (p := some seg) hfront
      have hno' : s'.eof ≠ false := by rw [hq.eof]; exact hno
      exact ⟨s', hs, { hrep with }, hext, fun hf => absurd hf hno', by rw [hq.rcv]; exact hidle,
        fun hf => absurd hf hno'⟩
    · have hsame : c.reachEof env = c := if_neg hfin
      rw [hsame]
      split
      · exact hdone
      · rename_i hpos
        split
        · exact hdone
        · rename_i b hget
          have hpost : ({ c with inbuf := c.inbuf.put ((c.ackNr.toNat : Int) + 1) none } :
              Conn).post env b = { c with inbuf := c.inbuf.put ((c.ackNr.toNat : Int) + 1) none } :=
            if_neg fun hno => hno.2 hc
          rw [hpost, assert_of _ (Nat.pos_of_ne_zero hpos)]
          have h1 := rep_past h heof (b := c.inbuf.put ((c.ackNr.toNat : Int) + 1) none)
            h.recv.bits h.recv.size (c.reorderCount - 1)
          have hstep : FrameSocket.Step (some seg) s
              { s with past := true, rcv := { s.rcv with next := s.rcv.next + 1 } } :=
            .pastEof s seg (s.rcv.next + 1) rfl heof hsync (Or.inl hpast)
          have h2 := rep_pastTake h1 heof (h.ok.step hstep)
          obtain ⟨s', hs, hrep, hext, hcount, hset⟩ := ih h2 hst heof rfl hfront hidle
          exact ⟨s', hs.head hstep, hrep, ⟨hext.isn, hext.base, hext.acked, hext.length_le⟩, hcount,
            hset⟩

/-! ### The payload -/

/-- The next expected packet. -/
theorem inOrder_received (h : Rep c s) (hfront : s.Front) (hcount : Counted c s)
    (hset : Settled s) (hopen : s.Receiving) {flags : PacketType} {data : List UInt8}
    (hdel : s.Delivers seg s.rcv.next ⟨flags, data⟩) :
    Received (some seg) s (c.inOrder env data) := by
  have hsync := h.ok.synced_of_receiving hopen
  refine Received.scheduleAck ?_ hsync
  cases heof : s.eof with
  | false =>
    have hread : FrameSocket.Step (some seg) s (startReading s ⟨flags, data⟩) :=
      .read s seg ⟨flags, data⟩ rfl hopen hsync heof hset.reading hdel
    obtain ⟨s2, hs2, hrep2, hview, hq, hstay⟩ := post_sim env h hsync ⟨flags, data⟩
      (h.ok.step hread)
    have hcount2 := counted_of_view hcount hview hq.eof
    have heof2 : s2.eof = false := hq.eof.trans heof
    have hsync2 : s2.synced = true := (hq.synced hsync).1
    have htake : FrameSocket.Step none s2 (takeReading s2 ⟨flags, data⟩) :=
      .take s2 ⟨flags, data⟩ (by rw [hq.rcv]; rfl)
    have hdrain := draining_take hrep2 hsync2 heof2 ⟨flags, data⟩ (hrep2.ok.step htake)
    have hcount3 : Counted { c.post env data with ackNr := (c.post env data).ackNr + 1 }
        (takeReading s2 ⟨flags, data⟩) := by
      intro _
      show (c.post env data).reorderCount = _
      rw [counted_take (Nat.le_trans hrep2.recv.bits (by decide))]
      exact hcount2 heof2
    obtain ⟨s4, hs4, hrep4, hcount4, hset4⟩ := drainLoop_rep env
      ((c.post env data).reorderCount + 1) hdrain hcount3 (hstay hopen) heof2 hsync2 rfl
      (Nat.lt_succ_self _)
    -- Behind the read there is no packet any more.
    have hs : FrameSocket.Steps none (startReading s ⟨flags, data⟩) s4 :=
      hs2.trans ((Relation.ReflTransGen.single htake).trans hs4)
    have hfront1 : (startReading s ⟨flags, data⟩).Front := hfront
    have hext := hfront1.extends_steps hs
    exact ⟨s4, (Relation.ReflTransGen.single hread).trans hs.of_none, hrep4,
      ⟨hext.isn, hext.base, hext.acked, hext.length_le⟩, hcount4, hset4⟩
  | true =>
    have hst := h.ok.finSent_of_eof hopen heof
    have hpost : c.post env data = c := if_neg fun hno => hno.2 (h.state.trans hst)
    rw [hpost]
    have hstep : FrameSocket.Step (some seg) s
        { s with past := true, rcv := { s.rcv with next := s.rcv.next + 1 } } :=
      .pastEof s seg (s.rcv.next + 1) rfl heof hsync (Or.inr ⟨_, _, hdel⟩)
    have hrep := rep_pastTake h heof (h.ok.step hstep)
    obtain ⟨s', hs, hrep', hext, hcount', hset'⟩ :=
      drainLoop_past env seg (c.reorderCount + 1) hrep hst heof rfl hfront hset.reading
    exact ⟨s', hs.head hstep, hrep', ⟨hext.isn, hext.base, hext.acked, hext.length_le⟩, hcount',
      hset'⟩

/-! ### Packets that come too early -/

/-- The sequence number of a packet that is `n` past the expected one, as an index. -/
theorem sameWire_peer {seq ackNr : UInt16} {n : Nat} (hseq : seq = ackNr + 1 + UInt16.ofNat n) :
    SameWire seq.toNat ((ackNr.toNat : Int) + 1 + n) := by
  have hnat : seq.toNat = ((ackNr.toNat + 1) % 65536 + n % 65536) % 65536 := by
    rw [hseq, UInt16.toNat_add, UInt16.toNat_ofNat', UInt16.toNat_add]
    rfl
  show _ % 65536 = _ % 65536
  omega

/-- A larger reorder buffer shows the same frames. -/
theorem rep_ensureSize (h : Rep c s) (hcount : Counted c s) (hsync : s.synced = true)
    {seq : UInt16} {n : Nat} (hseq : seq = c.ackNr + 1 + UInt16.ofNat n) (hn : n ≤ 1023) :
    Rep { c with inbuf := SizableCircularBuffer.ensureSize c.inbuf ((seq.toNat : Int) + 1) (n + 1) }
        s ∧
      Counted { c with inbuf :=
        SizableCircularBuffer.ensureSize c.inbuf ((seq.toNat : Int) + 1) (n + 1) } s := by
  have hbits : c.inbuf.bits ≤ 16 := Nat.le_trans h.recv.bits (by decide)
  have hbits' := SizableCircularBuffer.bits_ensureSize_le c.inbuf ((seq.toNat : Int) + 1) (n + 1) 11
    h.recv.bits (by omega)
  have hsize :=
    SizableCircularBuffer.size_le_size_ensureSize c.inbuf ((seq.toNat : Int) + 1) (n + 1)
  have hocc := SizableCircularBuffer.occupied_ensureSize c.inbuf ((seq.toNat : Int) + 1) (n + 1)
  have hget := SizableCircularBuffer.get_ensureSize c.inbuf ((seq.toNat : Int) + 1) (n + 1)
  generalize SizableCircularBuffer.ensureSize c.inbuf ((seq.toNat : Int) + 1) (n + 1) = b at *
  have hwire : SameWire ((seq.toNat : Int) + 1 - (n + 1 : Nat)) ((c.ackNr.toNat : Int) + 1) := by
    have := sameWire_peer hseq
    unfold SameWire at this ⊢
    omega
  have hget' (k : Nat) (hk : k < b.size) : b.get ((c.ackNr.toNat : Int) + 1 + k) =
      if k < c.inbuf.size then c.inbuf.get ((c.ackNr.toNat : Int) + 1 + k) else none := by
    have hw : SameWire ((seq.toNat : Int) + 1 - (n + 1 : Nat) + k)
        ((c.ackNr.toNat : Int) + 1 + k) := by
      unfold SameWire at hwire ⊢
      omega
    rw [← get_wire (Nat.le_trans hbits' (by decide)) hw, ← get_wire hbits hw]
    exact hget k hk
  have hsize16 := h.recv.size
  refine ⟨{ h with recv := ?_, next := ?_ }, fun heof => ?_⟩
  · refine { h.recv with
      bits := hbits'
      size := Nat.le_trans hsize16 hsize
      slots := ?_
      last := ?_
      beyond := ?_
      unsynced := fun hno => ?_ }
    · intro heof j hj hlt
      rw [hget' j hlt]
      split
      · exact h.recv.slots heof j hj ‹_›
      · rw [h.recv.beyond heof (s.rcv.next + j) (by omega)]
        rfl
    · intro heof
      -- The slot of the last frame taken is the last one from the next frame on.
      have hround (b' : SizableCircularBuffer (List UInt8)) (hpos : 0 < b'.size) :
          b'.get c.ackNr.toNat = b'.get ((c.ackNr.toNat : Int) + 1 + (b'.size - 1 : Nat)) := by
        refine RingBuffer.get_congr ?_
        rw [show (c.ackNr.toNat : Int) + 1 + (b'.size - 1 : Nat) = c.ackNr.toNat + b'.size by omega]
        exact (Int.add_emod_right _ _).symm
      rw [hround b (by omega), hget' _ (by omega)]
      split
      · rw [show b.size - 1 = c.inbuf.size - 1 by omega, ← hround c.inbuf (by omega)]
        exact h.recv.last heof
      · rfl
    · intro heof k hk
      have hk' : s.rcv.next + b.size ≤ k := hk
      exact h.recv.beyond heof k (by omega)
    · rw [hsync] at hno
      cases hno
  · intro heof
    have := hget' 0 (by omega)
    rw [if_pos (by omega), show (c.ackNr.toNat : Int) + 1 + (0 : Nat) = (c.ackNr.toNat : Int) + 1 by
      omega, h.next heof] at this
    exact this
  · show c.reorderCount = b.occupied ((c.ackNr.toNat : Int) + 1)
    rw [hcount heof,
      ← RingBuffer.occupied_congr (emod_size_of_wire hbits hwire),
      ← RingBuffer.occupied_congr (emod_size_of_wire (Nat.le_trans hbits' (by decide)) hwire)]
    exact hocc.symm

/-- A frame that comes too early is held in its slot. -/
theorem rep_hold (h : Rep c s) (hcount : Counted c s) (hsync : s.synced = true) {seq : UInt16}
    {n : Nat} (hseq : seq = c.ackNr + 1 + UInt16.ofNat n) (hpos : 0 < n)
    (hn : n + 1 < c.inbuf.size) (hnone : c.inbuf.get seq.toNat = none) (x : Frame)
    (hok : ({ s with rcv :=
      { s.rcv with held := Function.update s.rcv.held (s.rcv.next + n) (some x) } } :
      FrameSocket).Ok) :
    Rep { c with
        inbuf := c.inbuf.put seq.toNat (some x.body)
        reorderCount := c.reorderCount + 1 }
      { s with rcv :=
        { s.rcv with held := Function.update s.rcv.held (s.rcv.next + n) (some x) } } ∧
      Counted { c with
        inbuf := c.inbuf.put seq.toNat (some x.body)
        reorderCount := c.reorderCount + 1 }
      { s with rcv :=
        { s.rcv with held := Function.update s.rcv.held (s.rcv.next + n) (some x) } } := by
  have hbits : c.inbuf.bits ≤ 16 := Nat.le_trans h.recv.bits (by decide)
  have hwire := sameWire_peer hseq
  rw [get_wire hbits hwire] at hnone
  rw [put_wire hbits hwire]
  refine ⟨{ h with ok := hok, recv := ?_, next := ?_ }, fun heof => ?_⟩
  · refine { h.recv with slots := ?_, last := ?_, beyond := ?_, unsynced := fun hno => ?_ }
    · intro heof j hj hlt
      have hlt' : j < c.inbuf.size := hlt
      show (c.inbuf.put ((c.ackNr.toNat : Int) + 1 + n) (some x.body)).get
        ((c.ackNr.toNat : Int) + 1 + j) =
        (Function.update s.rcv.held (s.rcv.next + n) (some x) (s.rcv.next + j)).map Frame.body
      by_cases heq : j = n
      · subst heq
        rw [RingBuffer.get_put_self, Function.update_self]
        rfl
      · rw [RingBuffer.get_put_of_ne _ (by omega) (by omega) (by omega),
          Function.update_of_ne (by omega)]
        exact h.recv.slots heof j hj hlt
    · intro heof
      show (c.inbuf.put ((c.ackNr.toNat : Int) + 1 + n) (some x.body)).get c.ackNr.toNat = none
      rw [RingBuffer.get_put_of_ne _ (by omega) (by omega) (by omega)]
      exact h.recv.last heof
    · intro heof k hk
      have hk' : s.rcv.next + c.inbuf.size ≤ k := hk
      show Function.update s.rcv.held (s.rcv.next + n) (some x) k = none
      rw [Function.update_of_ne (by omega)]
      exact h.recv.beyond heof k hk'
    · rw [show s.synced = false from hno] at hsync
      cases hsync
  · intro heof
    show (c.inbuf.put ((c.ackNr.toNat : Int) + 1 + n) (some x.body)).get
      ((c.ackNr.toNat : Int) + 1) = none
    rw [RingBuffer.get_put_of_ne _ (by omega) (by omega) (by omega)]
    exact h.next heof
  · have hput := RingBuffer.occupied_put c.inbuf ((c.ackNr.toNat : Int) + 1) (some x.body) (k := n)
      (by omega)
    rw [hnone] at hput
    show c.reorderCount + 1 = (c.inbuf.put _ _).occupied ((c.ackNr.toNat : Int) + 1)
    rw [hcount heof]
    exact hput.symm

/-- A packet that comes too early. -/
theorem outOfOrder_received (h : Rep c s) (hcount : Counted c s) (hset : Settled s)
    (hopen : s.Receiving) {n : Nat} {flags : PacketType} {data : List UInt8} (hpos : 0 < n)
    (hseq : seg.header.seqNr = c.ackNr + 1 + UInt16.ofNat n)
    (hdel : s.Delivers seg (s.rcv.next + n) ⟨flags, data⟩) :
    Received (some seg) s (c.outOfOrder seg.header data n) := by
  have hsync := h.ok.synced_of_receiving hopen
  have hsame {c : Conn} (h : Rep c s) (hcount : Counted c s) : Received (some seg) s c :=
    ⟨s, .refl, h, FrameSocket.Extends.refl s, hcount, hset⟩
  dsimp only [outOfOrder]
  split
  · exact hsame h hcount
  · split
    · exact hsame h hcount
    · rename_i hle
      obtain ⟨h1, hcount1⟩ := rep_ensureSize h hcount hsync hseq (by omega)
      have hlt := SizableCircularBuffer.lt_size_ensureSize c.inbuf
        ((seg.header.seqNr.toNat : Int) + 1) (n + 1)
      generalize SizableCircularBuffer.ensureSize c.inbuf ((seg.header.seqNr.toNat : Int) + 1)
        (n + 1) = b at h1 hcount1 hlt ⊢
      split
      · exact hsame h1 hcount1
      · rename_i hnot
        have hnone : b.get seg.header.seqNr.toNat = none := by simpa using hnot
        have hslot : b.slot seg.header.seqNr.toNat ≠ b.slot ((c.ackNr.toNat : Int) + 1) := by
          have hbits : b.bits ≤ 16 := Nat.le_trans h1.recv.bits (by decide)
          rw [RingBuffer.slot_eq_iff.mpr (emod_size_of_wire hbits (sameWire_peer hseq))]
          exact RingBuffer.slot_add_ne _ _ hpos (by omega)
        rw [assert_of _ hslot]
        refine Received.scheduleAck ?_ hsync
        have hhold : FrameSocket.Step (some seg) s { s with rcv :=
            { s.rcv with held :=
              Function.update s.rcv.held (s.rcv.next + n) (some ⟨flags, data⟩) } } :=
          .hold s seg (s.rcv.next + n) ⟨flags, data⟩ rfl hsync hdel
        obtain ⟨h2, hcount2⟩ := rep_hold h1 hcount1 hsync hseq hpos hlt hnone ⟨flags, data⟩
          (h.ok.step hhold)
        refine ⟨_, .single hhold, h2, ⟨rfl, rfl, rfl, Nat.le_refl _⟩, hcount2, hset.reading,
          fun heof => ?_⟩
        show Function.update s.rcv.held (s.rcv.next + n) (some ⟨flags, data⟩) s.rcv.next = none
        rw [Function.update_of_ne (by omega)]
        exact hset.held heof

end Conn

end EChannel.LibUtp
