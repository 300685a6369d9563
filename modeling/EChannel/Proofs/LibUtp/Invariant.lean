import EChannel.Proofs.LibUtp.ReceiveSide

/-!
# `EChannel.Proofs.LibUtp.Invariant`: what every entry point keeps

`Inv c s` is what holds between two calls into a socket: `Rep`, the oldest frame waiting for its
acknowledgment, and `reorder_count` right. Every entry point keeps it, for any packet and any
callbacks, and moves the `FrameSocket` by its steps only. `utp_connect` and the accepting of a SYN
establish it.
-/

set_option autoImplicit false

namespace EChannel.LibUtp

open SlidingWindow

/-- What holds of a socket between two calls. -/
structure Inv (c : Conn) (s : FrameSocket) : Prop where
  rep : Rep c s
  front : s.Front
  counted : Counted c s
  settled : Settled s

/-- The packet, after its headers were read, is `seg`. -/
structure IsSegment (packet : List UInt8) (beyond : UInt8) (seg : Segment) : Prop where
  reads : ∃ rest bits, PacketFormatV1.decode packet = some (seg.header, rest) ∧
    PacketType.ofCode seg.header.type = some seg.flags ∧
    (skipExtensions seg.header.ext rest bits).result = some (seg.selack, seg.data)
  beyond_eq : seg.beyond = beyond
  ne_reset : seg.flags ≠ .reset
  ne_syn : seg.flags ≠ .syn

/-- `c'` shows a state that `s` reaches while it works on the packet. -/
def Handled (packet : List UInt8) (beyond : UInt8) (s : FrameSocket) (c' : Conn) : Prop :=
  ∃ p s', (∀ seg, p = some seg → IsSegment packet beyond seg) ∧ FrameSocket.Steps p s s' ∧ Inv c' s'

/-- What a socket does by itself, it may do while it works on any packet. -/
theorem Handled.of_none {packet : List UInt8} {beyond : UInt8} {s s' : FrameSocket} {c' : Conn}
    (hs : FrameSocket.Steps none s s') (h : Inv c' s') : Handled packet beyond s c' :=
  ⟨none, s', fun _ hno => absurd hno (by simp), hs, h⟩

namespace Conn

variable (env : Env) {seg : Segment} {c c' : Conn} {s s' : FrameSocket}

/-- A simulation without a packet keeps the invariant. -/
theorem inv_of_sim {K : FrameSocket → FrameSocket → Prop} (h : Inv c s) (hsim : Sim K none c s c') :
    ∃ s', FrameSocket.Steps none s s' ∧ Inv c' s' := by
  obtain ⟨s', hs, hrep, hview, hq, -⟩ := hsim
  refine ⟨s', hs, hrep, (h.front.extends_steps hs).front h.front,
    counted_of_view h.counted hview hq.eof, ?_⟩
  exact h.settled.of_quiet hq

/-- Fields that show nothing may change. -/
theorem inv_of_rep (h : Inv c s) (hrep : Rep c' s) (hview : c'.recvView = c.recvView) : Inv c' s :=
  ⟨hrep, h.front, counted_of_view h.counted hview rfl, h.settled⟩

/-! ### A packet -/

/-- The payload of a packet that is `n` past the expected one. -/
theorem receive_inv (h : Inv c s) {n : Nat} (hn : n < reorderBufferMaxSize)
    (hseq : seg.header.seqNr = c.ackNr + 1 + UInt16.ofNat n) (hreset : seg.flags ≠ .reset)
    (hsyn : seg.flags ≠ .syn) :
    ∃ s', FrameSocket.Steps (some seg) s s' ∧ Inv (c.receive env seg n) s' := by
  have hsame : ∃ s', FrameSocket.Steps (some seg) s s' ∧ Inv c s' := ⟨s, .refl, h⟩
  dsimp only [receive]
  split
  · exact hsame
  · rename_i hstate
    split
    · rename_i hst
      have hopen : s.Receiving := by
        unfold FrameSocket.Receiving
        rw [← h.rep.state]
        exact hst
      have hsync := h.rep.ok.synced_of_receiving hopen
      have hflags : seg.flags = .data ∨ seg.flags = .fin := by
        cases hf : seg.flags <;> simp_all
      have hdel : s.Delivers seg (s.rcv.next + n) ⟨seg.flags, seg.data⟩ := by
        refine ⟨hflags, rfl, ?_, by omega, by omega⟩
        rw [hseq, h.rep.recv.ack hsync]
        show _ = s.irs + 1 + UInt16.ofNat (s.rcv.next + n)
        simp only [UInt16.ofNat_add]
        grind
      -- The number of the last frame is noted first.
      have hfin : ∃ s1, FrameSocket.Steps (some seg) s s1 ∧ s1.Delivers seg (s1.rcv.next + n)
          ⟨seg.flags, seg.data⟩ ∧ s1.rcv.next = s.rcv.next ∧ s1.Receiving ∧
          Inv (if seg.flags = .fin ∧ c.gotFin = false then
            { c with gotFin := true, eofPkt := seg.header.seqNr } else c) s1 := by
        split
        · rename_i hcond
          have hstep : FrameSocket.Step (some seg) s { s with fin := some seg.header.seqNr } :=
            .sawFin s seg _ _ rfl hcond.1 hsync hdel
          refine ⟨_, .single hstep, hdel, rfl, hopen, ?_, h.front, h.counted,
            ⟨h.settled.reading, h.settled.held⟩⟩
          refine { h.rep with
            ok := h.rep.ok.step hstep
            recv := { h.rep.recv with unsynced := fun hno => ?_ }
            gotFin := rfl
            eofPkt := fun f hf => ?_ }
          · rw [show s.synced = false from hno] at hsync
            cases hsync
          · exact Option.some.inj hf
        · exact ⟨s, .refl, hdel, rfl, hopen, h⟩
      obtain ⟨s1, hs1, hdel1, hnext, hopen1, h1⟩ := hfin
      have hack : (if seg.flags = .fin ∧ c.gotFin = false then
          { c with gotFin := true, eofPkt := seg.header.seqNr } else c).ackNr = c.ackNr := by
        split <;> rfl
      generalize (if seg.flags = .fin ∧ c.gotFin = false then
        { c with gotFin := true, eofPkt := seg.header.seqNr } else c) = c1 at h1 hack ⊢
      have hend : Received (some seg) s1
          (if n = 0 then c1.inOrder env seg.data else c1.outOfOrder seg.header seg.data n) := by
        split
        · rename_i hzero
          rw [hzero] at hdel1
          exact inOrder_received env h1.rep h1.front h1.counted h1.settled hopen1 hdel1
        · rename_i hzero
          exact outOfOrder_received h1.rep h1.counted h1.settled hopen1 (Nat.pos_of_ne_zero hzero)
            (by rw [hack]; exact hseq) hdel1
      obtain ⟨s2, hs2, hrep2, hext, hcount2, hset2⟩ := hend
      exact ⟨s2, hs1.trans hs2, hrep2, hext.front h1.front, hcount2, hset2⟩
    · exact hsame

/-- A socket that does not know its peer takes any sequence number for the expected one. -/
theorem inv_ackNr (h : Inv c s) (hst : s.state = .synSent) (ackNr : UInt16) :
    Inv { c with ackNr := ackNr } s := by
  have hsync := h.rep.ok.unsynced_of_synSent hst
  have hempty := h.rep.recv.unsynced hsync
  have hheld (k : Nat) : s.rcv.held k = none := by rw [(h.rep.ok.unsynced hsync).rcv]
  refine ⟨{ h.rep with recv := ?_, next := fun _ => hempty _ }, h.front, fun hno => ?_, h.settled⟩
  · refine { h.rep.recv with ack := fun hno => ?_, slots := ?_, last := fun _ => hempty _ }
    · rw [hsync] at hno
      cases hno
    · intro _ j _ _
      rw [hempty, hheld]
      rfl
  · show c.reorderCount = c.inbuf.occupied ((ackNr.toNat : Int) + 1)
    rw [h.counted hno, RingBuffer.occupied_of_empty hempty, RingBuffer.occupied_of_empty hempty]

/-- A packet once its headers were read. -/
theorem processSegment_inv (seg : Segment) (h : Inv c s) (time : UInt64)
    (hreset : seg.flags ≠ .reset)
    (hsyn : seg.flags ≠ .syn) :
    ∃ s', FrameSocket.Steps (some seg) s s' ∧ Inv (c.processSegment env seg time false) s' := by
  have hstart : Inv (if c.state = .synSent then { c with ackNr := seg.header.seqNr - 1 } else c) s ∧
      (s.state = .synSent →
        (if c.state = .synSent then { c with ackNr := seg.header.seqNr - 1 } else c).ackNr =
          seg.header.seqNr - 1) := by
    rw [← h.rep.state]
    split
    · exact ⟨inv_ackNr h (h.rep.state.symm.trans ‹_›) _, fun _ => rfl⟩
    · exact ⟨h, fun hst => absurd hst ‹_›⟩
  obtain ⟨h0, hack0⟩ := hstart
  dsimp only [processSegment]
  generalize (if c.state = .synSent then { c with ackNr := seg.header.seqNr - 1 } else c) = c0
    at h0 hack0 ⊢
  have hrep1 : Rep { c0 with lastGotPacket := c0.currentMs } s := { h0.rep with }
  have h1 := inv_of_rep h0 hrep1 rfl
  have hack1 : ({ c0 with lastGotPacket := c0.currentMs } : Conn).ackNr = c0.ackNr := rfl
  generalize ({ c0 with lastGotPacket := c0.currentMs } : Conn) = c1 at h1 hack1 ⊢
  rw [if_neg (by simp)]
  obtain ⟨n, hn⟩ : ∃ n, (seg.header.seqNr - c0.ackNr - 1).toNat = n := ⟨_, rfl⟩
  have hof : UInt16.ofNat n = seg.header.seqNr - c0.ackNr - 1 := by rw [← hn, UInt16.ofNat_toNat]
  have hseq : seg.header.seqNr = c0.ackNr + 1 + UInt16.ofNat n := by grind
  rw [hn]
  split
  · rename_i hle
    -- A socket in `CS_SYN_SENT` never comes here.
    have hne : s.state ≠ .synSent := by
      intro hst
      rw [hack0 hst] at hn
      have : seg.header.seqNr - (seg.header.seqNr - 1) - 1 = 0 := by grind
      rw [this] at hn
      have hbig : reorderBufferMaxSize ≤ (0 : UInt16).toNat := by rw [hn]; exact hle
      exact absurd hbig (by decide)
    split
    · exact ⟨s, .refl, { h1.rep with pending := fun _ => hne }, h1.front, h1.counted, h1.settled⟩
    · exact ⟨s, .refl, h1⟩
  · rename_i hlt
    obtain ⟨s2, hs2, hrep2, hview, hq, hfront2⟩ := processAcks_sim env h1.rep h1.front
      (fun hst => hack1.trans (hack0 hst)) time
    have h2 : Inv (c1.processAcks env seg time) s2 :=
      ⟨hrep2, hfront2, counted_of_view h1.counted hview hq.eof, h1.settled.of_quiet hq⟩
    have hack2 : (c1.processAcks env seg time).ackNr = c0.ackNr :=
      (congrArg RecvView.ackNr hview).trans hack1
    obtain ⟨s3, hs3, h3⟩ := receive_inv env h2 (Nat.lt_of_not_le hlt) (by rw [hack2]; exact hseq)
      hreset hsyn
    exact ⟨s3, hs2.trans hs3, h3⟩

/-- `utp_process_incoming` for a packet that is neither a `ST_RESET` nor a `ST_SYN`. -/
theorem utpProcessIncoming_handled (h : Inv c s) (packet : List UInt8) (beyond : UInt8)
    (hflags : ∀ pf rest, PacketFormatV1.decode packet = some (pf, rest) →
      PacketType.ofCode pf.type ≠ some .reset ∧ PacketType.ofCode pf.type ≠ some .syn) :
    Handled packet beyond s (c.utpProcessIncoming env packet beyond false) := by
  have hclock : Rep (c.readClock env) s := { h.rep with }
  have hinv := inv_of_rep h hclock rfl
  have hsame {c : Conn} (h : Inv c s) : Handled packet beyond s c := .of_none .refl h
  dsimp only [utpProcessIncoming]
  generalize c.readClock env = c' at hinv ⊢
  split
  · exact hsame hinv
  · rename_i pf rest hdec
    split
    · exact hsame hinv
    · rename_i flags htype
      have htick : Rep c'.tick s := { hinv.rep with }
      have h0 := inv_of_rep hinv htick rfl
      generalize c'.tick = c0 at h0 ⊢
      split
      · exact hsame h0
      · have hreset : flags ≠ .reset := fun hno => (hflags pf rest hdec).1 (by rw [htype, hno])
        have hsyn : flags ≠ .syn := fun hno => (hflags pf rest hdec).2 (by rw [htype, hno])
        rw [assert_of _ hreset]
        have hrep : Rep { c0 with extensions :=
            (skipExtensions pf.ext rest c0.extensions).extensions } s := { h0.rep with }
        have h1 := inv_of_rep h0 hrep rfl
        cases hscan : (skipExtensions pf.ext rest c0.extensions).result with
        | none => exact hsame h1
        | some r =>
          obtain ⟨s', hs, h'⟩ := processSegment_inv env
            { header := pf, flags, selack := r.1, data := r.2, beyond } h1
              (env.micros c'.ticks) hreset
            hsyn
          refine ⟨_, s', fun seg hseg => ?_, hs, h'⟩
          obtain rfl : _ = seg := Option.some.inj hseg
          exact ⟨⟨rest, c0.extensions, hdec, htype, hscan⟩, rfl, hreset, hsyn⟩

/-- A `ST_RESET` ends the connection. -/
theorem processReset_sim (h : Rep c s) : Sim AnyState none c s (c.processReset env) := by
  have hst : (if c.state = .finSent then ConnState.destroy else .reset) = .reset ∨
      (if c.state = .finSent then ConnState.destroy else .reset) = .destroy ∧
        c.state.closable = false := by
    split
    · rename_i hfin
      exact Or.inr ⟨rfl, congrArg ConnState.closable hfin⟩
    · exact Or.inl rfl
  dsimp only [processReset]
  exact giveUp_sim env h hst ⟨rfl, rfl, rfl⟩

/-- `utp_process_udp`, for any packet. -/
theorem utpProcessUdp_handled (h : Inv c s) (packet : List UInt8) (beyond : UInt8) :
    Handled packet beyond s (c.utpProcessUdp env packet beyond) := by
  have hsame : Handled packet beyond s c := .of_none .refl h
  unfold utpProcessUdp
  split
  · exact hsame
  · rename_i pf rest hdec
    split
    · split
      · obtain ⟨s', hs, h'⟩ := inv_of_sim h (processReset_sim env h.rep)
        exact .of_none hs h'
      · exact hsame
      · rename_i hreset hsyn
        refine utpProcessIncoming_handled env h packet beyond fun pf' rest' hdec' => ?_
        rw [hdec] at hdec'
        obtain ⟨rfl, rfl⟩ := Prod.mk.inj (Option.some.inj hdec')
        exact ⟨hreset, hsyn⟩
    · exact hsame

/-! ### The other entry points -/

/-- A deferred ack keeps the invariant. -/
theorem issueDeferredAck_inv (h : Inv c s) :
    ∃ s', FrameSocket.Steps none s s' ∧ Inv (c.issueDeferredAck env) s' := by
  unfold issueDeferredAck
  split
  · exact inv_of_sim h (sendAck_sim env h.rep (h.rep.pending ‹_›))
  · exact ⟨s, .refl, h⟩

/-- The check of the timeouts keeps the invariant. -/
theorem checkTimeouts_inv (h : Inv c s) :
    ∃ s', FrameSocket.Steps none s s' ∧ Inv (c.checkTimeouts env) s' :=
  inv_of_sim h (checkTimeouts_sim env h.rep h.front)

/-- A call of the application keeps the invariant. -/
theorem call_inv (h : Inv c s) (a : Call) :
    ∃ s', FrameSocket.Steps none s s' ∧ Inv (c.call env a) s' :=
  inv_of_sim h (call_sim env h.rep a)

/-! ### The beginning -/

/-- The socket of frames of `utp_connect`, which has sent its SYN with `d`. -/
def connecting (now : UInt64) (connSeed isn : UInt16) (d : List UInt8) : FrameSocket :=
  { ids := (connSeed.toUInt32, connSeed.toUInt32 + 1)
    state := .synSent
    isn := isn
    snd := ⟨[⟨.syn, []⟩], 0, {0}, ∅⟩
    synced := false
    irs := 0
    rcv := ⟨0, fun _ => none, [], none⟩
    fin := none
    eof := false
    past := false
    reads := []
    out := [d]
    closes := 0
    delays := Delays.new now }

/-- The socket of frames of the accepting end, which knows the id and the number of the SYN. -/
def accepting (now : UInt64) (connid isn irs : UInt16) : FrameSocket :=
  { ids := (connid.toUInt32 + 1, connid.toUInt32)
    state := .connected
    isn := isn
    snd := ⟨[], 0, ∅, ∅⟩
    synced := true
    irs := irs
    rcv := ⟨0, fun _ => none, [], none⟩
    fin := none
    eof := false
    past := false
    reads := []
    out := []
    closes := 0
    delays := Delays.new now }

/-- A connecting end begins in order. -/
theorem connecting_ok (now : UInt64) (connSeed isn : UInt16) (d : List UInt8) :
    (connecting now connSeed isn d).Ok := by
  have hsingle {k : Nat} {x : Frame} (hx : ([⟨.syn, []⟩] : List Frame)[k]? = some x) :
      k = 0 ∧ x = ⟨.syn, []⟩ := by
    have hlt := (List.getElem?_eq_some_iff.mp hx).1
    have hmem := List.mem_of_getElem? hx
    simp only [List.length_singleton, List.mem_singleton] at hlt hmem
    exact ⟨by omega, hmem⟩
  constructor
  case kinds =>
    intro x hx
    exact Or.inl (by rw [List.mem_singleton.mp hx])
  case window => exact ⟨Nat.zero_le _, by show 1 ≤ 0 + 1024; omega⟩
  case sent_lt =>
    intro k hk
    have : k = 0 := hk
    show k < 1
    omega
  case acked_lt => exact fun k hk => absurd hk (Set.notMem_empty k)
  case below => exact fun k hk => absurd hk (Nat.not_lt_zero k)
  case syn => exact fun k x hx _ => (hsingle hx).1
  case fin =>
    intro k x hx hkind
    rw [(hsingle hx).2] at hkind
    cases hkind
  case unsynced =>
    refine fun _ => ⟨Or.inl rfl, fun x hx => ?_, Nat.le_refl _, rfl, rfl, rfl⟩
    rw [List.mem_singleton.mp hx]
  case synced => exact fun hno => by cases hno
  case eof => exact fun hno => by cases hno
  case gotFin => exact fun hno => by cases hno
  case idle => exact fun _ => rfl
  case reads_le => exact List.prefix_rfl
  case reads_eq => exact fun _ => rfl
  case closable => exact fun _ => rfl

/-- An accepting end begins in order. -/
theorem accepting_ok (now : UInt64) (connid isn irs : UInt16) :
    (accepting now connid isn irs).Ok := by
  constructor
  case kinds => exact fun x hx => absurd hx (List.not_mem_nil)
  case window => exact ⟨Nat.le_refl _, Nat.zero_le _⟩
  case sent_lt => exact fun k hk => absurd hk (Set.notMem_empty k)
  case acked_lt => exact fun k hk => absurd hk (Set.notMem_empty k)
  case below => exact fun k hk => absurd hk (Nat.not_lt_zero k)
  case syn => exact fun k x hx => by cases hx
  case fin => exact fun k x hx => by cases hx
  case unsynced => exact fun hno => by cases hno
  case synced => exact fun _ => Or.inl rfl
  case eof => exact fun hno => by cases hno
  case gotFin => exact fun hno => by cases hno
  case idle => exact fun _ => rfl
  case reads_le => exact List.prefix_rfl
  case reads_eq => exact fun _ => rfl
  case closable => exact fun _ => rfl

/-- An empty send queue. -/
theorem sendRep_empty (isn : UInt16) : SendRep isn 0 0 (.empty 4) isn ⟨[], 0, ∅, ∅⟩ := by
  constructor
  case seqNr_eq => exact (UInt16.add_zero _).symm
  case window => rfl
  case bits => show 4 ≤ 10; omega
  case fits => exact Nat.zero_le _
  case slot => exact fun k hk => absurd hk (Nat.not_lt_zero k)
  case empty => exact fun k _ _ => RingBuffer.get_empty _ _
  case inFlight => rfl

/-- An empty reorder buffer. -/
theorem recvRep_empty (ackNr : UInt16) (synced : Bool) (irs : UInt16)
    (hack : synced = true → ackNr = irs) :
    RecvRep ackNr (.empty 4) synced irs ⟨0, fun _ => none, [], none⟩ false := by
  constructor
  case bits => show 4 ≤ 11; omega
  case size => show 16 ≤ 2 ^ 4; omega
  case ack => exact fun hsync => (hack hsync).trans (UInt16.add_zero _).symm
  case slots => exact fun _ j _ _ => RingBuffer.get_empty _ _
  case last => exact fun _ => RingBuffer.get_empty _ _
  case beyond => exact fun _ k _ => rfl
  case unsynced => exact fun _ i => RingBuffer.get_empty _ _

/-- A new socket has bounds for its packet size. -/
theorem mtuOk_create (env : Env) (a b : UInt32) : MtuOk (create env a b).mtu := by
  constructor
  case floor => exact Nat.le_refl _
  case floor_le => show mtuFloorMin ≤ udpIpv4Mtu; decide
  case ceiling => exact Nat.le_refl _
  case last => show mtuFloorMin ≤ udpIpv4Mtu ∧ udpIpv4Mtu ≤ udpIpv4Mtu; decide
  case probe => exact fun hno => absurd rfl hno

/-- The SYN goes into an empty send queue and is sent. -/
theorem sendRep_syn {isn : UInt16} {pkt pkt' : OutgoingPacket} (hbody : pkt.body = [])
    (htype : PacketType.ofCode pkt.header.type = some .syn) (hversion : pkt.header.utpVersion = 1)
    (hext : pkt.header.ext = 0) (hnew : pkt.transmissions = 0) (hresend : pkt.needResend = false)
    (hseq : pkt.header.seqNr = isn)
    (hpkt' : pkt'.body = [] ∧ PacketType.ofCode pkt'.header.type = some .syn ∧
      pkt'.header.utpVersion = 1 ∧ pkt'.header.ext = 0 ∧ pkt'.header.seqNr = isn ∧
      0 < pkt'.transmissions ∧ pkt'.needResend = false) :
    SendRep (isn + 1) 1 0
      (((SizableCircularBuffer.ensureSize (.empty 4) isn.toNat 0).put isn.toNat (some pkt)).put
        isn.toNat (some pkt')) isn ⟨[⟨.syn, []⟩], 0, {0}, ∅⟩ := by
  obtain ⟨hbody', htype', hversion', hext', hseq', hsent', hresend'⟩ := hpkt'
  have hqueued : SendRep (isn + 1) 1 0
      ((SizableCircularBuffer.ensureSize (.empty 4) isn.toNat 0).put isn.toNat (some pkt)) isn
      ⟨[⟨.syn, []⟩], 0, ∅, ∅⟩ := by
    refine (sendRep_empty isn).append (by omega) ⟨.syn, []⟩ rfl rfl
      (fun k hk => absurd hk (Nat.not_lt_zero k)) ?_ hnew
    refine ⟨⟨.syn, by rw [hbody]; rfl, htype⟩, hseq.trans (UInt16.add_zero _).symm, hversion, hext,
      ?_, ?_, Set.notMem_empty _⟩
    · exact iff_of_false (by omega) (Set.notMem_empty _)
    · exact fun hno => by rw [hresend] at hno; cases hno
  have hwire : SameWire isn.toNat (((isn + 1).toNat : Int) - (1 : Nat) + (0 : Nat)) := by
    have := sameWire_succ isn
    unfold SameWire at this ⊢
    omega
  have hpkt : PacketRep isn ⟨[⟨.syn, []⟩], 0, {0}, ∅⟩ 0 pkt' := by
    refine ⟨⟨.syn, by rw [hbody']; rfl, htype'⟩, hseq'.trans (UInt16.add_zero _).symm, hversion',
      hext', iff_of_true hsent' rfl, ?_, Set.notMem_empty _⟩
    exact fun hno => by rw [hresend'] at hno; cases hno
  have hzero (y : Option OutgoingPacket) (hy : ∀ q, y = some q → q.body = []) : weight y = 0 := by
    cases y with
    | none => rfl
    | some q => simp [weight, OutgoingPacket.payload, hy q rfl]
  have hset := hqueued.set (T := ⟨[⟨.syn, []⟩], 0, {0}, ∅⟩) (k := 0) (x := some pkt')
    (w := 0) (by omega) rfl rfl (fun m hm hne => absurd (Nat.lt_one_iff.mp hm) hne) hpkt (by
      rw [hzero (some pkt') fun q hq => by rw [← Option.some.inj hq]; exact hbody',
        ← get_wire hqueued.bits_le hwire, RingBuffer.get_put_self,
        hzero (some pkt) fun q hq => by rw [← Option.some.inj hq]; exact hbody])
  rw [← put_wire hqueued.bits_le hwire] at hset
  exact hset

/-- `utp_connect` begins with a SYN. -/
theorem utpConnect_inv (connSeed seqNr : UInt16) :
    ∃ d, Carries d .syn seqNr 0 none [] ∧
      Inv (utpConnect env connSeed seqNr) (connecting (env.millis 0) connSeed seqNr d) := by
  let c0 := ({ create env connSeed.toUInt32 (connSeed.toUInt32 + 1) with
    state := .synSent } : Conn).readClock env
  let c1 : Conn := { c0 with
    rtt := { c0.rtt with retransmitTimeout := 3000, rtoTimeout := c0.currentMs + 3000 }
    lastRcvWin := c0.optRcvbuf
    seqNr := seqNr }
  let pf : PacketFormatV1 := { PacketFormatV1.ofType .syn with
    connid := c1.connIdRecv.toUInt16
    windowsize := UInt32.ofNat c1.lastRcvWin
    seqNr := seqNr }
  let pkt : OutgoingPacket :=
    { header := pf, body := [], timeSent := 0, transmissions := 0, needResend := false }
  let c2 : Conn := { c1 with
    outbuf := (SizableCircularBuffer.ensureSize (.empty 4) seqNr.toNat 0).put seqNr.toNat (some pkt)
    seqNr := seqNr + 1
    curWindowPackets := 1
    queued := 1 }
  have hmtu : MtuOk c2.mtu := mtuOk_create env connSeed.toUInt32 (connSeed.toUInt32 + 1)
  have hget : c2.outbuf.get seqNr.toNat = some pkt := RingBuffer.get_put_self _ _ _
  have hconnect : utpConnect env connSeed seqNr = c2.sendPacket env seqNr.toNat pkt := by
    dsimp only [utpConnect]
    split
    · rename_i hnone
      exact absurd (hget.symm.trans hnone) (by simp)
    · rename_i pkt' hsome
      obtain rfl : pkt = pkt' := Option.some.inj (hget.symm.trans hsome)
      rfl
  have htype : pf.type = PacketType.syn.code := PacketFormatV1.type_setType _ _
  have hcode : PacketType.ofCode pf.type = some .syn := by rw [htype, PacketType.ofCode_code]
  have hversion : pf.utpVersion = 1 :=
    PacketFormatV1.utpVersion_eq_one htype (by show (0 : UInt8) < 3; decide)
      (PacketFormatV1.version_setType _ _)
  obtain ⟨m, t, flag, time, hm, heq⟩ := sendPacket_eq env hmtu seqNr.toNat pkt
  have hcarries := carries_encode { pf with
    ackNr := 0
    tvUsec := (env.micros t).toUInt32
    replyMicro := 0 } [] hversion hcode rfl
  refine ⟨_, hcarries, ?_⟩
  rw [hconnect, heq]
  refine ⟨?_, Set.notMem_empty _, fun _ => ?_, rfl, fun _ => rfl⟩
  · constructor
    case ids => rfl
    case ok => exact connecting_ok _ _ _ _
    case state => rfl
    case send =>
      exact sendRep_syn rfl hcode hversion rfl rfl rfl rfl
        ⟨rfl, hcode, hversion, rfl, rfl, Nat.succ_pos _, rfl⟩
    case room => exact fun hno => by rcases hno with hno | hno <;> cases hno
    case recv => exact recvRep_empty 0 false 0 fun hno => by cases hno
    case next => exact fun _ => RingBuffer.get_empty _ _
    case gotFin => rfl
    case eofPkt => exact fun f hf => by cases hf
    case mtu => exact hm
    case rcvWin => rfl
    case pending => exact fun hno => by cases hno
    case queued => rfl
    case reads => rfl
    case taken => rfl
    case out => rfl
    case closes => rfl
    case delays => rfl
    case fault => rfl
    case misused => exact fun _ => rfl
  · exact (RingBuffer.occupied_of_empty fun i => RingBuffer.get_empty _ i).symm

/-- With `syn` set, `utp_process_incoming` stops behind the headers. -/
theorem utpProcessIncoming_syn {packet rest : List UInt8} {pf : PacketFormatV1}
    (hdec : PacketFormatV1.decode packet = some (pf, rest))
    (htype : PacketType.ofCode pf.type = some .syn) (hst : c.state ≠ .synSent) (beyond : UInt8) :
    ∃ t ms ext got, c.utpProcessIncoming env packet beyond true =
      { c with ticks := t, currentMs := ms, extensions := ext, lastGotPacket := got } := by
  unfold utpProcessIncoming
  rw [hdec]
  dsimp only
  rw [htype]
  dsimp only
  split
  · exact ⟨_, _, c.extensions, c.lastGotPacket, rfl⟩
  · rw [assert_of _ (by simp)]
    generalize skipExtensions pf.ext rest (c.readClock env).tick.extensions = scan
    obtain ⟨ext, result⟩ := scan
    cases result with
    | none =>
      dsimp only [readClock, tick]
      exact ⟨_, _, ext, c.lastGotPacket, rfl⟩
    | some r =>
      have hst' : ({ (c.readClock env).tick with extensions := ext } : Conn).state ≠ .synSent := hst
      dsimp only [processSegment]
      rw [if_neg hst', if_pos rfl]
      dsimp only [readClock, tick]
      exact ⟨_, _, ext, _, rfl⟩

/-- A SYN is accepted and answered. -/
theorem accept_inv {packet : List UInt8} {beyond : UInt8} {seqNr : UInt16}
    (hacc : accept env packet beyond seqNr = some c) :
    ∃ pf rest s, PacketFormatV1.decode packet = some (pf, rest) ∧
      PacketType.ofCode pf.type = some .syn ∧
      FrameSocket.Steps none (accepting (env.millis 0) pf.connid seqNr pf.seqNr) s ∧ Inv c s := by
  unfold accept at hacc
  cases hdec : PacketFormatV1.decode packet with
  | none =>
    rw [hdec] at hacc
    cases hacc
  | some r =>
    obtain ⟨pf, rest⟩ := r
    rw [hdec] at hacc
    dsimp only at hacc
    split at hacc
    · rename_i hcond
      have heq := Option.some.inj hacc
      let c0 : Conn := { create env (pf.connid.toUInt32 + 1) pf.connid.toUInt32 with
        ackNr := pf.seqNr
        seqNr := seqNr
        resend := { (create env (pf.connid.toUInt32 + 1) pf.connid.toUInt32).resend with
          fastResendSeqNr := seqNr }
        state := .connected }
      obtain ⟨t, ms, ext, got, hin⟩ := utpProcessIncoming_syn (c := c0) env hdec hcond.2
        (by show ConnState.connected ≠ .synSent; simp) beyond
      -- `send_ack` fills in the window that it reports, so it may as well be there before.
      let c1 : Conn := { c0 with
        ticks := t, currentMs := ms, extensions := ext, lastGotPacket := got,
        lastRcvWin := c0.optRcvbuf }
      have hack : (c0.utpProcessIncoming env packet beyond true).sendAck env true =
          c1.sendAck env false := by
        rw [hin]
        rfl
      have hrep : Rep c1 (accepting (env.millis 0) pf.connid seqNr pf.seqNr) := by
        constructor
        case ids => rfl
        case ok => exact accepting_ok _ _ _ _
        case state => rfl
        case send => exact sendRep_empty seqNr
        case room => exact fun _ => Nat.zero_le _
        case recv => exact recvRep_empty pf.seqNr true pf.seqNr fun _ => rfl
        case next => exact fun _ => RingBuffer.get_empty _ _
        case gotFin => rfl
        case eofPkt => exact fun f hf => by cases hf
        case mtu => exact mtuOk_create env (pf.connid.toUInt32 + 1) pf.connid.toUInt32
        case rcvWin => rfl
        case pending => exact fun hno => by cases hno
        case queued => rfl
        case reads => rfl
        case taken => rfl
        case out => rfl
        case closes => rfl
        case delays => rfl
        case fault => rfl
        case misused => exact fun _ => rfl
      have hinv : Inv c1 (accepting (env.millis 0) pf.connid seqNr pf.seqNr) := by
        refine ⟨hrep, Set.notMem_empty _, fun _ => ?_, rfl, fun _ => rfl⟩
        exact (RingBuffer.occupied_of_empty fun i => RingBuffer.get_empty _ i).symm
      have hsim : Sim StaysOpen none c1 (accepting (env.millis 0) pf.connid seqNr pf.seqNr) c := by
        rw [← heq]
        show Sim StaysOpen none c1 _
          (((c0.utpProcessIncoming env packet beyond true).sendAck env true).callback env .onAccept)
        rw [hack]
        refine (sendAck_sim env hrep (by show ConnState.connected ≠ .synSent; simp)).stays.bind
          staysOpen_trans fun s' h' _ _ => ?_
        exact callback_sim env h' ⟨rfl, rfl, rfl⟩
      obtain ⟨s', hs, h'⟩ := inv_of_sim hinv hsim
      exact ⟨pf, rest, s', rfl, hcond.2, hs, h'⟩
    · cases hacc

end Conn

end EChannel.LibUtp
