import EChannel.Proofs.LibUtp.Timeouts

/-!
# `EChannel.Proofs.LibUtp.AckSide`: what an acknowledgment does

A packet acknowledges frames in two ways: all before the one that its `ack_nr` names, and single
ones behind that by its bit mask. Both empty slots of the send queue; then the front of the queue
goes as far as it is empty. The oldest frame is waiting again behind that (`FrameSocket.Front`),
which is what the assertions of `utp_process_incoming` are about.
-/

set_option autoImplicit false

namespace EChannel.LibUtp

open SlidingWindow

namespace Conn

variable (env : Env) {p : Option Segment} {seg : Segment} {c : Conn} {s : FrameSocket}

/-! ### One packet -/

/-- A sample of the round trip touches the estimates only. -/
theorem sampleRtt_eq (pkt : OutgoingPacket) :
    ∃ r t, c.sampleRtt env pkt = { c with rtt := r, ticks := t } :=
  ⟨_, _, rfl⟩

/-- What `ack_packet` changes, in one record. -/
theorem ackPacket_eq {i : Int} {pkt : OutgoingPacket} (hget : c.outbuf.get i = some pkt)
    (hsent : 0 < pkt.transmissions) (hle : weight (some pkt) ≤ c.curWindow) :
    ∃ r t, c.ackPacket env i = (.acked,
      { c with
        outbuf := c.outbuf.put i none
        rtt := r
        ticks := t
        curWindow := c.curWindow - weight (some pkt) }) := by
  have hne : pkt.transmissions ≠ 0 := by omega
  have hsample : ∃ r t, (if pkt.transmissions = 1 then
      ({ c with outbuf := c.outbuf.put i none } : Conn).sampleRtt env pkt
      else { c with outbuf := c.outbuf.put i none }) =
        { c with outbuf := c.outbuf.put i none, rtt := r, ticks := t } := by
    split
    · exact sampleRtt_eq env pkt
    · exact ⟨c.rtt, c.ticks, rfl⟩
  obtain ⟨r, t, heq⟩ := hsample
  unfold ackPacket
  rw [hget]
  dsimp only
  rw [if_neg hne, heq]
  split
  · rename_i hresend
    have hzero : weight (some pkt) = 0 := by simp [weight, hresend]
    rw [hzero]
    exact ⟨_, t, rfl⟩
  · rename_i hresend
    have hpayload : weight (some pkt) = pkt.payload := by simp [weight, hsent, hresend]
    rw [hpayload] at hle ⊢
    rw [assert_of _ hle]
    exact ⟨_, t, rfl⟩

/-- `ack_packet` empties a slot, when the packet it works on claims the frame. -/
theorem ackPacket_rep (h : Rep c s) {k : Nat} {i : Int} {pkt : OutgoingPacket}
    (hk : k < c.curWindowPackets)
    (hi : i % (c.outbuf.size : Int) = (c.oldest + k) % (c.outbuf.size : Int))
    (hget : c.outbuf.get i = some pkt) (hsent : 0 < pkt.transmissions)
    (hclaim : s.Claims seg (s.snd.base + k)) :
    ∃ s', FrameSocket.Step (some seg) s s' ∧
      s' = { s with snd := { s.snd with acked := insert (s.snd.base + k) s.snd.acked } } ∧
      (c.ackPacket env i).1 = .acked ∧ Rep (c.ackPacket env i).2 s' ∧
      (c.ackPacket env i).2.recvView = c.recvView ∧
      (c.ackPacket env i).2.curWindowPackets = c.curWindowPackets ∧
      (c.ackPacket env i).2.seqNr = c.seqNr ∧
      (c.ackPacket env i).2.outbuf = c.outbuf.put i none := by
  have hget' : c.outbuf.get ((c.seqNr.toNat : Int) - c.curWindowPackets + k) = some pkt := by
    rw [← hget]
    exact (RingBuffer.get_congr hi).symm
  have hslot : PacketRep s.isn s.snd (s.snd.base + k) pkt := by
    have := h.send.slot k hk
    rwa [hget'] at this
  have hle : weight (some pkt) ≤ c.curWindow := by
    have := h.send.weight_le hk
    rwa [hget'] at this
  have hwin := h.send.window
  have hstep : FrameSocket.Step (some seg) s
      { s with snd := { s.snd with acked := insert (s.snd.base + k) s.snd.acked } } :=
    .ack s seg (s.snd.base + k) rfl (by omega) (by omega) (hslot.sent.mp hsent) hclaim
  obtain ⟨r, t, heq⟩ := ackPacket_eq env hget hsent hle
  rw [heq]
  refine ⟨_, hstep, rfl, rfl, { h with ok := h.ok.step hstep, send := ?_ }, rfl, rfl, rfl, rfl⟩
  show SendRep _ _ _ (c.outbuf.put i none) _ _
  rw [RingBuffer.put_congr _ hi]
  refine h.send.set (x := none) hk rfl rfl (fun m _ hne y hy => hy.congr rfl Iff.rfl ?_)
    (Set.mem_insert _ _) ?_
  · exact ⟨fun hm => (Set.mem_insert_iff.mp hm).resolve_left (by omega), Set.mem_insert_of_mem _⟩
  · rw [hget']
    exact Nat.sub_add_cancel hle

/-- The front of the queue is empty, and the window moves on. -/
theorem rep_advance (h : Rep c s) (hpos : 0 < c.curWindowPackets)
    (hnone : c.outbuf.get c.oldest = none) :
    FrameSocket.Step p s { s with snd := { s.snd with base := s.snd.base + 1 } } ∧
      Rep { c with curWindowPackets := c.curWindowPackets - 1 }
        { s with snd := { s.snd with base := s.snd.base + 1 } } := by
  obtain ⟨n, hn⟩ : ∃ n, c.curWindowPackets = n + 1 := ⟨c.curWindowPackets - 1, by omega⟩
  have hsend := h.send
  rw [hn] at hsend
  have hnone' : c.outbuf.get ((c.seqNr.toNat : Int) - (n + 1 : Nat)) = none := by
    rw [← hn]
    exact hnone
  have hacked : s.snd.base ∈ s.snd.acked := by
    have hslot := hsend.slot 0 (Nat.succ_pos n)
    rw [show (c.seqNr.toNat : Int) - (n + 1 : Nat) + (0 : Nat) =
      (c.seqNr.toNat : Int) - (n + 1 : Nat) by omega, hnone'] at hslot
    exact hslot
  have hlt : s.snd.base < s.snd.frames.length := by
    have := hsend.window
    omega
  have hstep : FrameSocket.Step p s { s with snd := { s.snd with base := s.snd.base + 1 } } :=
    .advance s hacked hlt
  refine ⟨hstep, { h with ok := h.ok.step hstep, send := ?_, room := ?_ }⟩
  · show SendRep _ (c.curWindowPackets - 1) _ _ _ _
    rw [show c.curWindowPackets - 1 = n by omega]
    exact hsend.advance hnone' rfl rfl fun k y hy => hy.congr rfl Iff.rfl Iff.rfl
  · intro hopen
    have := h.room hopen
    show c.curWindowPackets - 1 ≤ 1023
    omega

/-! ### The cumulative acknowledgment -/

/-- The window has moved on by one frame. -/
structure Passed (s s' : FrameSocket) : Prop where
  state : SameState s s'
  isn : s'.isn = s.isn
  frames : s'.snd.frames = s.snd.frames
  base : s'.snd.base = s.snd.base + 1

/-- One round of the loop: it ends at a packet that was not sent, and passes the others. -/
theorem ackOldest_sim (h : Rep c s) (hpos : 0 < c.curWindowPackets)
    (hclaim : s.Claims seg s.snd.base) :
    c.ackPacket env c.oldest = (.notSent, c) ∨
      (c.ackPacket env c.oldest).1 ≠ .notSent ∧
        (c.ackPacket env c.oldest).2.curWindowPackets = c.curWindowPackets ∧
        Sim Passed (some seg) c s
          { (c.ackPacket env c.oldest).2 with
            curWindowPackets := (c.ackPacket env c.oldest).2.curWindowPackets - 1 } := by
  cases hget : c.outbuf.get c.oldest with
  | none =>
    have heq : c.ackPacket env c.oldest = (.alreadyAcked, c) := by
      unfold ackPacket
      rw [hget]
    obtain ⟨hstep, hrep⟩ := rep_advance (p := some seg) h hpos hget
    rw [heq]
    exact Or.inr ⟨by simp, rfl, Sim.of_step hstep hrep rfl (Quiet.of_eq rfl rfl rfl rfl rfl rfl)
      ⟨rfl, rfl, rfl, rfl⟩⟩
  | some pkt =>
    rcases Nat.eq_zero_or_pos pkt.transmissions with hzero | hsent
    · left
      unfold ackPacket
      rw [hget]
      dsimp only
      rw [if_pos hzero]
    · right
      obtain ⟨s1, hstep1, rfl, hacked, hrep1, hview, hcwp, hseq, hbuf⟩ :=
        ackPacket_rep env h (k := 0) hpos (by simp) hget hsent hclaim
      generalize c.ackPacket env c.oldest = r at *
      have hnone : r.2.outbuf.get r.2.oldest = none := by
        have hold : r.2.oldest = c.oldest := by
          show (r.2.seqNr.toNat : Int) - r.2.curWindowPackets = _
          rw [hseq, hcwp]
          rfl
        rw [hbuf, hold, RingBuffer.get_put_self]
      obtain ⟨hstep2, hrep2⟩ := rep_advance (p := some seg) hrep1 (by rw [hcwp]; exact hpos) hnone
      refine ⟨by rw [hacked]; simp, hcwp, ?_⟩
      exact ⟨_, (Relation.ReflTransGen.single hstep1).tail hstep2, hrep2, hview,
        Quiet.of_eq rfl rfl rfl rfl rfl rfl, rfl, rfl, rfl, rfl⟩

/-- The packet acknowledges everything before the frame `a` with its `ack_nr`. -/
def Cumulative (s : FrameSocket) (seg : Segment) (a : Nat) : Prop :=
  a ≤ s.snd.frames.length ∧ seg.header.ackNr + 1 = s.seqOf a

/-- A loop over `n` acknowledged packets takes the first `n` frames off. The induction is on
`n`. -/
theorem ackLoop_sim (n a : Nat) {c : Conn} {s : FrameSocket} (h : Rep c s)
    (hn : n ≤ c.curWindowPackets) (hclaim : 0 < n → Cumulative s seg a ∧ s.snd.base + n ≤ a) :
    Sim SameState (some seg) c s (ackLoop env n c) := by
  induction n generalizing c s with
  | zero => exact Sim.of_rep h rfl
  | succ n ih =>
    obtain ⟨⟨hle, hseq⟩, hbase⟩ := hclaim (Nat.succ_pos n)
    have hold : s.Claims seg s.snd.base := Or.inl ⟨a, by omega, hle, hseq⟩
    dsimp only [ackLoop]
    rcases ackOldest_sim env h (by omega) hold with heq | ⟨hne, hcwp, hsim⟩
    · rw [heq, if_pos rfl]
      exact Sim.of_rep h rfl
    · rw [if_neg hne]
      refine hsim.comp (J := SameState) (fun s' h' hpass _ => ?_)
        fun s' s'' hpass hst => hst.trans hpass.state
      refine ih h' (by dsimp only; omega) fun _ => ⟨⟨?_, ?_⟩, ?_⟩
      · rw [hpass.frames]
        exact hle
      · rw [hseq]
        show s.isn + _ = s'.isn + _
        rw [hpass.isn]
      · rw [hpass.base]
        omega

/-- The packets at the front that were acknowledged by a mask go. -/
theorem trimLoop_sim (n : Nat) {c : Conn} {s : FrameSocket} (h : Rep c s)
    (hn : c.curWindowPackets ≤ n) :
    Sim SameState p c s (trimLoop n c) ∧
      ((trimLoop n c).curWindowPackets = 0 ∨
        (trimLoop n c).outbuf.get (trimLoop n c).oldest ≠ none) := by
  induction n generalizing c s with
  | zero => exact ⟨Sim.of_rep h rfl, Or.inl (Nat.le_zero.mp hn)⟩
  | succ n ih =>
    unfold trimLoop
    split
    · rename_i hcond
      obtain ⟨hstep, hrep⟩ := rep_advance (p := p) h hcond.1 hcond.2
      obtain ⟨hsim, hend⟩ := ih hrep (by dsimp only; omega)
      refine ⟨?_, hend⟩
      exact (Sim.of_step hstep hrep rfl (Quiet.of_eq rfl rfl rfl rfl rfl rfl) rfl).bind
        sameState_trans fun s' h' _ _ => (ih h' (by dsimp only; omega)).1
    · rename_i hcond
      refine ⟨Sim.of_rep h rfl, ?_⟩
      rcases Nat.eq_zero_or_pos c.curWindowPackets with h0 | hpos
      · exact Or.inl h0
      · exact Or.inr fun hnone => hcond ⟨hpos, hnone⟩

/-! ### The handshake -/

/-- The peer answers the SYN, and its next sequence number is known. -/
theorem rep_sync (h : Rep c s) (hst : s.state = .synSent)
    (hack : c.ackNr = seg.header.seqNr - 1)
    (hok : ({ s with state := .connected, synced := true, irs := seg.header.seqNr - 1 } :
      FrameSocket).Ok) :
    Rep { c with state := .connected }
      { s with state := .connected, synced := true, irs := seg.header.seqNr - 1 } := by
  have hsync := h.ok.unsynced_of_synSent hst
  have hfresh := h.ok.unsynced hsync
  refine { h with ok := hok, state := rfl, room := ?_, recv := ?_, pending := ?_ }
  · intro _
    have hlen := hfresh.length_le
    have hwin := h.send.window
    show c.curWindowPackets ≤ 1023
    omega
  · refine { h.recv with ack := ?_, unsynced := ?_ }
    · intro _
      rw [hack, hfresh.rcv]
      exact (UInt16.add_zero _).symm
    · exact fun hno => by cases hno
  · exact fun _ => by simp

/-- Two extensions in a row. -/
theorem extends_trans (a b d : FrameSocket) (h : FrameSocket.Extends a b)
    (h' : FrameSocket.Extends b d) : FrameSocket.Extends a d :=
  h.trans h'

/-- The changes of state that an acknowledgment brings. -/
theorem handshake_sim (h : Rep c s) (hfront : s.Front)
    (hack : s.state = .synSent → c.ackNr = seg.header.seqNr - 1) (acks : Nat) :
    Sim FrameSocket.Extends (some seg) c s (c.handshake env seg.flags acks) := by
  have hrecv : ¬(seg.flags = .data ∧ c.state = .synRecv) := fun hno => h.state_ne_synRecv hno.2
  dsimp only [handshake]
  rw [if_neg hrecv]
  split
  · rename_i hcond
    have hst : s.state = .synSent := h.state.symm.trans hcond.2
    have hsync := h.ok.unsynced_of_synSent hst
    have hstep : FrameSocket.Step (some seg) s
        { s with state := .connected, synced := true, irs := seg.header.seqNr - 1 } :=
      .sync s seg rfl hcond.1 hst hsync
    have hrep := rep_sync h hst (hack hst) (h.ok.step hstep)
    have hquiet : Quiet s
        { s with state := .connected, synced := true, irs := seg.header.seqNr - 1 } := by
      refine ⟨rfl, rfl, rfl, rfl, fun hno => ?_⟩
      rw [hsync] at hno
      cases hno
    refine (Sim.of_step (K := FrameSocket.Extends) hstep hrep rfl hquiet
      ⟨rfl, rfl, rfl, Nat.le_refl _⟩).bind extends_trans fun s' h' hext _ => ?_
    exact ((callback_sim env h' ⟨rfl, rfl, rfl⟩).of_none (hext.front hfront)).mono
      fun _ hk => hk.2
  · split
    · rename_i hcond
      have hcalled := closable_of_failed h
        (Or.inr ⟨rfl, congrArg ConnState.closable hcond.1⟩)
      have hstep : FrameSocket.Step (some seg) s { s with state := .destroy } :=
        .move s .destroy (.destroy _) hcalled
      exact Sim.of_step hstep (rep_move h (.destroy _) hcalled (Or.inr (Or.inr rfl))) rfl
        (Quiet.of_eq rfl rfl rfl rfl rfl rfl) ⟨rfl, rfl, rfl, Nat.le_refl _⟩
    · exact ⟨s, .refl, h, rfl, Quiet.refl s, FrameSocket.Extends.refl s⟩

/-! ### Behind the acknowledgment -/

/-- The only packet left is sent if it was held back. -/
theorem flushNagle_sim (h : Rep c s) (hfront : s.Front) :
    Sim SameState p c s (c.flushNagle env) := by
  unfold flushNagle
  split
  · rename_i hone
    have hsome := (h.front_iff.mp hfront).resolve_left (by omega)
    have hindex : c.oldest = (c.seqNr.toNat : Int) - 1 := by
      show (c.seqNr.toNat : Int) - c.curWindowPackets = _
      rw [hone]
      rfl
    rw [hindex] at hsome
    split
    · rename_i hnone
      exact absurd hnone hsome
    · rename_i pkt hget
      split
      · exact sendPacket_sim env h hget
      · exact Sim.of_rep h rfl
  · exact Sim.of_rep h rfl

/-- A fast retransmit sends a frame again. -/
theorem fastRetry_sim (h : Rep c s) : Sim SameState p c s (c.fastRetry env) := by
  unfold fastRetry
  split
  · split
    · have hrep : Rep { c with resend := { c.resend with fastTimeout := false } } s := { h with }
      exact Sim.of_rep hrep rfl
    · split
      · exact Sim.of_rep h rfl
      · rename_i pkt hget
        split
        · have hrep : Rep { c with resend :=
              { c.resend with fastResendSeqNr := c.resend.fastResendSeqNr + 1 } } s := { h with }
          exact Sim.of_view rfl (sendPacket_sim env hrep hget)
        · exact Sim.of_rep h rfl
  · exact Sim.of_rep h rfl

/-- The oldest frame waits for its acknowledgment afterwards. -/
def EndsFront (_ s' : FrameSocket) : Prop := s'.Front

/-- The branch for an acknowledgment that is not from the future. -/
theorem acknowledge_sim (h : Rep c s) (hfront : s.Front)
    (hack : s.state = .synSent → c.ackNr = seg.header.seqNr - 1) {acks : Nat}
    (hle : acks ≤ c.curWindowPackets)
    (hclaim : 0 < acks → Cumulative s seg (s.snd.base + acks)) :
    Sim EndsFront (some seg) c s (c.acknowledge env seg.header seg.flags acks) := by
  dsimp only [acknowledge]
  generalize hc : ({ c with cong := _ } : Conn) = c1
  have h1 : Rep c1 s ∧ c1.recvView = c.recvView ∧ c1.ackNr = c.ackNr := by
    subst hc
    exact ⟨{ h with }, rfl, rfl⟩
  obtain ⟨h1, hview, hack1⟩ := h1
  refine Sim.of_view hview ?_
  refine (handshake_sim env h1 hfront (fun hst => hack1.trans (hack hst)) acks).comp
    (J := EndsFront) (fun s2 h2 hext _ => ?_) fun _ _ _ hk => hk
  generalize hc3 : ite (wrappingCompareLess _ _ _ = true) _ _ = c3
  have h3 : Rep c3 s2 ∧ c3.recvView = (c1.handshake env seg.flags acks).recvView := by
    subst hc3
    split
    · exact ⟨{ h2 with }, rfl⟩
    · exact ⟨h2, rfl⟩
  obtain ⟨h3, hview3⟩ := h3
  refine Sim.of_view hview3 ?_
  have hloop : Sim SameState (some seg) c3 s2 (ackLoop env acks c3) := by
    have hwin := h.send.window
    have hwin3 := h3.send.window
    have hlen := hext.length_le
    have hbase := hext.base
    refine ackLoop_sim env acks (s.snd.base + acks) h3 (by omega) fun hpos => ?_
    obtain ⟨hle', hseq⟩ := hclaim hpos
    refine ⟨⟨Nat.le_trans hle' hlen, ?_⟩, by omega⟩
    rw [hseq]
    show s.isn + _ = s2.isn + _
    rw [hext.isn]
  refine hloop.comp (J := EndsFront) (fun s4 h4 _ _ => ?_) fun _ _ _ hk => hk
  obtain ⟨htrim, hend⟩ := trimLoop_sim (p := some seg) _ h4 (Nat.le_refl _)
  refine htrim.comp (J := EndsFront) (fun s5 h5 _ _ => ?_) fun _ _ _ hk => hk
  generalize trimLoop _ _ = c5 at h5 hend ⊢
  have hfront5 := h5.front_iff.mpr hend
  have hzero : c5.curWindowPackets = 0 → c5.curWindow = 0 := by
    intro h0
    have := h5.send.inFlight
    rw [h0] at this
    exact this
  rw [assert_of _ hzero, assert_of _ hend]
  have hflush : Sim SameState none c5 s5 ((c5.flushNagle env).fastRetry env) :=
    (flushNagle_sim env h5 hfront5).bind sameState_trans fun s6 h6 _ _ => fastRetry_sim env h6
  exact (hflush.of_none hfront5).mono fun _ hk => hk.2.front hfront5

/-! ### The selective acknowledgment -/

/-- A sequence number in the send queue behind the oldest packet, as a frame. -/
theorem inQueue_spec (h : Rep c s) {v : UInt16} (hv : c.inQueue v = true) :
    ∃ k, 0 < k ∧ k < c.curWindowPackets ∧ v = s.seqOf (s.snd.base + k) ∧
      SameWire v.toNat (c.oldest + k) := by
  have hlt : (c.seqNr - v - 1).toNat < c.curWindowPackets - 1 := by simpa [inQueue] using hv
  obtain ⟨j, hj⟩ : ∃ j, j = (c.seqNr - v - 1).toNat := ⟨_, rfl⟩
  have hof : UInt16.ofNat j = c.seqNr - v - 1 := by rw [hj, UInt16.ofNat_toNat]
  have hseq : c.seqNr = v + UInt16.ofNat (1 + j) := by
    simp only [UInt16.ofNat_add]
    grind
  have hwin := h.send.window
  refine ⟨c.curWindowPackets - 1 - j, by omega, by omega, ?_, ?_⟩
  · have heq := h.send.seqNr_eq
    have hsplit : s.snd.frames.length = s.snd.base + (c.curWindowPackets - 1 - j) + (1 + j) := by
      omega
    rw [hsplit, UInt16.ofNat_add, hseq] at heq
    show v = s.isn + UInt16.ofNat (s.snd.base + (c.curWindowPackets - 1 - j))
    grind
  · have hnat : c.seqNr.toNat = (v.toNat + (1 + j) % 65536) % 65536 := by
      rw [hseq, UInt16.toNat_add, UInt16.toNat_ofNat']
    show _ % 65536 = ((c.seqNr.toNat : Int) - c.curWindowPackets + _) % 65536
    omega

/-- One bit of the mask. -/
theorem selectiveAckAt_sim {acc : EackLoop} (h : Rep acc.conn s) (hfront : s.Front)
    {sel : SelAck} (hsel : seg.selack = some sel) {n : Nat} (hn : n ≤ sel.len.toNat * 8) :
    Sim EndsFront (some seg) acc.conn s
      (selectiveAckAt env (seg.header.ackNr + 2) sel seg.beyond acc n).conn := by
  have hsame : Sim EndsFront (some seg) acc.conn s acc.conn :=
    ⟨s, .refl, h, rfl, Quiet.refl s, hfront⟩
  dsimp only [selectiveAckAt]
  split
  · rename_i hin
    obtain ⟨k, hpos, hk, hv, hwire⟩ := inQueue_spec h hin
    generalize hv' : seg.header.ackNr + 2 + UInt16.ofNat n - 1 = v at *
    have hsize : (v.toNat : Int) % (acc.conn.outbuf.size : Int) =
        (acc.conn.oldest + k) % (acc.conn.outbuf.size : Int) :=
      emod_size_of_wire h.send.bits_le hwire
    split
    · exact hsame
    · rename_i pkt hget
      split
      · exact hsame
      · rename_i hsent
        split
        · rename_i hbit
          rw [Bool.and_eq_true, decide_eq_true_eq] at hbit
          have hfits := h.send.fits
          -- The oldest packet is less than a round before this one.
          have hslot : acc.conn.outbuf.slot v.toNat ≠ acc.conn.outbuf.slot acc.conn.oldest := by
            rw [RingBuffer.slot_eq_iff.mpr hsize]
            exact RingBuffer.slot_add_ne _ _ hpos (by omega)
          have hclaim : s.Claims seg (s.snd.base + k) := by
            refine Or.inr ⟨sel, n - 1, hsel, by omega, hbit.2, ?_⟩
            rw [← hv, ← hv']
            have hn1 : n = n - 1 + 1 := by omega
            conv_rhs => rw [hn1]
            simp only [UInt16.ofNat_add]
            grind
          dsimp only
          rw [assert_of _ hslot]
          obtain ⟨s', hstep, rfl, -, hrep, hview, -⟩ :=
            ackPacket_rep env h hk hsize hget (Nat.pos_of_ne_zero hsent) hclaim
          refine Sim.of_step hstep hrep hview (Quiet.of_eq rfl rfl rfl rfl rfl rfl) ?_
          intro hmem
          rcases Set.mem_insert_iff.mp hmem with heq | hmem
          · have heq' : s.snd.base = s.snd.base + k := heq
            omega
          · exact hfront hmem
        · split
          · exact hsame
          · exact hsame
  · exact hsame

/-- All bits of the mask. -/
theorem selectiveAckFold_sim {sel : SelAck} (hsel : seg.selack = some sel) (l : List Nat)
    (hl : ∀ n ∈ l, n ≤ sel.len.toNat * 8) (acc : EackLoop) {s : FrameSocket}
    (h : Rep acc.conn s) (hfront : s.Front) :
    Sim EndsFront (some seg) acc.conn s
      (l.foldl (selectiveAckAt env (seg.header.ackNr + 2) sel seg.beyond) acc).conn := by
  induction l generalizing acc s with
  | nil => exact ⟨s, .refl, h, rfl, Quiet.refl s, hfront⟩
  | cons n l ih =>
    refine (selectiveAckAt_sim env h hfront hsel (hl n List.mem_cons_self)).bind
      (fun _ _ _ _ hk => hk) fun s' h' hfront' _ => ?_
    exact ih (fun m hm => hl m (List.mem_cons_of_mem n hm)) _ h' hfront'

/-- The packets that are resent. -/
theorem resendLoop_sim (l : List UInt16) (i : Nat) (backOff : Bool) {c : Conn} {s : FrameSocket}
    (h : Rep c s) : Sim SameState p c s (resendLoop env l i c backOff).1 := by
  induction l generalizing i backOff c s with
  | nil => exact Sim.of_rep h rfl
  | cons v l ih =>
    unfold resendLoop
    split
    · exact ih i backOff h
    · rename_i pkt hget
      refine (sendPacket_sim env h hget).bind sameState_trans fun s' h' _ _ => ?_
      have hrep : Rep { c.sendPacket env v.toNat pkt with resend :=
          { (c.sendPacket env v.toNat pkt).resend with fastResendSeqNr := v + 1 } } s' :=
        { h' with }
      refine Sim.of_view (d := { c.sendPacket env v.toNat pkt with resend :=
          { (c.sendPacket env v.toNat pkt).resend with fastResendSeqNr := v + 1 } }) rfl ?_
      dsimp only
      split
      · exact Sim.of_rep hrep rfl
      · exact ih (i + 1) true hrep

/-- `selective_ack`. -/
theorem selectiveAck_sim (h : Rep c s) (hfront : s.Front) {sel : SelAck}
    (hsel : seg.selack = some sel) :
    Sim EndsFront (some seg) c s (c.selectiveAck env (seg.header.ackNr + 2) sel seg.beyond) := by
  unfold selectiveAck
  split
  · exact ⟨s, .refl, h, rfl, Quiet.refl s, hfront⟩
  · dsimp only
    have hfold := selectiveAckFold_sim env hsel (List.range (sel.len.toNat * 8 + 1)).reverse
      (fun n hn => by
        have := List.mem_range.mp (List.mem_reverse.mp hn)
        omega) ⟨c, 0, []⟩ h hfront
    generalize (List.range (sel.len.toNat * 8 + 1)).reverse.foldl _ _ = acc at hfold ⊢
    refine hfold.bind (fun _ _ _ _ hk => hk) fun s1 h1 hfront1 _ => ?_
    generalize (if acc.conn.mayResend acc.count (seg.header.ackNr + 2 - 1) = true then _ else _) =
      resends
    have hloop := resendLoop_sim (p := none) env resends 0 false h1
    generalize resendLoop env resends 0 acc.conn false = r at hloop ⊢
    have hend : Sim SameState none acc.conn s1
        { (if r.2 then r.1.maybeDecayWin else r.1) with resend :=
          { (if r.2 then r.1.maybeDecayWin else r.1).resend with
            duplicateAck := UInt8.ofNat acc.count } } := by
      refine hloop.bind sameState_trans fun s2 h2 _ _ => ?_
      split
      · unfold maybeDecayWin
        split
        · exact Sim.of_rep { h2 with } rfl
        · exact Sim.of_rep { h2 with } rfl
      · exact Sim.of_rep { h2 with } rfl
    exact (hend.of_none hfront1).mono fun _ hk => hk.2.front hfront1

/-! ### Before the acknowledgment -/

/-- The duplicate counter and the MTU search, in one record. -/
theorem countDuplicate_eq (h : MtuOk c.mtu) (ackNr : UInt16) :
    ∃ r m t, MtuOk m ∧ c.countDuplicate env ackNr =
      { c with resend := r, mtu := m, ticks := t } := by
  unfold countDuplicate
  split
  · split
    · dsimp only
      split
      · rename_i hcond
        split
        · obtain ⟨m, t, hm, heq⟩ := mtuProbeFailed_eq
            (c := { c with resend := { c.resend with duplicateAck := c.resend.duplicateAck + 1 } })
            env h hcond.2
          rw [heq]
          exact ⟨_, m, t, hm, rfl⟩
        · exact ⟨_, _, c.ticks, h.clear, rfl⟩
      · exact ⟨_, c.mtu, c.ticks, h, rfl⟩
    · exact ⟨_, c.mtu, c.ticks, h, rfl⟩
  · exact ⟨c.resend, c.mtu, c.ticks, h, rfl⟩

/-- A round trip time is not negative: the clock is far from its end. -/
theorem lowerRtt_nonneg {minRtt : Int} (hmin : 0 ≤ minRtt) {now : UInt64}
    (hnow : now.toNat < 2 ^ 63) (timeSent : UInt64) : 0 ≤ lowerRtt minRtt now timeSent := by
  unfold lowerRtt
  split
  · rename_i hlt
    have hle : timeSent ≤ now := UInt64.le_of_lt hlt
    have hsub : (now - timeSent).toNat = now.toNat - timeSent.toNat :=
      UInt64.toNat_sub_of_le _ _ hle
    have hbmod : (((now - timeSent).toNat : Nat) : Int).bmod (2 ^ 64) = (now - timeSent).toNat := by
      refine Int.bmod_eq_of_le ?_ ?_
      · omega
      · omega
    rw [hbmod]
    omega
  · omega

/-- The packets that are acknowledged raise the MTU at most. -/
theorem ackedBytes_eq {now : UInt64} (hnow : now.toNat < 2 ^ 63) (l : List Nat)
    (acc : Conn × Nat × Int) (h : MtuOk acc.1.mtu) (hmin : 0 ≤ acc.2.2) :
    ∃ m t, MtuOk m ∧ (l.foldl (ackedBytesAt env now) acc).1 = { acc.1 with mtu := m, ticks := t } ∧
      0 ≤ (l.foldl (ackedBytesAt env now) acc).2.2 := by
  induction l generalizing acc with
  | nil => exact ⟨acc.1.mtu, acc.1.ticks, h, rfl, hmin⟩
  | cons i l ih =>
    have hstep : ∃ m t, MtuOk m ∧ (ackedBytesAt env now acc i).1 =
        { acc.1 with mtu := m, ticks := t } ∧ 0 ≤ (ackedBytesAt env now acc i).2.2 := by
      dsimp only [ackedBytesAt]
      split
      · exact ⟨acc.1.mtu, acc.1.ticks, h, rfl, hmin⟩
      · rename_i pkt _
        split
        · exact ⟨acc.1.mtu, acc.1.ticks, h, rfl, hmin⟩
        · have hrtt := lowerRtt_nonneg hmin hnow pkt.timeSent
          split
          · rename_i hprobe
            obtain ⟨h1, h2⟩ := h.probe hprobe.1
            obtain ⟨m, t, hm, heq⟩ := mtuSearchUpdate_eq (c := { acc.1 with mtu :=
              { acc.1.mtu with mtuFloor := acc.1.mtu.mtuProbeSize } }) env
              (Nat.le_trans h.floor (Nat.le_of_lt h1)) h2 h.ceiling
            rw [heq]
            exact ⟨m, t, hm, rfl, hrtt⟩
          · exact ⟨acc.1.mtu, acc.1.ticks, h, rfl, hrtt⟩
    obtain ⟨m, t, hm, heq, hmin'⟩ := hstep
    have hm' : MtuOk (ackedBytesAt env now acc i).1.mtu := by
      rw [heq]
      exact hm
    obtain ⟨m', t', hm'', heq', hmin''⟩ := ih _ hm' hmin'
    rw [List.foldl_cons]
    refine ⟨m', t', hm'', ?_, hmin''⟩
    rw [heq', heq]

/-- The bytes of a selective acknowledgment are counted without a change. -/
theorem selectiveAckBytes_eq (base : UInt16) (sel : SelAck) (beyond : UInt8) {minRtt : Int}
    (hmin : 0 ≤ minRtt) :
    ∃ t, (c.selectiveAckBytes env base sel beyond minRtt).2 = { c with ticks := t } ∧
      0 ≤ (c.selectiveAckBytes env base sel beyond minRtt).1.2 := by
  unfold selectiveAckBytes
  split
  · exact ⟨c.ticks, rfl, hmin⟩
  · refine ⟨c.ticks + 1, rfl, ?_⟩
    have hfold (l : List Nat) (acc : Nat × Int) (hacc : 0 ≤ acc.2) :
        0 ≤ (l.foldl (c.selectiveAckBytesAt base sel beyond (env.micros c.ticks)) acc).2 := by
      induction l generalizing acc with
      | nil => exact hacc
      | cons n l ih =>
        refine ih _ ?_
        dsimp only [selectiveAckBytesAt]
        split
        · split
          · exact hacc
          · split
            · exact lowerRtt_nonneg hacc (env.micros_lt _) _
            · exact hacc
        · exact hacc
    exact hfold _ (0, minRtt) hmin

/-- What the selective acks count as acknowledged bytes is not negative, and only the clock runs
on. -/
theorem selackBytes_eq (seg : Segment) {minRtt : Int} (hmin : 0 ≤ minRtt) :
    ∃ t, (c.selackBytes env seg minRtt).2 = { c with ticks := t } ∧
      0 ≤ (c.selackBytes env seg minRtt).1.2 := by
  unfold selackBytes
  split
  · exact ⟨c.ticks, rfl, hmin⟩
  · exact selectiveAckBytes_eq env _ _ _ hmin

/-- The number of packets acknowledged is one that the `ack_nr` says. -/
theorem acks_spec (seg : Segment) (h : Rep c s) :
    c.acks seg.header.ackNr ≤ c.curWindowPackets ∧
      (0 < c.acks seg.header.ackNr → Cumulative s seg (s.snd.base + c.acks seg.header.ackNr)) := by
  have hwin := h.send.window
  dsimp only [acks]
  split
  · exact ⟨Nat.zero_le _, fun hno => absurd hno (Nat.lt_irrefl 0)⟩
  · rename_i hle
    generalize hn : (seg.header.ackNr - (c.seqNr - 1 - UInt16.ofNat c.curWindowPackets)).toNat = n
      at hle ⊢
    refine ⟨by omega, fun _ => ⟨by omega, ?_⟩⟩
    have hof : UInt16.ofNat n =
        seg.header.ackNr - (c.seqNr - 1 - UInt16.ofNat c.curWindowPackets) := by
      rw [← hn, UInt16.ofNat_toNat]
    have heq := h.send.seqNr_eq
    rw [← hwin] at heq
    show seg.header.ackNr + 1 = s.isn + UInt16.ofNat (s.snd.base + n)
    simp only [UInt16.ofNat_add] at heq hof ⊢
    grind

/-- `apply_ccontrol` changes the congestion window only. -/
theorem applyCcontrol_eq {bytesAcked : Nat} {minRtt : Int} (hmin : 0 ≤ minRtt)
    (hacked : 0 < bytesAcked) :
    ∃ g, c.applyCcontrol env bytesAcked minRtt = { c with cong := g } := by
  dsimp only [applyCcontrol]
  rw [assert_of _ hmin, assert_of _ hacked]
  exact ⟨_, rfl⟩

/-- What is measured does not touch the windows. -/
theorem measureAcks_eq (seg : Segment) (h : MtuOk c.mtu) (time : UInt64) (acks : Nat) :
    ∃ r m t minRtt g, MtuOk m ∧ c.measureAcks env seg time acks =
      { c with
        resend := r
        mtu := m
        ticks := t
        delays := (measureDelays c.delays c.currentMs time seg.header minRtt).1
        cong := g } := by
  dsimp only [measureAcks]
  obtain ⟨r, m1, t1, hm1, heq1⟩ := countDuplicate_eq env h seg.header.ackNr
  rw [heq1]
  have hmax : (0 : Int) ≤ 2 ^ 63 - 1 := by omega
  obtain ⟨m, t2, hm, heq2, hmin2⟩ := ackedBytes_eq env (env.micros_lt t1) (List.range acks)
    (({ c with resend := r, mtu := m1, ticks := t1 } : Conn).tick, 0, 2 ^ 63 - 1) hm1 hmax
  generalize (List.range acks).foldl _ _ = acc at heq2 hmin2 ⊢
  obtain ⟨t, hsel, hn⟩ := selackBytes_eq (c := acc.1) env seg hmin2
  have hc : (acc.1.selackBytes env seg acc.2.2).2 =
      { c with resend := r, mtu := m, ticks := t } := by
    rw [hsel, heq2]
    rfl
  rw [hc, assert_of _ hn]
  dsimp only
  split
  · rename_i hcond
    obtain ⟨g, hg⟩ := applyCcontrol_eq (c := { c with
      resend := r
      mtu := m
      ticks := t
      delays := (measureDelays c.delays c.currentMs time seg.header
        (acc.1.selackBytes env seg acc.2.2).1.2).1 }) env hn hcond.2
    exact ⟨r, m, t, _, g, hm, hg⟩
  · exact ⟨r, m, t, _, c.cong, hm, rfl⟩

/-- Everything that `utp_process_incoming` does about acknowledgments. -/
theorem processAcks_sim (h : Rep c s) (hfront : s.Front)
    (hack : s.state = .synSent → c.ackNr = seg.header.seqNr - 1) (time : UInt64) :
    Sim EndsFront (some seg) c s (c.processAcks env seg time) := by
  obtain ⟨hle, hclaim⟩ := acks_spec seg h
  dsimp only [processAcks]
  generalize c.acks seg.header.ackNr = acks at hle hclaim ⊢
  obtain ⟨r, m, t, minRtt, g, hm, heq⟩ := measureAcks_eq env seg h.mtu time acks
  rw [heq, h.delays]
  let d := (measureDelays s.delays c.currentMs time seg.header minRtt).1
  have hstep : FrameSocket.Step (some seg) s { s with delays := d } :=
    .measure s seg c.currentMs time minRtt rfl
  have h1 : Rep { c with resend := r, mtu := m, ticks := t, delays := d, cong := g }
      { s with delays := d } :=
    { h with ok := h.ok.step hstep, mtu := hm, delays := rfl }
  rw [if_pos (show acks ≤ ({ c with
    resend := r, mtu := m, ticks := t, delays := d, cong := g } : Conn).curWindowPackets from hle)]
  refine Sim.of_view (d := { c with resend := r, mtu := m, ticks := t, delays := d, cong := g })
    rfl ?_
  refine Sim.of_cons (K := EndsFront) hstep (Quiet.of_eq rfl rfl rfl rfl rfl rfl) ?_
    fun _ hk => hk
  refine (acknowledge_sim env h1 hfront hack hle hclaim).bind (fun _ _ _ _ hk => hk)
    fun s2 h2 hfront2 _ => ?_
  generalize acknowledge _ env seg.header seg.flags acks = c2 at h2 ⊢
  have hsel : Sim EndsFront (some seg) c2 s2 (c2.applySelack env seg) := by
    unfold applySelack
    split
    · exact ⟨s2, .refl, h2, rfl, Quiet.refl s2, hfront2⟩
    · exact selectiveAck_sim env h2 hfront2 ‹_›
  refine hsel.bind (fun _ _ _ _ hk => hk) fun s3 h3 hfront3 _ => ?_
  rw [assert_of _ (h3.front_iff.mp hfront3)]
  exact ((markWritable_sim env h3).of_none hfront3).mono fun _ hk => hk.2.front hfront3

end Conn

end EChannel.LibUtp
