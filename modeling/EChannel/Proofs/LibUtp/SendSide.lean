import EChannel.Proofs.LibUtp.Refinement

/-!
# `EChannel.Proofs.LibUtp.SendSide`: the functions that send

Each function of `Conn.lean` is a simulation of steps of the `FrameSocket`: `send_packet`
transmits a frame, `write_outgoing_packet` queues frames or amends the last one, `utp_close` ends
the frames with a FIN. On the way the assertions of these functions hold.
-/

set_option autoImplicit false

namespace EChannel.LibUtp

open SlidingWindow

namespace Conn

variable {p : Option Segment} (env : Env) {c : Conn} {s : FrameSocket}

/-! ### The record of effects -/

/-- What is read behind an effect. -/
@[simp] theorem reads_emit (e : Effect) : (c.emit e).reads = c.reads ++ e.readBytes := by
  simp [reads, emit]

/-- What is taken behind an effect. -/
@[simp] theorem taken_emit (e : Effect) : (c.emit e).taken = c.taken ++ e.tookBytes := by
  simp [taken, emit]

/-- What is sent behind an effect. -/
@[simp] theorem datagrams_emit (e : Effect) :
    (c.emit e).datagrams = c.datagrams ++ e.datagrams := by
  simp [datagrams, emit]

/-! ### MTU discovery -/

/-- The search goes on between its bounds. -/
theorem mtuSearchUpdate_eq (env : Env) (hfloor : mtuFloorMin ≤ c.mtu.mtuFloor)
    (hle : c.mtu.mtuFloor ≤ c.mtu.mtuCeiling) (hceil : c.mtu.mtuCeiling ≤ udpIpv4Mtu) :
    ∃ m t, MtuOk m ∧ c.mtuSearchUpdate env = { c with mtu := m, ticks := t } := by
  unfold mtuSearchUpdate
  rw [assert_of _ hle]
  simp only
  split
  · refine ⟨_, _, ?_, rfl⟩
    exact ⟨hfloor, Nat.le_refl _, Nat.le_trans hle hceil, ⟨hfloor, Nat.le_trans hle hceil⟩,
      fun hno => absurd rfl hno⟩
  · refine ⟨_, c.ticks, ?_, rfl⟩
    exact ⟨hfloor, hle, hceil, ⟨by show mtuFloorMin ≤ _ / 2; omega, by show _ / 2 ≤ _; omega⟩,
      fun hno => absurd rfl hno⟩

/-- A new search for the packet size keeps its bounds. -/
theorem mtuReset_eq (env : Env) (h : MtuOk c.mtu) :
    ∃ m t, MtuOk m ∧ c.mtuReset env = { c with mtu := m, ticks := t } := by
  have hle : mtuFloorMin ≤ udpIpv4Mtu := by decide
  dsimp only [mtuReset]
  rw [assert_of _ hle]
  refine ⟨_, _, ?_, rfl⟩
  refine ⟨Nat.le_refl _, by show mtuFloorMin ≤ udpIpv4Mtu; decide, Nat.le_refl _, h.last,
    fun hno => ?_⟩
  obtain ⟨h1, h2⟩ := h.probe hno
  exact ⟨Nat.lt_of_le_of_lt h.floor h1, Nat.le_trans h2 h.ceiling⟩

/-- A probe of the packet size keeps its bounds. -/
theorem mtuProbe_eq (h : MtuOk c.mtu) (pkt : OutgoingPacket) :
    ∃ m, MtuOk m ∧ (c.mtuProbe pkt).1 = { c with mtu := m } := by
  unfold mtuProbe
  split
  · rename_i hcond
    refine ⟨_, ?_, rfl⟩
    exact ⟨h.floor, h.floor_le, h.ceiling, h.last, fun _ => ⟨hcond.2.1, hcond.2.2.1⟩⟩
  · exact ⟨c.mtu, h, rfl⟩

/-! ### Sending -/

/-- What an acknowledgment number says when it is the field `ack_nr`. -/
theorem truthful_ackNr (h : Rep c s) (hsync : s.synced = true) : s.Truthful c.ackNr none := by
  refine ⟨⟨s.rcv.next + 1, by omega, by omega, ?_⟩, fun m _ _ hm => by cases hm⟩
  rw [h.recv.ack hsync, UInt16.add_assoc]
  congr 1
  simp

/-- What `send_packet` changes, in one record. -/
theorem sendPacket_eq (env : Env) (h : MtuOk c.mtu) (i : Int) (pkt : OutgoingPacket) :
    ∃ m t flag time, MtuOk m ∧ c.sendPacket env i pkt =
      ({ c with
        curWindow :=
          if pkt.transmissions = 0 ∨ pkt.needResend = true then c.curWindow + pkt.payload
          else c.curWindow
        mtu := m
        ticks := t
        outbuf := c.outbuf.put i
          (some { pkt with
            header := { pkt.header with ackNr := c.ackNr }
            timeSent := time
            transmissions := pkt.transmissions + 1
            needResend := false }) }).sendData env { pkt.header with ackNr := c.ackNr } pkt.body
        flag := by
  let c1 : Conn := { c with
    curWindow :=
      if pkt.transmissions = 0 ∨ pkt.needResend = true then c.curWindow + pkt.payload
      else c.curWindow
    ticks := c.ticks + 2 }
  have hstart : ∃ c2 : Conn, (∃ m t, MtuOk m ∧ c2 = { c1 with mtu := m, ticks := t }) ∧
      c.sendPacket env i pkt =
        ({ (c2.mtuProbe pkt).1 with
          outbuf := c2.outbuf.put i
            (some { pkt with
              header := { pkt.header with ackNr := c2.ackNr }
              timeSent := env.micros (c.ticks + 1)
              transmissions := pkt.transmissions + 1
              needResend := false }) }).sendData env { pkt.header with ackNr := c2.ackNr } pkt.body
          (c2.mtuProbe pkt).2 := by
    have hc1 : c.sendPacket env i pkt =
        let c2 := if c1.mtu.mtuDiscoverTime < env.millis c.ticks then c1.mtuReset env else c1
        ({ (c2.mtuProbe pkt).1 with
          outbuf := c2.outbuf.put i
            (some { pkt with
              header := { pkt.header with ackNr := c2.ackNr }
              timeSent := env.micros (c.ticks + 1)
              transmissions := pkt.transmissions + 1
              needResend := false }) }).sendData env { pkt.header with ackNr := c2.ackNr } pkt.body
          (c2.mtuProbe pkt).2 := by
      unfold sendPacket
      by_cases hcond : pkt.transmissions = 0 ∨ pkt.needResend = true
      · simp only [if_pos hcond, c1]
        rfl
      · simp only [if_neg hcond, c1]
        rfl
    rw [hc1]
    refine ⟨_, ?_, rfl⟩
    split
    · exact mtuReset_eq env h
    · exact ⟨c.mtu, _, h, rfl⟩
  obtain ⟨c2, ⟨m, t, hm, rfl⟩, heq⟩ := hstart
  obtain ⟨m', hm', hprobe⟩ := mtuProbe_eq (c := { c1 with mtu := m, ticks := t }) hm pkt
  rw [heq, hprobe]
  exact ⟨m', t, _, _, hm', rfl⟩

/-- `send_packet` transmits the frame of its slot. -/
theorem sendPacket_sim (h : Rep c s) {i : Int} {pkt : OutgoingPacket}
    (hget : c.outbuf.get i = some pkt) : Sim SameState p c s (c.sendPacket env i pkt) := by
  obtain ⟨k, hk, hi, hget'⟩ := h.send.index_of_some hget
  have hslot : PacketRep s.isn s.snd (s.snd.base + k) pkt := by
    have := h.send.slot k hk
    rwa [hget'] at this
  obtain ⟨m, t, flag, time, hm, heq⟩ := sendPacket_eq env h.mtu i pkt
  obtain ⟨kind, hframe, htype⟩ := hslot.frame
  let d := ({ pkt.header with
    ackNr := c.ackNr
    tvUsec := (env.micros t).toUInt32
    replyMicro := c.delays.replyMicro } : PacketFormatV1).encode ++ pkt.body
  have hd : Carries d kind (s.seqOf (s.snd.base + k)) c.ackNr none pkt.body := by
    have := carries_encode { pkt.header with
      ackNr := c.ackNr
      tvUsec := (env.micros t).toUInt32
      replyMicro := c.delays.replyMicro } pkt.body hslot.version htype hslot.ext
    rwa [show pkt.header.seqNr = s.seqOf (s.snd.base + k) from hslot.seqNr] at this
  have hstep : FrameSocket.Step p s { s with
      snd := { s.snd with sent := insert (s.snd.base + k) s.snd.sent }
      out := s.out ++ [d] } :=
    .transmit s (s.snd.base + k) ⟨kind, pkt.body⟩ d c.ackNr (by omega) hframe hd
      fun hsync => truthful_ackNr h hsync
  let sent : OutgoingPacket := { pkt with
    header := { pkt.header with ackNr := c.ackNr }
    timeSent := time
    transmissions := pkt.transmissions + 1
    needResend := false }
  have hweight : weight (some sent) = pkt.payload := by
    simp [weight, sent, OutgoingPacket.payload]
  have hsend := h.send.set (T := { s.snd with sent := insert (s.snd.base + k) s.snd.sent })
    (x := some sent) hk rfl rfl
    (fun n _ hne y hy => hy.congr rfl
      ⟨fun hn => (Set.mem_insert_iff.mp hn).resolve_left (by omega),
        Set.mem_insert_of_mem _⟩ Iff.rfl)
    { hslot with
      sent := ⟨fun _ => Set.mem_insert _ _, fun _ => Nat.succ_pos _⟩
      resend := fun hno => by cases hno }
    (by rw [hget', hweight]; exact resent_weight c.curWindow pkt)
  rw [heq]
  refine Sim.of_step hstep ?_ rfl (Quiet.of_eq rfl rfl rfl rfl rfl rfl) rfl
  exact
    { h with
      ok := h.ok.step hstep
      send := by
        show SendRep _ _ _ (c.outbuf.put i _) _ _
        rw [RingBuffer.put_congr _ hi]
        exact hsend
      mtu := hm
      pending := fun hno => by cases hno
      reads := by
        show (emit _ _).reads = s.reads
        rw [reads_emit, ← h.reads]
        exact List.append_nil _
      taken := by
        show (emit _ _).taken = _
        rw [taken_emit, ← h.taken]
        exact List.append_nil _
      out := by
        show (emit _ _).datagrams = s.out ++ [d]
        rw [datagrams_emit, ← h.out]
        rfl }

/-! ### Acknowledgments -/

/-- The bits of the mask are the packets in the reorder buffer. -/
theorem testBit_eackMask (c : Conn) (w i : Nat) :
    (c.eackMask w).testBit i =
      (decide (i < w) && (c.inbuf.get ((c.ackNr.toNat : Int) + i + 2)).isSome) := by
  induction w with
  | zero => simp [eackMask]
  | succ w ih =>
    have hstep : c.eackMask (w + 1) =
        if (c.inbuf.get ((c.ackNr.toNat : Int) + w + 2)).isSome then c.eackMask w ||| 2 ^ w
        else c.eackMask w := by
      show (List.range (w + 1)).foldl _ 0 = _
      rw [List.range_succ, List.foldl_append]
      rfl
    have hlt (hne : i ≠ w) : decide (i < w + 1) = decide (i < w) := by
      rw [decide_eq_decide]
      omega
    rw [hstep]
    split
    · rename_i hsome
      rw [Nat.testBit_or, ih, Nat.testBit_two_pow]
      by_cases heq : i = w
      · subst heq
        simp [hsome]
      · have hne : decide (w = i) = false := by
          rw [decide_eq_false_iff_not]
          omega
        rw [hlt heq, hne, Bool.or_false]
    · rename_i hnone
      rw [ih]
      by_cases heq : i = w
      · subst heq
        simp [hnone]
      · rw [hlt heq]

/-- A bit that the acknowledgment `sel` of `c` sets is a packet in the reorder buffer, and there
is a mask only while frames are expected. -/
def MaskTrue (c : Conn) (sel : Option SelAck) : Prop :=
  ∀ m beyond i, sel = some m → i < m.len.toNat * 8 → m.bitSet beyond i = true →
    c.beforeFin = true ∧ i < c.inbuf.size ∧
      (c.inbuf.get ((c.ackNr.toNat : Int) + i + 2)).isSome = true

/-- What `send_ack` does, when its assertions hold. -/
theorem sendAck_eq (env : Env) (synack : Bool)
    (hassert : c.reorderCount ≠ 0 → c.beforeFin = true →
      synack = false ∧ c.inbuf.get ((c.ackNr.toNat : Int) + 1) = none) :
    ∃ d sel, c.sendAck env synack =
        ({ c with
          lastRcvWin := c.optRcvbuf
          ticks := c.ticks + 1
          lastSentPacket := c.currentMs
          ackPending := false }).emit (.sendto d false) ∧
      Carries d .state c.seqNr c.ackNr sel [] ∧ MaskTrue c sel := by
  let pf : PacketFormatV1 := { PacketFormatV1.ofType .state with
    connid := c.connIdSend.toUInt16
    ackNr := c.ackNr
    seqNr := c.seqNr
    windowsize := UInt32.ofNat c.optRcvbuf
    tvUsec := (env.micros c.ticks).toUInt32
    replyMicro := c.delays.replyMicro }
  have htype : pf.type = PacketType.state.code := PacketFormatV1.type_setType _ _
  have hcode : PacketType.ofCode pf.type = some .state := by rw [htype, PacketType.ofCode_code]
  have hversion : pf.version = 1 := PacketFormatV1.version_setType _ _
  by_cases hcond : c.reorderCount ≠ 0 ∧ c.beforeFin = true
  · obtain ⟨hsyn, hnone⟩ := hassert hcond.1 hcond.2
    let mask := c.eackMask (min (14 + 16) c.inbuf.size)
    refine ⟨({ pf with ext := 1 } : PacketFormatV1).encode ++ ackExtension mask, _, ?_,
      carries_acks { pf with ext := 1 } mask
        (PacketFormatV1.utpVersion_eq_one htype (by show (1 : UInt8) < 3; decide) hversion)
          hcode rfl, ?_⟩
    · have hcond' : ({ c with lastRcvWin := c.getRcvWindow } : Conn).reorderCount ≠ 0 ∧
          ({ c with lastRcvWin := c.getRcvWindow } : Conn).beforeFin = true := hcond
      dsimp only [sendAck]
      rw [if_pos hcond', assert_of _ hsyn, assert_of _ hnone]
      rfl
    · intro m beyond i hm hi hbit
      obtain rfl : (⟨4, (ackExtension mask).drop 2⟩ : SelAck) = m := by simpa using hm
      rw [bitSet_acks mask beyond hi, testBit_eackMask, Bool.and_eq_true, decide_eq_true_eq] at hbit
      exact ⟨hcond.2, by omega, hbit.2⟩
  · refine ⟨pf.encode ++ [], none, ?_, carries_encode pf []
        (PacketFormatV1.utpVersion_eq_one htype (by show (0 : UInt8) < 3; decide) hversion)
          hcode rfl, ?_⟩
    · have hcond' : ¬(({ c with lastRcvWin := c.getRcvWindow } : Conn).reorderCount ≠ 0 ∧
          ({ c with lastRcvWin := c.getRcvWindow } : Conn).beforeFin = true) := hcond
      dsimp only [sendAck]
      rw [if_neg hcond']
      rfl
    · intro m beyond i hm
      cases hm

/-- A socket before the last frame of its peer has not reached the end. -/
theorem eof_of_beforeFin (h : Rep c s) (hbefore : c.beforeFin = true) : s.eof = false := by
  by_contra heof
  have heof' : s.eof = true := by simpa using heof
  obtain ⟨hsync, h1, h2⟩ := h.ok.eof heof'
  have hst := h.ok.synced hsync
  unfold beforeFin at hbefore
  rw [h.state] at hbefore
  rcases hst with hst | hst | hst | hst | hst | hst | hst
  · exact h1 hst
  · exact h2 hst
  all_goals simp [hst] at hbefore

/-- The datagram of an acknowledgment was recorded, and nothing else. -/
theorem rep_ackSent (h : Rep c s) {d : List UInt8}
    (hok : ({ s with out := s.out ++ [d] } : FrameSocket).Ok) (t : Nat) (time : UInt64) :
    Rep (({ c with
        lastRcvWin := c.optRcvbuf
        ticks := t
        lastSentPacket := time
        ackPending := false } : Conn).emit (.sendto d false)) { s with out := s.out ++ [d] } :=
  { h with
    ok := hok
    rcvWin := rfl
    pending := fun hno => by cases hno
    reads := by
      rw [reads_emit]
      exact (List.append_nil _).trans h.reads
    taken := by
      rw [taken_emit]
      exact (List.append_nil _).trans h.taken
    out := by
      rw [datagrams_emit]
      exact congrArg (· ++ [d]) h.out }

/-- `send_ack` tells no more than the truth. -/
theorem sendAck_sim (h : Rep c s) (hstate : s.state ≠ .synSent) :
    Sim SameState p c s (c.sendAck env false) := by
  obtain ⟨d, sel, heq, hd, hmask⟩ := sendAck_eq (c := c) env false fun _ hbefore =>
    ⟨rfl, h.next (eof_of_beforeFin h hbefore)⟩
  rw [heq]
  have hack (hsync : s.synced = true) : s.Truthful c.ackNr sel := by
    refine ⟨(truthful_ackNr h hsync).1, fun m beyond i hm hi hbit => ?_⟩
    obtain ⟨hbefore, hlt, hsome⟩ := hmask m beyond i hm hi hbit
    have heof := eof_of_beforeFin h hbefore
    -- One round further is the slot of the next frame, which is empty.
    have hlt' : i + 1 < c.inbuf.size := by
      by_contra hge
      have hcongr : c.inbuf.get ((c.ackNr.toNat : Int) + i + 2) =
          c.inbuf.get ((c.ackNr.toNat : Int) + 1) := by
        refine RingBuffer.get_congr ?_
        rw [show (c.ackNr.toNat : Int) + i + 2 = (c.ackNr.toNat : Int) + 1 + c.inbuf.size by omega]
        exact Int.add_emod_right _ _
      rw [hcongr, h.next heof] at hsome
      cases hsome
    have hslot := h.recv.slots heof (i + 1) (by omega) hlt'
    rw [show (c.ackNr.toNat : Int) + 1 + (i + 1 : Nat) = (c.ackNr.toNat : Int) + i + 2 by omega]
      at hslot
    refine ⟨s.rcv.next + (i + 1), by omega, ?_, ?_⟩
    · rw [hslot] at hsome
      simpa using hsome
    · show c.ackNr + 2 + UInt16.ofNat i = s.irs + 1 + UInt16.ofNat (s.rcv.next + (i + 1))
      rw [h.recv.ack hsync]
      simp only [UInt16.ofNat_add]
      grind
  have hd' : Carries d .state (s.seqOf s.snd.frames.length) c.ackNr sel [] := by
    rw [show s.seqOf s.snd.frames.length = c.seqNr from h.send.seqNr_eq.symm]
    exact hd
  have hstep : FrameSocket.Step p s { s with out := s.out ++ [d] } :=
    .sendAck s d c.ackNr sel hstate hd' hack
  exact Sim.of_step hstep (rep_ackSent h (h.ok.step hstep) _ _) rfl
    (Quiet.of_eq rfl rfl rfl rfl rfl rfl) rfl

/-- `send_keep_alive` acknowledges one frame less. -/
theorem sendKeepAlive_sim (h : Rep c s) (hstate : s.Receiving) :
    Sim SameState p c s (c.sendKeepAlive env) := by
  let c1 : Conn := { c with ackNr := c.ackNr - 1 }
  have hback : c.ackNr - 1 + 1 = c.ackNr := UInt16.sub_add_cancel _ _
  have hwire : SameWire ((c1.ackNr.toNat : Int) + 1) c.ackNr.toNat := by
    have := sameWire_succ (c.ackNr - 1)
    rw [hback] at this
    exact this.symm
  have hbits : c.inbuf.bits ≤ 16 := Nat.le_trans h.recv.bits (by decide)
  have hsync := h.ok.synced_of_receiving hstate
  obtain ⟨d, sel, heq, hd, hmask⟩ := sendAck_eq (c := c1) env false fun _ hbefore =>
    ⟨rfl, (get_wire hbits hwire).trans (h.recv.last (eof_of_beforeFin h hbefore))⟩
  have hc : c.sendKeepAlive env =
      ({ c with
        lastRcvWin := c.optRcvbuf
        ticks := c.ticks + 1
        lastSentPacket := c.currentMs
        ackPending := false }).emit (.sendto d false) := by
    show ({ c1.sendAck env false with ackNr := (c1.sendAck env false).ackNr + 1 } : Conn) = _
    rw [heq]
    show ({ c with
      lastRcvWin := c.optRcvbuf
      ticks := c.ticks + 1
      lastSentPacket := c.currentMs
      ackPending := false
      effects := c.effects ++ [.sendto d false]
      ackNr := c.ackNr - 1 + 1 } : Conn) = _
    rw [hback]
    rfl
  rw [hc]
  have hack : s.Truthful (c.ackNr - 1) sel := by
    refine ⟨⟨s.rcv.next, Nat.le_refl _, Nat.le_succ _, ?_⟩, fun m beyond i hm hi hbit => ?_⟩
    · rw [hback, h.recv.ack hsync]
    · obtain ⟨hbefore, hlt, hsome⟩ := hmask m beyond i hm hi hbit
      have heof := eof_of_beforeFin h hbefore
      have hwire' : SameWire ((c1.ackNr.toNat : Int) + i + 2) ((c.ackNr.toNat : Int) + 1 + i) := by
        unfold SameWire at hwire ⊢
        omega
      have hget : (c.inbuf.get ((c.ackNr.toNat : Int) + 1 + i)).isSome = true := by
        rw [← get_wire hbits hwire']
        exact hsome
      rcases Nat.eq_zero_or_pos i with rfl | hpos
      · -- The first bit is the next frame, which has not come.
        rw [show (c.ackNr.toNat : Int) + 1 + (0 : Nat) = (c.ackNr.toNat : Int) + 1 by omega,
          h.next heof] at hget
        cases hget
      · rw [h.recv.slots heof i hpos hlt] at hget
        refine ⟨s.rcv.next + i, by omega, by simpa using hget, ?_⟩
        show c.ackNr - 1 + 2 + UInt16.ofNat i = s.irs + 1 + UInt16.ofNat (s.rcv.next + i)
        rw [h.recv.ack hsync]
        simp only [UInt16.ofNat_add]
        grind
  have hd' : Carries d .state (s.seqOf s.snd.frames.length) (c.ackNr - 1) sel [] := by
    rw [show s.seqOf s.snd.frames.length = c.seqNr from h.send.seqNr_eq.symm]
    exact hd
  have hne : s.state ≠ .synSent := by
    rcases hstate with hst | hst | hst <;> simp [hst]
  have hstep : FrameSocket.Step p s { s with out := s.out ++ [d] } :=
    .sendAck s d (c.ackNr - 1) sel hne hd' fun _ => hack
  exact Sim.of_step hstep (rep_ackSent h (h.ok.step hstep) _ _) rfl
    (Quiet.of_eq rfl rfl rfl rfl rfl rfl) rfl

/-! ### Flushing -/

/-- `is_full` changes nothing but a time stamp, and a queue that is not full has room for a
packet besides the FIN. -/
theorem isFull_eq (bytes : Option Nat) :
    (∃ g, (c.isFull bytes).2 = { c with cong := g }) ∧
      ((c.isFull bytes).1 = false → c.curWindowPackets < 1023) := by
  unfold isFull
  simp only
  split
  · exact ⟨⟨_, rfl⟩, fun hno => by cases hno⟩
  · rename_i hcond
    refine ⟨⟨c.cong, rfl⟩, fun _ => ?_⟩
    have h1 : ¬1023 ≤ c.curWindowPackets := (not_or.mp hcond).1
    omega

/-- The question whether the window is full changes no state. -/
theorem isFull_sim (h : Rep c s) (bytes : Option Nat) :
    Sim SameState p c s (c.isFull bytes).2 := by
  obtain ⟨⟨g, heq⟩, -⟩ := isFull_eq (c := c) bytes
  rw [heq]
  exact Sim.of_rep { h with } rfl

/-- Sending a packet keeps the numbers of the send queue. -/
theorem sendPacket_seqNr (h : Rep c s) (i : Int) (pkt : OutgoingPacket) :
    (c.sendPacket env i pkt).seqNr = c.seqNr ∧
      (c.sendPacket env i pkt).curWindowPackets = c.curWindowPackets := by
  obtain ⟨m, t, flag, time, -, heq⟩ := sendPacket_eq env h.mtu i pkt
  rw [heq]
  exact ⟨rfl, rfl⟩

/-- The packets of the queue from the `k`-th on are flushed. -/
theorem flushLoop_sim (packetSize n k : Nat) {c : Conn} {s : FrameSocket} (h : Rep c s)
    (hn : k + n = c.curWindowPackets) :
    Sim SameState p c s (flushLoop env packetSize n
      (c.seqNr - UInt16.ofNat c.curWindowPackets + UInt16.ofNat k) c) := by
  induction n generalizing k c s with
  | zero => exact Sim.of_rep h rfl
  | succ n ih =>
    have hsucc : c.seqNr - UInt16.ofNat c.curWindowPackets + UInt16.ofNat k + 1 =
        c.seqNr - UInt16.ofNat c.curWindowPackets + UInt16.ofNat (k + 1) := by
      simp only [UInt16.ofNat_add]
      grind
    have hskip : Sim SameState p c s (flushLoop env packetSize n
        (c.seqNr - UInt16.ofNat c.curWindowPackets + UInt16.ofNat k + 1) c) := by
      rw [hsucc]
      exact ih (k + 1) h (by omega)
    unfold flushLoop
    split
    · exact hskip
    · rename_i pkt hget
      split
      · exact hskip
      · -- `is_full` stamps a time at most, so the queue is the same behind it.
        obtain ⟨⟨g, heq⟩, -⟩ := isFull_eq (c := c) none
        simp only [heq]
        have hg : Rep { c with cong := g } s := { h with }
        have hview : ({ c with cong := g } : Conn).recvView = c.recvView := rfl
        split
        · exact Sim.of_rep hg hview
        · refine Sim.of_view hview ?_
          split
          · refine (sendPacket_sim env hg hget).bind
              sameState_trans fun s' h' _ _ => ?_
            obtain ⟨hseq, hcwp⟩ := sendPacket_seqNr env hg _ pkt
            have := ih (k + 1) h' (by rw [hcwp]; show k + 1 + n = c.curWindowPackets; omega)
            rw [hseq, hcwp] at this
            rw [hsucc]
            exact this
          · rw [hsucc]
            exact ih (k + 1) hg (by show k + 1 + n = c.curWindowPackets; omega)

/-- `flush_packets`. -/
theorem flushPackets_sim (h : Rep c s) : Sim SameState p c s (c.flushPackets env) := by
  have := flushLoop_sim (p := p) env c.getPacketSize c.curWindowPackets 0 h
    (Nat.zero_add _)
  have hzero : c.seqNr - UInt16.ofNat c.curWindowPackets + UInt16.ofNat 0 =
      c.seqNr - UInt16.ofNat c.curWindowPackets := UInt16.add_zero _
  rw [hzero] at this
  exact this

end Conn

end EChannel.LibUtp
