import EChannel.Proofs.LibUtp.WriteSide

/-!
# `EChannel.Proofs.LibUtp.Timeouts`: the timer of a socket

`check_timeouts` marks every packet as lost, resends the oldest one, and gives the connection up
after too many attempts. None of it changes what the send queue stands for.
-/

set_option autoImplicit false

namespace EChannel.LibUtp

open SlidingWindow

namespace Conn

variable {p : Option Segment} (env : Env) {c : Conn} {s : FrameSocket}

/-- A packet that is marked for resending still holds its frame. -/
theorem rep_lose (h : Rep c s) {k : Nat} {pkt : OutgoingPacket} (hk : k < c.curWindowPackets)
    (hget : c.outbuf.get (c.oldest + k) = some pkt) (hsent : 0 < pkt.transmissions)
    (hresend : pkt.needResend = false) :
    pkt.payload ≤ c.curWindow ∧
      Rep { c with
        outbuf := c.outbuf.put (c.oldest + k) (some { pkt with needResend := true })
        curWindow := c.curWindow - pkt.payload } s := by
  have hweight : weight (some pkt) = pkt.payload := by simp [weight, hsent, hresend]
  have hle : pkt.payload ≤ c.curWindow := by
    have := h.send.weight_le hk
    rwa [show (c.outbuf.get ((c.seqNr.toNat : Int) - c.curWindowPackets + k)) = some pkt from hget,
      hweight] at this
  have hslot : PacketRep s.isn s.snd (s.snd.base + k) pkt := by
    have := h.send.slot k hk
    rwa [show c.outbuf.get ((c.seqNr.toNat : Int) - c.curWindowPackets + k) = some pkt from hget]
      at this
  refine ⟨hle, { h with send := ?_ }⟩
  refine h.send.set hk rfl rfl (fun _ _ _ _ hy => hy) { hslot with resend := fun _ => hsent } ?_
  rw [show c.outbuf.get ((c.seqNr.toNat : Int) - c.curWindowPackets + k) = some pkt from hget,
    hweight]
  simp only [weight]
  rw [if_neg (by simp)]
  omega

/-- The loop that marks all packets as lost. -/
theorem loseLoop_rep (n : Nat) {c : Conn} (h : Rep c s) (hn : n ≤ c.curWindowPackets) :
    Rep (loseLoop n (c.oldest + n - 1) c) s ∧
      (loseLoop n (c.oldest + n - 1) c).recvView = c.recvView := by
  induction n generalizing c with
  | zero => exact ⟨h, rfl⟩
  | succ n ih =>
    have hindex : c.oldest + (n + 1 : Nat) - 1 = c.oldest + n := by omega
    rw [hindex]
    unfold loseLoop
    split
    · exact ih h (by omega)
    · rename_i pkt hget
      split
      · exact ih h (by omega)
      · rename_i hcond
        obtain ⟨h0, h1⟩ := not_or.mp hcond
        obtain ⟨hle, hrep⟩ := rep_lose h (by omega) hget (Nat.pos_of_ne_zero h0) (by simpa using h1)
        dsimp only
        rw [assert_of _ hle]
        exact ih hrep (by show n ≤ c.curWindowPackets; omega)

/-- The oldest packet is sent again. -/
theorem resendOldest_sim (h : Rep c s) (hfront : s.Front) :
    Sim SameState p c s (c.resendOldest env) := by
  unfold resendOldest
  split
  · rename_i hpos
    have hsome := (h.front_iff.mp hfront).resolve_left (by omega)
    dsimp only
    cases hget : c.outbuf.get c.oldest with
    | none => exact absurd hget hsome
    | some pkt =>
      have hrep : Rep { c with
        rtt := { c.rtt with retransmitCount := c.rtt.retransmitCount + 1 }
        resend := { c.resend with fastTimeout := true, timeoutSeqNr := c.seqNr } } s := { h with }
      have hget' : c.outbuf.get ({ c with
        rtt := { c.rtt with retransmitCount := c.rtt.retransmitCount + 1 }
        resend := { c.resend with fastTimeout := true, timeoutSeqNr := c.seqNr } } : Conn).oldest =
          some pkt := hget
      simp only [hget']
      refine Sim.of_view (d := { c with
        rtt := { c.rtt with retransmitCount := c.rtt.retransmitCount + 1 }
        resend := { c.resend with fastTimeout := true, timeoutSeqNr := c.seqNr } }) rfl ?_
      exact sendPacket_sim env hrep hget
  · exact Sim.of_rep h rfl

/-- The probe timed out: the search goes on below its size. -/
theorem mtuProbeFailed_eq (h : MtuOk c.mtu) (hprobe : c.mtu.mtuProbeSeq ≠ 0) :
    ∃ m t, MtuOk m ∧ c.mtuProbeFailed env = { c with mtu := m, ticks := t } := by
  obtain ⟨h1, h2⟩ := h.probe hprobe
  have hceil := h.ceiling
  exact mtuSearchUpdate_eq (c := { c with mtu :=
    { c.mtu with mtuCeiling := c.mtu.mtuProbeSize - 1 } }) env h.floor
    (by show c.mtu.mtuFloor ≤ c.mtu.mtuProbeSize - 1; omega)
    (by show c.mtu.mtuProbeSize - 1 ≤ udpIpv4Mtu; omega)

/-- The search when a timeout has come: without a probe. -/
theorem probeGone_eq (h : MtuOk c.mtu) :
    ∃ m t, MtuOk m ∧
      (if c.probeTimedOut then c.mtuProbeFailed env else c).mtuProbeClear =
        { c with mtu := m, ticks := t } := by
  split
  · rename_i hprobe
    have hne : c.mtu.mtuProbeSeq ≠ 0 := by
      simp only [probeTimedOut, decide_eq_true_eq] at hprobe
      exact hprobe.2.2
    obtain ⟨m, t, hm, heq⟩ := mtuProbeFailed_eq env h hne
    rw [heq]
    exact ⟨_, t, hm.clear, rfl⟩
  · exact ⟨_, c.ticks, h.clear, rfl⟩

/-- The connection is given up, and the upper layer hears of it. -/
theorem giveUp_sim (h : Rep c s) {st : ConnState}
    (hst : st = .reset ∨ st = .destroy ∧ c.state.closable = false)
    {e : Effect} (he : e.readBytes = [] ∧ e.tookBytes = [] ∧ e.datagrams = []) :
    Sim AnyState p c s (({ c with state := st } : Conn).callback env e) := by
  have hmove : FrameSocket.Moves s.state st := by
    rcases hst with rfl | ⟨rfl, -⟩
    · exact .reset _
    · exact .destroy _
  refine (move_sim h hmove (closable_of_failed h hst) (Or.inr (hst.imp id And.left))).bind
    anyState_trans fun s' h' _ _ => ?_
  exact (callback_sim env h' he).any

/-- What an expired timer does. -/
theorem retransmit_sim (h : Rep c s) (hfront : s.Front) :
    Sim AnyState p c s (c.retransmit env).1 := by
  obtain ⟨m, t, hm, hprobe⟩ := probeGone_eq env h.mtu
  dsimp only [retransmit]
  rw [hprobe]
  have hrep : Rep { c with mtu := m, ticks := t } s := { h with mtu := hm }
  refine Sim.of_view (d := { c with mtu := m, ticks := t }) rfl ?_
  split
  · rename_i hst
    exact absurd hst hrep.state_ne_synRecv
  · split
    · refine giveUp_sim env hrep ?_ ⟨rfl, rfl, rfl⟩
      split
      · rename_i hst
        exact Or.inr ⟨rfl, congrArg ConnState.closable hst⟩
      · exact Or.inl rfl
    · -- The window shrinks unless the loss was that of the probe.
      generalize hc : ite (c.probeTimedOut = true) _ _ = c2
      have h2 : Rep c2 s ∧ c2.recvView = c.recvView ∧ c2.curWindowPackets = c.curWindowPackets := by
        subst hc
        split
        · exact ⟨{ hrep with }, rfl, rfl⟩
        · unfold shrinkWindow
          split
          · exact ⟨{ hrep with }, rfl, rfl⟩
          · exact ⟨{ hrep with }, rfl, rfl⟩
      obtain ⟨h2, hview, -⟩ := h2
      obtain ⟨h3, hview3⟩ := loseLoop_rep c2.curWindowPackets h2 (Nat.le_refl _)
      rw [show c2.oldest + c2.curWindowPackets - 1 = (c2.seqNr.toNat : Int) - 1 by
        show (c2.seqNr.toNat : Int) - c2.curWindowPackets + c2.curWindowPackets - 1 = _
        omega] at h3 hview3
      refine Sim.of_view (hview3.trans hview) ?_
      exact (resendOldest_sim env h3 hfront).any

/-- A socket that was full and has room again. -/
theorem markWritable_sim (h : Rep c s) : Sim StaysOpen p c s (c.markWritable env) := by
  unfold markWritable
  split
  · rename_i hst
    have hfull : s.state = .connectedFull := h.state.symm.trans hst
    obtain ⟨⟨g, heq⟩, -⟩ := isFull_eq (c := c) none
    dsimp only
    rw [heq]
    split
    · have hrep : Rep { c with cong := g } s := { h with }
      exact (Sim.of_rep hrep rfl).stays
    · have hstep : FrameSocket.Step p s { s with state := .connected } :=
        .move s .connected (by rw [hfull]; exact .writable) fun _ => rfl
      have hrep : Rep { c with cong := g, state := .connected } { s with state := .connected } :=
        { h with
          ok := h.ok.step hstep
          state := rfl
          room := fun _ => h.room (Or.inr hfull)
          pending := fun _ => by simp }
      refine (Sim.of_step (K := StaysOpen) hstep hrep rfl (Quiet.of_eq rfl rfl rfl rfl rfl rfl)
        fun _ => Or.inl rfl).bind staysOpen_trans fun s' h' _ _ => ?_
      exact callback_sim env h' ⟨rfl, rfl, rfl⟩
  · exact (Sim.of_rep h rfl).stays

/-- The timers of a connection that is open or closing. -/
theorem checkOpen_sim (h : Rep c s) (hfront : s.Front) : Sim AnyState p c s (c.checkOpen env) := by
  dsimp only [checkOpen]
  generalize hc : (if 0 ≤ elapsed c.currentMs c.cong.zerowindowTime ∧ c.cong.maxWindowUser = 0
    then _ else c) = c1
  have h1 : Rep c1 s ∧ c1.recvView = c.recvView := by
    subst hc
    split
    · exact ⟨{ h with }, rfl⟩
    · exact ⟨h, rfl⟩
  obtain ⟨h1, hview⟩ := h1
  refine Sim.of_view hview ?_
  generalize hr : (if 0 ≤ elapsed c1.currentMs c1.rtt.rtoTimeout ∧ 0 < c1.rtt.rtoTimeout
    then c1.retransmit env else (c1, false)) = r
  have h2 : Sim AnyState p c1 s r.1 := by
    subst hr
    split
    · exact retransmit_sim env h1 hfront
    · exact (Sim.of_rep h1 rfl).any
  split
  · exact h2
  · refine h2.bind anyState_trans fun s2 hrep2 _ _ => ?_
    refine (markWritable_sim env hrep2).any.bind anyState_trans fun s3 hrep3 _ _ => ?_
    split
    · rename_i hcond
      refine (sendKeepAlive_sim env hrep3 ?_).any
      rw [hrep3.state] at hcond
      rcases hcond.1 with hst | hst
      · exact Or.inl hst
      · exact Or.inr (Or.inl hst)
    · exact (Sim.of_rep hrep3 rfl).any

/-- `check_timeouts`. Its assertion holds when the oldest packet waits for its acknowledgment. -/
theorem checkTimeouts_sim (h : Rep c s) (hfront : s.Front) :
    Sim AnyState none c s (c.checkTimeouts env) := by
  have hclock : Rep (c.readClock env) s := { h with }
  dsimp only [checkTimeouts]
  rw [assert_of _ (hclock.front_iff.mp hfront)]
  refine Sim.of_view (d := c.readClock env) rfl ?_
  have hflush : Sim AnyState none (c.readClock env) s
      (if (c.readClock env).state ≠ .destroy then (c.readClock env).flushPackets env
        else c.readClock env) := by
    split
    · exact (flushPackets_sim env hclock).any
    · exact (Sim.of_rep hclock rfl).any
  refine (hflush.of_none hfront).comp (J := AnyState) (fun s1 h1 hk _ => ?_)
    fun _ _ _ _ => trivial
  generalize (if (c.readClock env).state ≠ .destroy then (c.readClock env).flushPackets env
    else c.readClock env) = c1 at h1 ⊢
  have hexpire : Sim AnyState none c1 s1
      (if 0 ≤ elapsed c1.currentMs c1.rtt.rtoTimeout then
        let c := { c1 with state := if c1.state = .destroyDelay then .destroy else .reset }
        if 0 < c.curWindowPackets then c.callback env (.onError .connReset) else c
      else c1) := by
    split
    · have hst : (if c1.state = .destroyDelay then ConnState.destroy else .reset) = .reset ∨
          (if c1.state = .destroyDelay then ConnState.destroy else .reset) = .destroy ∧
            c1.state.closable = false := by
        split
        · rename_i hdelay
          exact Or.inr ⟨rfl, congrArg ConnState.closable hdelay⟩
        · exact Or.inl rfl
      dsimp only
      split
      · exact giveUp_sim env h1 hst ⟨rfl, rfl, rfl⟩
      · refine move_sim h1 ?_ (closable_of_failed h1 hst) (Or.inr (hst.imp id And.left))
        rcases hst with hst | ⟨hst, -⟩
        · rw [hst]
          exact .reset _
        · rw [hst]
          exact .destroy _
    · exact (Sim.of_rep h1 rfl).any
  split
  · exact checkOpen_sim env h1 (hk.2.front hfront)
  · exact checkOpen_sim env h1 (hk.2.front hfront)
  · exact checkOpen_sim env h1 (hk.2.front hfront)
  · exact checkOpen_sim env h1 (hk.2.front hfront)
  · exact checkOpen_sim env h1 (hk.2.front hfront)
  · exact hexpire
  · exact hexpire
  · exact (Sim.of_rep h1 rfl).any

end Conn

end EChannel.LibUtp
