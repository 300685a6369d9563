import EChannel.Proofs.LibUtp.SendSide

/-!
# `EChannel.Proofs.LibUtp.WriteSide`: what the upper layer calls

`utp_write` queues data frames or adds to the last one while that was not sent; `utp_close` puts
the FIN behind them. Inside a callback the upper layer makes any number of such calls
(`callback_sim`), and the socket keeps taking frames if it did before.
-/

set_option autoImplicit false

namespace EChannel.LibUtp

open SlidingWindow

namespace Conn

variable {p : Option Segment} (env : Env) {c : Conn} {s : FrameSocket}

/-! ### New packets -/

/-- A packet comes to the end of the queue, with a change of state when it is the FIN. -/
theorem rep_append (h : Rep c s) (st : ConnState) (r : RoundTrip) (kind : PacketType)
    (pkt : OutgoingPacket)
    (hok : ({ s with
      state := st
      snd := { s.snd with frames := s.snd.frames ++ [⟨kind, pkt.body⟩] } } : FrameSocket).Ok)
    (hcwp : c.curWindowPackets < 1024)
    (hroom : st = .connected ∨ st = .connectedFull → c.curWindowPackets < 1023)
    (hst : st ≠ .synSent) (htype : PacketType.ofCode pkt.header.type = some kind)
    (hversion : pkt.header.utpVersion = 1) (hext : pkt.header.ext = 0)
    (hnew : pkt.transmissions = 0) (hresend : pkt.needResend = false) :
    Rep ((({ c with state := st, rtt := r, lastRcvWin := c.optRcvbuf } : Conn).appendPacket
        pkt).emit (.took pkt.body))
      { s with
        state := st
        snd := { s.snd with frames := s.snd.frames ++ [⟨kind, pkt.body⟩] } } := by
  have hpkt : PacketRep s.isn { s.snd with frames := s.snd.frames ++ [⟨kind, pkt.body⟩] }
      s.snd.frames.length { pkt with header := { pkt.header with seqNr := c.seqNr } } := by
    refine ⟨⟨kind, ?_, htype⟩, h.send.seqNr_eq, hversion, hext, ?_, ?_, ?_⟩
    · simp
    · refine ⟨fun hpos => ?_, fun hmem => ?_⟩
      · have hpos' : 0 < pkt.transmissions := hpos
        omega
      · exact absurd (h.ok.sent_lt _ hmem) (Nat.lt_irrefl _)
    · intro hr
      have hr' : pkt.needResend = true := hr
      rw [hresend] at hr'
      cases hr'
    · exact fun hmem => absurd (h.ok.acked_lt _ hmem) (Nat.lt_irrefl _)
  have hsend := h.send.append (T := { s.snd with frames := s.snd.frames ++ [⟨kind, pkt.body⟩] })
    hcwp ⟨kind, pkt.body⟩ rfl rfl
    (fun k hk y hy => hy.congr (List.getElem?_append_left hk) Iff.rfl Iff.rfl) hpkt hnew
  exact
    { h with
      ok := hok
      state := rfl
      send := hsend
      room := fun hopen => hroom hopen
      rcvWin := rfl
      pending := fun _ => hst
      queued := by
        show c.queued + 1 = _
        rw [h.queued]
        simp
      reads := by
        rw [reads_emit]
        exact (List.append_nil _).trans h.reads
      taken := by
        rw [taken_emit]
        show c.taken ++ pkt.body = _
        rw [h.taken]
        simp
      out := by
        rw [datagrams_emit]
        exact (List.append_nil _).trans h.out }

/-- The header of a packet of the queue, whatever it was before. -/
theorem fillHeader_spec (flags : PacketType) (pf : PacketFormatV1) :
    PacketType.ofCode (c.fillHeader flags pf).type = some flags ∧
      (c.fillHeader flags pf).utpVersion = 1 ∧ (c.fillHeader flags pf).ext = 0 ∧
      (c.fillHeader flags pf).seqNr = pf.seqNr := by
  have htype : (c.fillHeader flags pf).type = flags.code :=
    PacketFormatV1.type_setType (pf.setVersion 1) flags
  refine ⟨by rw [htype, PacketType.ofCode_code], ?_, rfl, rfl⟩
  exact PacketFormatV1.utpVersion_eq_one htype (by show (0 : UInt8) < 3; decide)
    (PacketFormatV1.version_setType pf flags)

/-- What `lastUnsent` finds. -/
theorem lastUnsent_eq_some {data : List UInt8} {packetSize : Nat} {pkt : OutgoingPacket}
    (hlast : c.lastUnsent data packetSize = some pkt) :
    0 < c.curWindowPackets ∧ c.outbuf.get ((c.seqNr.toNat : Int) - 1) = some pkt ∧
      pkt.transmissions = 0 ∧ pkt.payload < packetSize ∧ data ≠ [] := by
  unfold lastUnsent at hlast
  split at hlast
  · rename_i hpos
    split at hlast
    · cases hlast
    · rename_i pkt' hget
      split at hlast
      · rename_i hcond
        obtain rfl : pkt' = pkt := by simpa using hlast
        exact ⟨hpos, hget, hcond.2.1, hcond.2.2, hcond.1⟩
      · cases hlast
  · cases hlast

/-- Data goes into the last packet of the queue, which was not sent. -/
theorem rep_amend (h : Rep c s) (hstate : s.state = .connected) {pkt : OutgoingPacket}
    (hpos : 0 < c.curWindowPackets)
    (hget : c.outbuf.get ((c.seqNr.toNat : Int) - 1) = some pkt) (hnew : pkt.transmissions = 0)
    (more : List UInt8) :
    ∃ s', FrameSocket.Step p s s' ∧ SameState s s' ∧ Quiet s s' ∧
      Rep (({ c with
        lastRcvWin := c.optRcvbuf
        outbuf := c.outbuf.put ((c.seqNr.toNat : Int) - 1)
          (some { pkt with
            header := c.fillHeader .data pkt.header
            body := pkt.body ++ more }) } : Conn).emit (.took more)) s' := by
  have hindex : (c.seqNr.toNat : Int) - 1 =
      (c.seqNr.toNat : Int) - c.curWindowPackets + (c.curWindowPackets - 1 : Nat) := by omega
  have hwin := h.send.window
  have hlt : c.curWindowPackets - 1 < c.curWindowPackets := by omega
  have hnum : s.snd.base + (c.curWindowPackets - 1) = s.snd.frames.length - 1 := by omega
  have hslot : PacketRep s.isn s.snd (s.snd.frames.length - 1) pkt := by
    have := h.send.slot _ hlt
    rwa [← hindex, hget, hnum] at this
  have hunsent : s.snd.frames.length - 1 ∉ s.snd.sent := fun hmem => by
    have := hslot.sent.mpr hmem
    omega
  obtain ⟨kind, hframe, -⟩ := hslot.frame
  -- A SYN is sent at once, and a connected socket has no FIN.
  have hkind : kind = .data := by
    rcases h.ok.kinds _ (List.mem_of_getElem? hframe) with hk | hk | hk
    · exact absurd (h.ok.syn _ _ hframe hk) hunsent
    · exact hk
    · exact absurd hstate (h.ok.fin _ _ hframe hk).2.1
  subst hkind
  have hlen : (s.snd.frames.dropLast ++ [(⟨.data, pkt.body ++ more⟩ : Frame)]).length =
      s.snd.frames.length := by
    simp only [List.length_append, List.length_dropLast, List.length_singleton]
    omega
  have hstep : FrameSocket.Step p s { s with snd :=
      { s.snd with frames := s.snd.frames.dropLast ++ [⟨.data, pkt.body ++ more⟩] } } :=
    .amend s pkt.body more hstate hframe hunsent
  refine ⟨_, hstep, rfl, (Quiet.of_eq rfl rfl rfl rfl rfl rfl), ?_⟩
  obtain ⟨htype, hversion, hext, hseq⟩ := fillHeader_spec (c := c) .data pkt.header
  have hpkt : PacketRep s.isn
      { s.snd with frames := s.snd.frames.dropLast ++ [⟨.data, pkt.body ++ more⟩] }
      (s.snd.base + (c.curWindowPackets - 1))
      { pkt with header := c.fillHeader .data pkt.header, body := pkt.body ++ more } := by
    rw [hnum]
    refine ⟨⟨.data, ?_, htype⟩, hseq.trans hslot.seqNr, hversion, hext, hslot.sent, hslot.resend,
      hslot.notAcked⟩
    show (s.snd.frames.dropLast ++
        [(⟨.data, pkt.body ++ more⟩ : Frame)])[s.snd.frames.length - 1]? =
      some ⟨.data, pkt.body ++ more⟩
    rw [List.getElem?_append_right (by rw [List.length_dropLast]), List.length_dropLast]
    simp
  have hsend := h.send.set
    (T := { s.snd with frames := s.snd.frames.dropLast ++ [⟨.data, pkt.body ++ more⟩] })
    (x := some { pkt with header := c.fillHeader .data pkt.header, body := pkt.body ++ more }) hlt
    rfl hlen
    (fun m hm hne y hy => hy.congr (by
      show (s.snd.frames.dropLast ++ [(⟨.data, pkt.body ++ more⟩ : Frame)])[s.snd.base + m]? =
        s.snd.frames[s.snd.base + m]?
      have hm' : s.snd.base + m < s.snd.frames.length - 1 := by omega
      rw [List.getElem?_append_left (by rw [List.length_dropLast]; exact hm'),
        List.getElem?_dropLast, if_pos hm']) Iff.rfl Iff.rfl)
    hpkt (w := c.curWindow) (by
      rw [← hindex, hget]
      simp [weight, hnew])
  rw [← hindex] at hsend
  exact
    { h with
      ok := h.ok.step hstep
      send := hsend
      rcvWin := rfl
      queued := h.queued.trans hlen.symm
      reads := by
        rw [reads_emit]
        exact (List.append_nil _).trans h.reads
      taken := by
        rw [taken_emit]
        show c.taken ++ more =
          (s.snd.frames.dropLast ++ [(⟨.data, pkt.body ++ more⟩ : Frame)]).flatMap Frame.body
        have hsplit : s.snd.frames = s.snd.frames.dropLast ++ [⟨.data, pkt.body⟩] := by
          have hne : s.snd.frames ≠ [] := by
            intro hnil
            rw [hnil] at hframe
            cases hframe
          rw [List.getElem?_eq_getElem (by omega)] at hframe
          have hlastEq : s.snd.frames.getLast hne = ⟨.data, pkt.body⟩ := by
            rw [List.getLast_eq_getElem]
            simpa using hframe
          rw [← hlastEq]
          exact (List.dropLast_append_getLast hne).symm
        rw [h.taken]
        conv_lhs => rw [hsplit]
        simp
      out := by
        rw [datagrams_emit]
        exact (List.append_nil _).trans h.out }

/-! ### Writing -/

/-- One round of `write_outgoing_packet` with data. When something is left, the queue is as long
as before. -/
theorem writeRound_sim (h : Rep c s) (hstate : s.state = .connected)
    (hcwp : c.curWindowPackets < 1023) (packetSize : Nat) (data : List UInt8) :
    Sim SameState p c s (c.writeRound .data packetSize data).1 ∧
      ((c.writeRound .data packetSize data).2 = [] ∨
        (c.writeRound .data packetSize data).1.curWindowPackets = c.curWindowPackets) := by
  have hmax : c.curWindowPackets < outgoingBufferMaxSize := Nat.lt_trans hcwp (by decide)
  dsimp only [writeRound]
  rw [assert_of _ hmax]
  cases hlast : c.lastUnsent data packetSize with
  | some pkt =>
    obtain ⟨hpos, hget, hnew, -, -⟩ := lastUnsent_eq_some hlast
    have hresend : pkt.needResend = false := by
      -- Only a packet that was sent is marked for resending.
      have hlt : c.curWindowPackets - 1 < c.curWindowPackets := by omega
      have hslot := h.send.slot _ hlt
      rw [show (c.seqNr.toNat : Int) - c.curWindowPackets + (c.curWindowPackets - 1 : Nat) =
        (c.seqNr.toNat : Int) - 1 by omega, hget] at hslot
      by_contra hno
      have : 0 < pkt.transmissions := hslot.resend (by simpa using hno)
      omega
    simp only
    rw [assert_of _ hresend, assert_of _ trivial]
    obtain ⟨s', hstep, hst, hq, hrep⟩ := rep_amend (p := p) h hstate hpos hget hnew
      (data.take (min (data.length + pkt.payload) (max packetSize pkt.payload) - pkt.payload))
    have hfill : ({ c with lastRcvWin := c.getRcvWindow } : Conn).fillHeader .data pkt.header =
        c.fillHeader .data pkt.header := by
      unfold fillHeader
      rw [show ({ c with lastRcvWin := c.getRcvWindow } : Conn).lastRcvWin = c.lastRcvWin from
        h.rcvWin.symm]
    rw [hfill]
    exact ⟨Sim.of_step hstep hrep rfl hq hst, Or.inr rfl⟩
  | none =>
    simp only
    rw [assert_of _ (Or.inr trivial)]
    refine ⟨?_, Or.inl trivial⟩
    have hstep : FrameSocket.Step p s { s with snd :=
        { s.snd with frames := s.snd.frames ++ [⟨.data, data⟩] } } :=
      .queue s data hstate (by have := h.send.window; show _ < _ + 1024; omega)
    obtain ⟨htype, hversion, hext, -⟩ :=
      fillHeader_spec (c := { c with lastRcvWin := c.getRcvWindow }) .data .zero
    have hrep := rep_append h s.state c.rtt .data
      { header := ({ c with lastRcvWin := c.getRcvWindow } : Conn).fillHeader .data .zero,
        body := data, timeSent := 0, transmissions := 0, needResend := false }
      (h.ok.step hstep) (by omega) (fun _ => hcwp) (by rw [hstate]; simp)
        htype hversion hext rfl rfl
    rw [← h.state] at hrep
    refine Sim.of_step hstep ?_ rfl (Quiet.of_eq rfl rfl rfl rfl rfl rfl) rfl
    have hs : ({ s with
        state := c.state
        snd := { s.snd with frames := s.snd.frames ++ [⟨.data, data⟩] } } : FrameSocket) =
        { s with snd := { s.snd with frames := s.snd.frames ++ [⟨.data, data⟩] } } := by
      rw [h.state]
    rw [hs] at hrep
    exact hrep

/-- The rounds of `write_outgoing_packet` add one packet at most. -/
theorem writeRounds_sim (packetSize n : Nat) {c : Conn} {s : FrameSocket} (h : Rep c s)
    (hstate : s.state = .connected) (hcwp : c.curWindowPackets < 1023) (data : List UInt8) :
    Sim SameState p c s (writeRounds .data packetSize n c data) := by
  induction n generalizing c s data with
  | zero => exact Sim.of_rep h rfl
  | succ n ih =>
    obtain ⟨hsim, hrest⟩ := writeRound_sim (p := p) h hstate hcwp packetSize data
    dsimp only [writeRounds]
    split
    · exact hsim
    · rename_i hne
      refine hsim.bind sameState_trans fun s' h' hst _ => ?_
      refine ih h' (hst.trans hstate) ?_ _
      rw [hrest.resolve_left hne]
      exact hcwp

/-- The timer that is set up for the first packet of a queue, with its assertion. -/
theorem startTimer_eq (h : Rep c s) (st : ConnState) :
    ∃ r, (if c.curWindowPackets = 0 then
        ({ c with
          state := st
          rtt := { c.rtt with
            retransmitTimeout := c.rtt.rto
            rtoTimeout := c.currentMs + UInt64.ofNat c.rtt.rto } } : Conn).assert
          (c.curWindow = 0)
      else { c with state := st }) = { c with state := st, rtt := r } := by
  split
  · rename_i hzero
    have hflight : c.curWindow = 0 := by
      have := h.send.inFlight
      rw [hzero] at this
      exact this
    rw [assert_of _ hflight]
    exact ⟨_, rfl⟩
  · exact ⟨c.rtt, rfl⟩

/-- `write_outgoing_packet` with data. -/
theorem writeOutgoingPacket_sim (h : Rep c s) (hstate : s.state = .connected)
    (hcwp : c.curWindowPackets < 1023) (data : List UInt8) :
    Sim SameState p c s (c.writeOutgoingPacket env .data data) := by
  obtain ⟨r, hr⟩ := startTimer_eq h c.state
  unfold writeOutgoingPacket
  simp only
  rw [show (if c.curWindowPackets = 0 then _ else c) = ({ c with rtt := r } : Conn) from hr]
  have hrep : Rep { c with rtt := r } s := { h with }
  have hsim := writeRounds_sim (p := p) ({ c with rtt := r } : Conn).getPacketSize
    (data.length + 1) hrep hstate hcwp data
  refine Sim.of_view (d := { c with rtt := r }) rfl ?_
  exact hsim.bind sameState_trans fun s' h' _ _ => flushPackets_sim env h'

/-- The loop of `utp_writev`. -/
theorem writeLoop_sim (packetSize n : Nat) {c : Conn} {s : FrameSocket} (h : Rep c s)
    (hstate : s.state = .connected) (bytes : List UInt8) (sent : Nat) :
    Sim SameState p c s (writeLoop env packetSize n c bytes sent).1 := by
  induction n generalizing c s bytes sent with
  | zero => exact Sim.of_rep h rfl
  | succ n ih =>
    dsimp only [writeLoop]
    have hfull := isFull_sim (p := p) h (some (min bytes.length packetSize))
    obtain ⟨⟨g, heq⟩, hroom⟩ := isFull_eq (c := c) (some (min bytes.length packetSize))
    split
    · exact hfull
    · rename_i hnot
      have hcwp := hroom (by simpa using hnot)
      rw [heq]
      have hg : Rep { c with cong := g } s := { h with }
      have hwrite := writeOutgoingPacket_sim (p := p) env hg hstate hcwp
        (bytes.take (min bytes.length packetSize))
      refine Sim.of_view (d := { c with cong := g }) rfl ?_
      split
      · exact hwrite
      · exact hwrite.bind sameState_trans fun s' h' hst _ => ih h' (hst.trans hstate) _ _

/-- `utp_write`. -/
theorem utpWrite_sim (h : Rep c s) (bytes : List UInt8) :
    Sim StaysOpen p c s (c.utpWrite env bytes).1 := by
  unfold utpWrite
  split
  · exact (Sim.of_rep h rfl).stays
  · rename_i hne
    have hstate : s.state = .connected := by
      rw [← h.state]
      exact not_not.mp hne
    have hclock : Rep (c.readClock env) s := { h with }
    have hloop := writeLoop_sim (p := p) env (c.readClock env).getPacketSize (bytes.length + 1)
      hclock hstate bytes 0
    refine Sim.of_view (d := c.readClock env) rfl ?_
    dsimp only
    split
    · exact hloop.stays
    · refine hloop.comp (J := StaysOpen) (fun s' h' hst _ => ?_)
        fun s' s'' hst hopen => staysOpen_of_same hst hopen
      have hcon : s'.state = .connected := hst.trans hstate
      obtain ⟨⟨g, heq⟩, -⟩ := isFull_eq
        (c := (writeLoop env (c.readClock env).getPacketSize (bytes.length + 1) (c.readClock env)
          bytes 0).1) none
      rw [heq]
      split
      · have hstep : FrameSocket.Step p s' { s' with state := .connectedFull } :=
          .move s' .connectedFull (by rw [hcon]; exact .full) fun _ => rfl
        refine Sim.of_step hstep ?_ rfl (Quiet.of_eq rfl rfl rfl rfl rfl rfl)
          fun _ => Or.inr (Or.inl rfl)
        exact
          { h' with
            ok := h'.ok.step hstep
            state := rfl
            room := fun _ => h'.room (Or.inl hcon)
            pending := fun _ => by simp }
      · refine Sim.stays (Sim.of_rep ?_ rfl)
        exact { h' with }

/-! ### Closing -/

/-- Without data a round makes a new packet. -/
theorem writeRound_fin (hcwp : c.curWindowPackets < 1024) (packetSize : Nat) :
    c.writeRound .fin packetSize [] =
      ((({ c with lastRcvWin := c.optRcvbuf } : Conn).appendPacket
        { header := ({ c with lastRcvWin := c.optRcvbuf } : Conn).fillHeader .fin .zero,
          body := [], timeSent := 0, transmissions := 0, needResend := false }).emit (.took []),
        []) := by
  have hlast : c.lastUnsent [] packetSize = none := by
    unfold lastUnsent
    split
    · split
      · rfl
      · simp
    · rfl
  have hmax : c.curWindowPackets < outgoingBufferMaxSize := hcwp
  dsimp only [writeRound]
  rw [assert_of _ hmax, hlast]
  simp only
  rw [assert_of _ (Or.inl trivial)]
  rfl

/-- A call of `utp_close` is counted. -/
theorem rep_called (h : Rep c s) :
    Rep { c with closes := c.closes + 1 } { s with closes := s.closes + 1 } :=
  { h with
    ok := h.ok.step (p := none) (.called s)
    closes := congrArg (· + 1) h.closes
    misused := fun hle => h.misused (Nat.le_of_succ_le hle) }

/-- `utp_close` of a connected socket: the FIN is queued and everything flushed. -/
theorem closeConnected_sim (h : Rep c s)
    (hstate : s.state = .connected ∨ s.state = .connectedFull) (hcalled : 0 < s.closes) :
    Sim StaysOpen p c s
      (({ c with state := .finSent } : Conn).writeOutgoingPacket env .fin []) := by
  obtain ⟨r, hr⟩ := startTimer_eq h .finSent
  have hcwp := h.room hstate
  have hroom : s.snd.frames.length < s.snd.base + outgoingBufferMaxSize := by
    have := h.send.window
    show _ < _ + 1024
    omega
  have hstep : FrameSocket.Step p s { s with
      state := .finSent
      snd := { s.snd with frames := s.snd.frames ++ [⟨.fin, []⟩] } } :=
    .close s hstate hroom hcalled
  obtain ⟨htype, hversion, hext, -⟩ := fillHeader_spec
    (c := { c with state := .finSent, rtt := r, lastRcvWin := c.optRcvbuf }) .fin .zero
  have hrep := rep_append h .finSent r .fin
    { header := ({ c with state := .finSent, rtt := r, lastRcvWin := c.optRcvbuf } :
        Conn).fillHeader .fin .zero,
      body := [], timeSent := 0, transmissions := 0, needResend := false }
    (h.ok.step hstep) (by omega) (fun hno => by rcases hno with hno | hno <;> cases hno) (by simp)
    htype hversion hext rfl rfl
  -- Without data there is one round, and it makes a new packet.
  have hround : writeRounds .fin ({ c with state := .finSent, rtt := r } : Conn).getPacketSize 1
      { c with state := .finSent, rtt := r } [] =
        (({ c with state := .finSent, rtt := r, lastRcvWin := c.optRcvbuf } : Conn).appendPacket
          { header := ({ c with state := .finSent, rtt := r, lastRcvWin := c.optRcvbuf } :
              Conn).fillHeader .fin .zero,
            body := [], timeSent := 0, transmissions := 0, needResend := false }).emit
          (.took []) := by
    have hmax : ({ c with state := .finSent, rtt := r } : Conn).curWindowPackets < 1024 :=
      Nat.lt_of_le_of_lt hcwp (by decide)
    show (let r' := writeRound _ _ _ []
      if r'.2 = [] then r'.1 else _) = _
    rw [writeRound_fin hmax]
    rfl
  have hclose : ({ c with state := .finSent } : Conn).writeOutgoingPacket env .fin [] =
      (writeRounds .fin ({ c with state := .finSent, rtt := r } : Conn).getPacketSize 1
        { c with state := .finSent, rtt := r } []).flushPackets env := by
    unfold writeOutgoingPacket
    simp only
    rw [show (if c.curWindowPackets = 0 then _ else ({ c with state := .finSent } : Conn)) =
      ({ c with state := .finSent, rtt := r } : Conn) from hr]
    rfl
  rw [hclose, hround]
  refine (Sim.of_step hstep hrep rfl (Quiet.of_eq rfl rfl rfl rfl rfl rfl)
    (K := StaysOpen) fun _ => Or.inr (Or.inr rfl)).bind staysOpen_trans fun s' h' _ _ => ?_
  exact (flushPackets_sim env h').stays

/-- A change of state without any other meaning. -/
theorem rep_move (h : Rep c s) {st : ConnState} (hmove : FrameSocket.Moves s.state st)
    (hcalled : s.closes = 0 → st.closable = true)
    (hst : st = .destroyDelay ∨ st = .reset ∨ st = .destroy) :
    Rep { c with state := st } { s with state := st } := by
  have hstep : FrameSocket.Step none s { s with state := st } :=
    .move s st hmove hcalled
  exact
    { h with
      ok := h.ok.step hstep
      state := rfl
      room := fun hopen => by
        rcases hst with rfl | rfl | rfl <;> rcases hopen with hopen | hopen <;> cases hopen
      pending := fun _ => by
        rcases hst with rfl | rfl | rfl <;> simp }

/-- A close that moves the socket is a step of the frame socket. -/
theorem move_sim (h : Rep c s) {st : ConnState} (hmove : FrameSocket.Moves s.state st)
    (hcalled : s.closes = 0 → st.closable = true)
    (hst : st = .destroyDelay ∨ st = .reset ∨ st = .destroy) :
    Sim AnyState p c s { c with state := st } :=
  Sim.of_step (.move s st hmove hcalled) (rep_move h hmove hcalled hst) rfl
    (Quiet.of_eq rfl rfl rfl rfl rfl rfl) trivial

/-- A connection fails: the socket is destroyed only if it was closed before. -/
theorem closable_of_failed (h : Rep c s) {st : ConnState}
    (hst : st = .reset ∨ st = .destroy ∧ c.state.closable = false) (hzero : s.closes = 0) :
    st.closable = true := by
  rcases hst with rfl | ⟨rfl, hno⟩
  · rfl
  · have hopen := h.ok.closable hzero
    rw [← h.state, hno] at hopen
    cases hopen

/-- What `utp_close` does with a socket that may be closed, once the call is counted. -/
theorem closeOpen_sim (h : Rep c s) (hcalled : 0 < s.closes) (hclosable : c.state.closable = true) :
    Sim StaysOpen p c s
      (match c.state with
      | .connected | .connectedFull =>
        ({ c with state := .finSent } : Conn).writeOutgoingPacket env .fin []
      | .synSent =>
        { c.tick with
          rtt := { c.rtt with
            rtoTimeout := env.millis c.ticks + UInt64.ofNat (min (uint (c.rtt.rto * 2)) 60) }
          state := .destroyDelay }
      | .gotFin => { c with state := .destroyDelay }
      | _ => { c with state := .destroy }) := by
  have hclosed (st : ConnState) {d : Conn} (hrep : Rep d s) (hview : d.recvView = c.recvView)
      (hmove : FrameSocket.Moves s.state st)
      (hst : st = .destroyDelay ∨ st = .reset ∨ st = .destroy) (hnot : ¬s.Receiving) :
      Sim StaysOpen p c s { d with state := st } := by
    refine Sim.of_view hview ?_
    exact (move_sim hrep hmove (fun hno => absurd hno hcalled.ne') hst).mono
      fun s' _ hr => absurd hr hnot
  split
  · rename_i hst
    exact closeConnected_sim env h (Or.inl (by rw [← h.state]; exact hst)) hcalled
  · rename_i hst
    exact closeConnected_sim env h (Or.inr (by rw [← h.state]; exact hst)) hcalled
  · rename_i hst
    rw [h.state] at hst
    refine hclosed .destroyDelay (d := { c.tick with
      rtt := { c.rtt with
        rtoTimeout := env.millis c.ticks + UInt64.ofNat (min (uint (c.rtt.rto * 2)) 60) } })
      { h with } rfl (.delay _ (Or.inl hst)) (Or.inl rfl) ?_
    simp [FrameSocket.Receiving, hst]
  · rename_i hst
    rw [h.state] at hst
    refine hclosed .destroyDelay h rfl (.delay _ (Or.inr hst)) (Or.inl rfl) ?_
    simp [FrameSocket.Receiving, hst]
  · rename_i h1 h2 h3 h4
    refine hclosed .destroy h rfl (.destroy _) (Or.inr (Or.inr rfl)) ?_
    -- A socket that has sent its FIN is not closed again.
    rintro (hst | hst | hst)
    · exact h1 (by rw [h.state]; exact hst)
    · exact h2 (by rw [h.state]; exact hst)
    · rw [h.state, hst] at hclosable
      cases hclosable

/-- `utp_close`. Its assertion holds at the first call. -/
theorem utpClose_sim (h : Rep c s) : Sim StaysOpen p c s (c.utpClose env) := by
  have hcount : Sim StaysOpen p c s { c with closes := c.closes + 1 } :=
    (Sim.of_step (K := SameState) (.called s) (rep_called h) rfl
      (Quiet.of_eq rfl rfl rfl rfl rfl rfl) rfl).stays
  dsimp only [utpClose]
  split
  · rename_i hno
    refine Sim.of_step (.called s) ?_ rfl (Quiet.of_eq rfl rfl rfl rfl rfl rfl) id
    refine { rep_called h with misused := fun hle => ?_ }
    have hopen := h.ok.closable (Nat.le_zero.mp (Nat.le_of_succ_le_succ hle))
    rw [← h.state, show c.state.closable = false from hno] at hopen
    cases hopen
  · rename_i hopen
    refine hcount.bind staysOpen_trans fun s' h' _ _ => closeOpen_sim env h' ?_ ?_
    · rw [← h'.closes]
      exact Nat.succ_pos _
    · simpa using hopen

/-! ### Callbacks -/

/-- The window that was reported is the one that there is, so nothing is to be reported. -/
theorem utpReadDrained_eq (h : Rep c s) : c.utpReadDrained env = c := by
  unfold utpReadDrained
  rw [if_neg h.state_ne_uninitialized, if_neg]
  rw [h.rcvWin]
  exact Nat.lt_irrefl _

/-- One call of the upper layer. -/
theorem call_sim (h : Rep c s) (a : Call) : Sim StaysOpen p c s (c.call env a) := by
  cases a with
  | write bytes => exact utpWrite_sim env h bytes
  | close => exact utpClose_sim env h
  | readDrained =>
    show Sim StaysOpen p c s (c.utpReadDrained env)
    rw [utpReadDrained_eq env h]
    exact (Sim.of_rep h rfl).stays

/-- The calls that the upper layer makes one after the other. -/
theorem calls_sim (l : List Call) {c : Conn} {s : FrameSocket} (h : Rep c s) :
    Sim StaysOpen p c s (l.foldl (fun c a => c.call env a) c) := by
  induction l generalizing c s with
  | nil => exact (Sim.of_rep h rfl).stays
  | cons a l ih =>
    exact (call_sim env h a).bind staysOpen_trans fun s' h' _ _ => ih h'

/-- A callback that carries no data. -/
theorem callback_sim (h : Rep c s) {e : Effect}
    (he : e.readBytes = [] ∧ e.tookBytes = [] ∧ e.datagrams = []) :
    Sim StaysOpen p c s (c.callback env e) := by
  have hrep : Rep { c.emit e with callbacks := c.callbacks + 1 } s :=
    { h with
      reads := by
        show (c.emit e).reads = _
        rw [reads_emit, he.1, List.append_nil, h.reads]
      taken := by
        show (c.emit e).taken = _
        rw [taken_emit, he.2.1, List.append_nil, h.taken]
      out := by
        show (c.emit e).datagrams = _
        rw [datagrams_emit, he.2.2, List.append_nil, h.out] }
  exact Sim.of_view (d := { c.emit e with callbacks := c.callbacks + 1 }) rfl
    (calls_sim env (env.reply c.callbacks) hrep)

end Conn

end EChannel.LibUtp
