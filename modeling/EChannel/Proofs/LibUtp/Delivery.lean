import EChannel.Proofs.LibUtp.Agreement
import EChannel.Proofs.LibUtp.Runs
import Mathlib.Data.List.Infix

/-!
# `EChannel.Proofs.LibUtp.Delivery`: what two sockets deliver to each other

The invariant of a `Link`: each end keeps `Inv`, the two ends are `Linked` in both directions, and
each end stands by every datagram of the network (`NetOk`). The connecting end knows its peer only
after the answer to its SYN. If it gives up before, it may acknowledge frames that it never saw, so
nothing is said about that direction then.

From it: what an end reads is what the other one has taken, in order and without a gap
(`readsB_prefix`, `readsA_infix`); what has left the send queue was read (`readsB_eq_of_acked`);
and the end of the data is reported only behind all of it (`readsB_eq_of_gotFin`).
-/

set_option autoImplicit false

namespace EChannel.LibUtp

open SlidingWindow

variable {env : Env} {c c' : Conn} {s s' : FrameSocket} {skip : Nat}

/-! ### One end -/

/-- The packet says what its datagram carries. -/
theorem IsSegment.of_carries {d : List UInt8} {beyond : UInt8} {seg : Segment}
    {flags : PacketType} {seq ack : UInt16} {sel : Option SelAck} {data : List UInt8}
    (h : IsSegment d beyond seg) (hd : Carries d flags seq ack sel data) :
    seg.flags = flags ∧ seg.header.seqNr = seq ∧ seg.header.ackNr = ack ∧ seg.selack = sel ∧
      seg.data = data := by
  obtain ⟨rest, bits, hdec, htype, hscan⟩ := h.reads
  obtain ⟨pf, rest', hdec', -, htype', hseq, hack, hscan'⟩ := hd.reads
  rw [hdec] at hdec'
  obtain ⟨rfl, rfl⟩ := Prod.mk.inj (Option.some.inj hdec')
  rw [hscan' bits] at hscan
  obtain ⟨hsel, hdata⟩ := Prod.mk.inj (Option.some.inj hscan)
  rw [htype] at htype'
  exact ⟨Option.some.inj htype', hseq, hack, hsel.symm, hdata.symm⟩

/-- An end of a link handles an event: a packet comes from the network, if there is one. -/
theorem Conn.handleEnd_inv (env : Env) (h : Inv c s) (incoming : Nat → Option (List UInt8))
    (e : EndEvent) :
    ∃ p s', (∀ seg, p = some seg → ∃ i packet beyond, incoming i = some packet ∧
      IsSegment packet beyond seg) ∧ FrameSocket.Steps p s s' ∧
      Inv (c.handleEnd env incoming e) s' := by
  have hnone {c' : Conn} (h' : ∃ s', FrameSocket.Steps none s s' ∧ Inv c' s') :
      ∃ p s', (∀ seg, p = some seg → ∃ i packet beyond, incoming i = some packet ∧
        IsSegment packet beyond seg) ∧ FrameSocket.Steps p s s' ∧ Inv c' s' := by
    obtain ⟨s', hs, h'⟩ := h'
    exact ⟨none, s', fun seg hno => absurd hno (by simp), hs, h'⟩
  cases e with
  | call a => exact hnone (call_inv env h a)
  | deliver i beyond =>
    cases hin : incoming i with
    | none =>
      have heq : c.handleEnd env incoming (.deliver i beyond) = c := by simp only [handleEnd, hin]
      rw [heq]
      exact hnone ⟨s, .refl, h⟩
    | some packet =>
      have heq : c.handleEnd env incoming (.deliver i beyond) =
          c.utpProcessUdp env packet beyond := by
        simp only [handleEnd, hin]
      obtain ⟨p, s', hp, hs, h'⟩ := utpProcessUdp_handled env h packet beyond
      rw [heq]
      exact ⟨p, s', fun seg hseg => ⟨i, packet, beyond, hin, hp seg hseg⟩, hs, h'⟩
  | reset => exact hnone (inv_of_sim h (processReset_sim env h.rep))
  | checkTimeouts => exact hnone (checkTimeouts_inv env h)
  | issueDeferredAcks => exact hnone (issueDeferredAck_inv env h)

/-! ### The network -/

/-- `s` stands by all of its datagrams. `own` and `peer` are the counts of packets at the two ends
when a datagram was sent; a datagram that acknowledges frames was not far behind them. -/
def NetOk (own peer : Sent → Nat) (skip : Nat) (s : FrameSocket) (net : List Sent) : Prop :=
  ∀ m ∈ net, ∃ flags n j, s.Vouches m.datagram flags n j ∧ own m ≤ n ∧
    (s.synced = true → flags ≠ .syn → peer m ≤ skip + j + 2048)

/-- The socket goes on, and stands by what it sends. -/
theorem NetOk.steps {own peer : Sent → Nat} {skip' : Nat} {net : List Sent} {p : Option Segment}
    (h : NetOk own peer skip s net) (hok : s.Ok) (hrep : c.datagrams = s.out)
    (hrep' : c'.datagrams = s'.out) (hs : FrameSocket.Steps p s s') (hpast : s'.past = false)
    (hskip : s.synced = true → skip' = skip) (atA atB : Nat)
    (hown : ∀ d, own { datagram := d, atA, atB } ≤ s.snd.frames.length)
    (hpeer : s'.synced = true → ∀ d, peer { datagram := d, atA, atB } ≤ skip' + s.rcv.next + 2048) :
    NetOk own peer skip' s' (net ++ c.sentSince c' atA atB) := by
  intro m hm
  rcases List.mem_append.mp hm with hm | hm
  · obtain ⟨flags, n, j, hv, hn, hj⟩ := h m hm
    refine ⟨flags, n, j, hv.steps hs hpast, hn, fun hsync hne => ?_⟩
    cases hold : s.synced with
    | true =>
      rw [hskip hold]
      exact hj hold hne
    | false => exact absurd (hv.syn (hs.synSent_of_synced hold hsync)) hne
  · obtain ⟨l, hout, hl⟩ := hs.vouched hok hpast
    obtain ⟨d, hd, rfl⟩ := List.mem_map.mp hm
    rw [hrep, hrep', hout, List.drop_left] at hd
    obtain ⟨flags, hv⟩ := hl d hd
    exact ⟨flags, s.snd.frames.length, s.rcv.next, hv, hown d, fun hsync _ => hpeer hsync d⟩

/-- A packet that came from the network of `s`, as one that `s` stands by. -/
theorem NetOk.vouches {own peer : Sent → Nat} {net : List Sent} (h : NetOk own peer skip s net)
    {m : Sent} (hm : m ∈ net) {beyond : UInt8} {seg : Segment}
    (hseg : IsSegment m.datagram beyond seg) :
    ∃ n j, s.Shows seg.flags n seg.header.seqNr seg.data ∧ own m ≤ n ∧
      (s.state = .synSent → seg.flags = .syn) ∧
      (s.synced = true → seg.flags ≠ .syn →
        s.Tells j seg.header.ackNr seg.selack ∧ peer m ≤ skip + j + 2048) := by
  obtain ⟨flags, n, j, hv, hn, hj⟩ := h m hm
  obtain ⟨seq, ack, sel, data, hd, hshow, htell⟩ := hv.carries
  obtain ⟨rfl, rfl, rfl, rfl, rfl⟩ := hseg.of_carries hd
  exact ⟨n, j, hshow, hn, hv.syn, fun hsync hne => ⟨htell hsync hne, hj hsync hne⟩⟩

/-! ### The link before the SYN has come -/

/-- Only the connecting end is there. -/
structure Alone (l : Link) (sA : FrameSocket) : Prop where
  inv : Inv l.a sA
  noB : l.b = none
  fromB : l.fromB = []
  unsynced : sA.synced = false
  past : sA.past = false
  acked : sA.snd.acked = ∅
  first : sA.snd.Offers 0 ⟨.syn, []⟩
  net : NetOk Sent.atA Sent.atB 0 sA l.fromA

/-- A connecting end whose SYN nobody has answered. -/
theorem Link.connect_alone (connSeed seqNr : UInt16) :
    ∃ sA, Alone (Link.connect env connSeed seqNr) sA := by
  obtain ⟨d, hd, h⟩ := Conn.utpConnect_inv env connSeed seqNr
  refine ⟨_, h, rfl, rfl, rfl, rfl, rfl, ⟨rfl, rfl⟩, fun m hm => ?_⟩
  obtain ⟨d', hd', rfl⟩ := List.mem_map.mp hm
  rw [h.rep.out] at hd'
  obtain rfl : d' = d := List.mem_singleton.mp hd'
  refine ⟨.syn, 0, 0, ⟨⟨_, 0, none, [], hd, Or.inr ⟨0, ⟨.syn, []⟩, ⟨rfl, rfl⟩, rfl, ?_, by omega⟩,
    fun hno => by cases hno⟩, fun _ => rfl⟩, Nat.le_refl _, fun hno => by cases hno⟩
  exact (UInt16.add_zero _).symm

/-- What is delivered is in the network, and not too old. -/
theorem Link.mem_of_incoming {l : Link} {net : List Sent} {i : Nat} {packet : List UInt8}
    (h : l.incoming net i = some packet) :
    ∃ m ∈ net, packet = m.datagram ∧ l.a.queued < m.atA + 2 ^ 15 ∧
      l.queuedB < m.atB + 2 ^ 15 := by
  unfold incoming at h
  cases hm : net[i]? with
  | none =>
    rw [hm] at h
    cases h
  | some m =>
    rw [hm] at h
    dsimp only at h
    split at h
    · rename_i hfresh
      simp only [fresh, decide_eq_true_eq] at hfresh
      exact ⟨m, List.mem_of_getElem? hm, (Option.some.inj h).symm, hfresh⟩
    · cases h

/-- The connecting end alone stays alone. -/
theorem Alone.stepA {l : Link} {sA : FrameSocket} (h : Alone l sA) (envA envB : Env)
    (e : EndEvent) : ∃ sA', Alone (l.step envA envB (.atA e)) sA' := by
  obtain ⟨p, sA', hp, hs, hinv⟩ := Conn.handleEnd_inv envA h.inv (l.incoming l.fromB) e
  -- There is nobody to send a packet.
  obtain rfl : p = none := by
    cases hcase : p with
    | none => rfl
    | some seg =>
      obtain ⟨i, packet, -, hin, -⟩ := hp seg hcase
      obtain ⟨m, hm, -⟩ := Link.mem_of_incoming hin
      rw [h.fromB] at hm
      cases hm
  obtain ⟨hsync, hpast⟩ := hs.of_none_keeps
  have hext := h.inv.front.extends_steps hs
  refine ⟨sA', hinv, h.noB, h.fromB, hsync.trans h.unsynced, hpast.trans h.past,
    hext.acked.trans h.acked, hs.offers h.first, ?_⟩
  refine h.net.steps h.inv.rep.ok h.inv.rep.out hinv.rep.out hs (hpast.trans h.past)
    (fun _ => rfl) _ _
    (fun d => Nat.le_of_eq h.inv.rep.queued) fun hno => ?_
  rw [hsync, h.unsynced] at hno
  cases hno

/-! ### The link -/

/-- Both ends are there. `skip` is where the connecting end starts to take frames, once it knows
the other one. -/
structure Joined (l : Link) (b : Conn) (skip : Nat) (sA sB : FrameSocket) : Prop where
  hasB : l.b = some b
  invA : Inv l.a sA
  invB : Inv b sB
  ab : FrameSocket.Linked 1 sA sB
  ba : sA.synced = true → FrameSocket.Linked skip sB sA
  unheard : sA.synced = false →
    sA.past = false ∧ (sA.state = .synSent → sB.snd.acked = ∅)
  first : sA.snd.Offers 0 ⟨.syn, []⟩
  netA : NetOk Sent.atA Sent.atB skip sA l.fromA
  netB : NetOk Sent.atB Sent.atA 1 sB l.fromB

/-- What the accepting end has queued are the frames of its stream. -/
theorem Joined.queuedB {l : Link} {b : Conn} {sA sB : FrameSocket} (h : Joined l b skip sA sB) :
    l.queuedB = sB.snd.frames.length := by
  unfold Link.queuedB
  rw [h.hasB]
  exact h.invB.rep.queued

/-- The SYN comes to the other end. -/
theorem Alone.accept {l : Link} {sA : FrameSocket} (h : Alone l sA) {m : Sent} (hm : m ∈ l.fromA)
    {beyond : UInt8} {seqNr : UInt16} {b : Conn}
    (hacc : Conn.accept env m.datagram beyond seqNr = some b) :
    ∃ sB, Joined
      { l with
        b := some b
        fromB := b.datagrams.map fun d => { datagram := d, atA := l.a.queued, atB := 0 } }
      b 0 sA sB := by
  obtain ⟨pf, rest, sB, hdec, htype, hs, hinv⟩ := Conn.accept_inv env hacc
  have hok := h.inv.rep.ok
  have hfresh := hok.unsynced h.unsynced
  have hlen : sA.snd.frames.length = 1 := by
    have := (List.getElem?_eq_some_iff.mp h.first.1).1
    have := hfresh.length_le
    omega
  -- The datagram is the SYN, so its number is the first one.
  have hseq : pf.seqNr = sA.isn := by
    obtain ⟨flags, n, j, hv, -, -⟩ := h.net m hm
    obtain ⟨seq, ack, sel, data, hd, hshow, -⟩ := hv.carries
    obtain ⟨pf', rest', hdec', -, htype', hseq', -, -⟩ := hd.reads
    rw [hdec] at hdec'
    obtain ⟨rfl, rfl⟩ := Prod.mk.inj (Option.some.inj hdec')
    obtain rfl : flags = .syn := by
      rw [htype] at htype'
      exact (Option.some.inj htype').symm
    rcases hshow with ⟨hno, -⟩ | ⟨k, x, hx, -, hk, -⟩
    · cases hno
    · have hlt := (List.getElem?_eq_some_iff.mp hx.1).1
      obtain rfl : k = 0 := by omega
      rw [hseq', hk]
      exact UInt16.add_zero _
  have hbase : sA.snd.base = 0 := by
    by_contra hne
    have := hok.below 0 (Nat.pos_of_ne_zero hne)
    rw [h.acked] at this
    exact this
  have hlink0 :
      FrameSocket.Linked 1 sA (Conn.accepting (env.millis 0) pf.connid seqNr pf.seqNr) := by
    refine ⟨?_, by omega, rfl, ?_, rfl, fun f hf => (by cases hf),
      fun hno => (by cases hno)⟩
    · exact Agree.init (by rw [hbase]; exact Nat.zero_le _) hok.below
        (by rw [h.acked]; exact fun k hk => absurd hk (Set.notMem_empty k))
    · show pf.seqNr + 1 = sA.isn + UInt16.ofNat 1
      rw [hseq]
      rfl
  have hlink := hlink0.receiver_steps hok (Conn.accepting_ok _ _ _ _) hs fun seg hno => by cases hno
  have hacked : sB.snd.acked = ∅ := by
    have hfront : (Conn.accepting (env.millis 0) pf.connid seqNr pf.seqNr).Front :=
      Set.notMem_empty _
    rw [(hfront.extends_steps hs).acked]
    rfl
  refine ⟨sB, rfl, h.inv, hinv, hlink, fun hno => ?_, fun _ => ⟨h.past, fun _ => hacked⟩, h.first,
    h.net, fun m' hm' => ?_⟩
  · rw [h.unsynced] at hno
    cases hno
  · obtain ⟨l', hout, hl'⟩ := hs.vouched (Conn.accepting_ok _ _ _ _) hlink.past
    obtain ⟨d, hd, rfl⟩ := List.mem_map.mp hm'
    rw [hinv.rep.out, hout] at hd
    obtain ⟨flags, hv⟩ := hl' d hd
    refine ⟨flags, _, _, hv, Nat.zero_le _, fun _ _ => ?_⟩
    show l.a.queued ≤ _
    rw [h.inv.rep.queued, hlen]
    omega

/-- What the connecting end gets from the network is true and not too old. -/
theorem Joined.toA {l : Link} {b : Conn} {sA sB : FrameSocket} (h : Joined l b skip sA sB)
    {i : Nat} {packet : List UInt8} {beyond : UInt8} {seg : Segment}
    (hin : l.incoming l.fromB i = some packet) (hseg : IsSegment packet beyond seg) :
    FrameSocket.Answers sB seg ∧ FrameSocket.Brings sB seg := by
  obtain ⟨m, hm, rfl, hA, hB⟩ := Link.mem_of_incoming hin
  obtain ⟨n, j, hshow, hn, -, htell⟩ := h.netB.vouches hm hseg
  obtain ⟨htells, hj⟩ := htell h.ab.synced hseg.ne_syn
  have hnear := (h.ab.near h.invA.rep.ok).1
  rw [h.invA.rep.queued] at hA
  rw [h.queuedB] at hB
  exact ⟨⟨j, htells, by omega⟩, ⟨n, hshow, by omega⟩⟩

/-- What the accepting end gets from the network. -/
theorem Joined.toB {l : Link} {b : Conn} {sA sB : FrameSocket} (h : Joined l b skip sA sB)
    {i : Nat} {packet : List UInt8} {beyond : UInt8} {seg : Segment}
    (hin : l.incoming l.fromA i = some packet) (hseg : IsSegment packet beyond seg) :
    FrameSocket.Brings sA seg ∧ sA.state ≠ .synSent ∧
      (sA.synced = true → FrameSocket.Answers sA seg) := by
  obtain ⟨m, hm, rfl, hA, hB⟩ := Link.mem_of_incoming hin
  obtain ⟨n, j, hshow, hn, hsyn, htell⟩ := h.netA.vouches hm hseg
  rw [h.invA.rep.queued] at hA
  rw [h.queuedB] at hB
  refine ⟨⟨n, hshow, by omega⟩, fun hst => hseg.ne_syn (hsyn hst), fun hsync => ?_⟩
  obtain ⟨htells, hj⟩ := htell hsync hseg.ne_syn
  have hnear := ((h.ba hsync).near h.invB.rep.ok).1
  exact ⟨j, htells, by omega⟩

/-- A sender that has seen no answer has not moved its window. -/
theorem FrameSocket.Ok.length_le_of_acked {S : FrameSocket} (hok : S.Ok)
    (hacked : S.snd.acked = ∅) : S.snd.frames.length ≤ 1024 := by
  have hbase : S.snd.base = 0 := by
    by_contra hne
    have := hok.below 0 (Nat.pos_of_ne_zero hne)
    rw [hacked] at this
    exact this
  have hwin : S.snd.frames.length ≤ S.snd.base + 1024 := hok.window.2
  omega

/-- Something happens at the connecting end. -/
theorem Joined.stepA {l : Link} {b : Conn} {sA sB : FrameSocket} (h : Joined l b skip sA sB)
    (envA envB : Env) (e : EndEvent) :
    ∃ skip' sA', Joined (l.step envA envB (.atA e)) b skip' sA' sB := by
  obtain ⟨p, sA', hp, hs, hinv⟩ := Conn.handleEnd_inv envA h.invA (l.incoming l.fromB) e
  have hokA := h.invA.rep.ok
  have hokB := h.invB.rep.ok
  have htrue : ∀ seg, p = some seg → FrameSocket.Answers sB seg ∧ FrameSocket.Brings sB seg := by
    intro seg hseg
    obtain ⟨i, packet, beyond, hin, hsg⟩ := hp seg hseg
    exact h.toA hin hsg
  have hab := h.ab.sender_steps hokA hs fun seg hseg => (htrue seg hseg).1
  have hown (d : List UInt8) :
      Sent.atA { datagram := d, atA := l.a.queued, atB := l.queuedB } ≤ sA.snd.frames.length :=
    Nat.le_of_eq h.invA.rep.queued
  have hnet {skip' : Nat} (hpast : sA'.past = false) (hskip : sA.synced = true → skip' = skip)
      (hpeer : sA'.synced = true → sB.snd.frames.length ≤ skip' + sA.rcv.next + 2048) :
      NetOk Sent.atA Sent.atB skip' sA' (l.step envA envB (.atA e)).fromA :=
    h.netA.steps hokA h.invA.rep.out hinv.rep.out hs hpast hskip _ _ hown fun hsync d => by
      show l.queuedB ≤ _
      rw [h.queuedB]
      exact hpeer hsync
  cases hsync : sA.synced with
  | true =>
    have hba := (h.ba hsync).receiver_steps hokB hokA hs fun seg hseg => (htrue seg hseg).2
    obtain ⟨h1, h2, h3⟩ := (h.ba hsync).near hokB
    refine ⟨skip, sA', h.hasB, hinv, h.invB, hab, fun _ => hba, fun hno => ?_, hs.offers h.first,
      hnet hba.past (fun _ => rfl) fun _ => by omega, h.netB⟩
    rw [hba.synced] at hno
    cases hno
  | false =>
    obtain ⟨hpast, hacked⟩ := h.unheard hsync
    have hlen (hsync' : sA'.synced = true) : sB.snd.frames.length ≤ 1024 :=
      hokB.length_le_of_acked (hacked (hs.synSent_of_synced hsync hsync'))
    have hskip (skip' : Nat) : sA.synced = true → skip' = skip := fun hno => by
      rw [hsync] at hno
      cases hno
    rcases FrameSocket.join_steps hokB hokA hs hsync hpast hacked fun seg hseg =>
      (htrue seg hseg).2 with ⟨hno, hpast'⟩ | ⟨skip', hba⟩
    · refine ⟨skip, sA', h.hasB, hinv, h.invB, hab, fun hsync' => ?_,
        fun _ => ⟨hpast', fun hst => hacked (hs.synSent hst)⟩, hs.offers h.first,
        hnet hpast' (hskip _) fun hsync' => ?_, h.netB⟩
      · rw [hno] at hsync'
        cases hsync'
      · rw [hno] at hsync'
        cases hsync'
    · refine ⟨skip', sA', h.hasB, hinv, h.invB, hab, fun _ => hba, fun hno => ?_, hs.offers h.first,
        hnet hba.past (hskip _) fun hsync' => ?_, h.netB⟩
      · rw [hba.synced] at hno
        cases hno
      · have := hlen hsync'
        omega

/-- Something happens at the accepting end. -/
theorem Joined.stepB {l : Link} {b : Conn} {sA sB : FrameSocket} (h : Joined l b skip sA sB)
    (envA envB : Env) (e : EndEvent) :
    ∃ b' sB', Joined (l.step envA envB (.atB e)) b' skip sA sB' := by
  obtain ⟨p, sB', hp, hs, hinv⟩ := Conn.handleEnd_inv envB h.invB (l.incoming l.fromA) e
  have hokA := h.invA.rep.ok
  have hokB := h.invB.rep.ok
  have hab := h.ab.receiver_steps hokA hokB hs fun seg hseg => by
    obtain ⟨i, packet, beyond, hin, hsg⟩ := hp seg hseg
    exact (h.toB hin hsg).1
  have hba (hsync : sA.synced = true) : FrameSocket.Linked skip sB' sA :=
    (h.ba hsync).sender_steps hokB hs fun seg hseg => by
      obtain ⟨i, packet, beyond, hin, hsg⟩ := hp seg hseg
      exact (h.toB hin hsg).2.2 hsync
  have hunheard (hno : sA.synced = false) :
      sA.past = false ∧ (sA.state = .synSent → sB'.snd.acked = ∅) := by
    obtain ⟨hpast, hacked⟩ := h.unheard hno
    refine ⟨hpast, fun hst => ?_⟩
    -- The other end has sent nothing but its SYN, which is not taken twice.
    obtain rfl : p = none := by
      cases hcase : p with
      | none => rfl
      | some seg =>
        obtain ⟨i, packet, beyond, hin, hsg⟩ := hp seg hcase
        exact absurd hst (h.toB hin hsg).2.1
    exact (h.invB.front.extends_steps hs).acked.trans (hacked hst)
  have hstep : l.step envA envB (.atB e) =
      { l with
        b := some (b.handleEnd envB (l.incoming l.fromA) e)
        fromB := l.fromB ++ b.sentSince (b.handleEnd envB (l.incoming l.fromA) e) l.a.queued
          b.queued } := by
    unfold Link.step
    simp only [h.hasB]
  rw [hstep]
  refine ⟨_, sB', rfl, h.invA, hinv, hab, hba, hunheard, h.first, h.netA, ?_⟩
  refine h.netB.steps hokB h.invB.rep.out hinv.rep.out hs hab.past (fun _ => rfl) _ _
    (fun d => Nat.le_of_eq h.invB.rep.queued) fun _ d => ?_
  obtain ⟨h1, h2, h3⟩ := h.ab.near hokA
  show l.a.queued ≤ _
  rw [h.invA.rep.queued]
  omega

/-! ### Whole runs -/

/-- What holds of a link at any time. -/
def LinkInv (l : Link) : Prop :=
  (∃ sA, Alone l sA) ∨ ∃ b skip sA sB, Joined l b skip sA sB

/-- The step lemma for the link. -/
theorem LinkInv.step {l : Link} (h : LinkInv l) (envA envB : Env) (e : LinkEvent) :
    LinkInv (l.step envA envB e) := by
  rcases h with ⟨sA, h⟩ | ⟨b, skip, sA, sB, h⟩
  · cases e with
    | accept i beyond seqNr =>
      cases hm : l.fromA[i]? with
      | none =>
        have hstep : l.step envA envB (.accept i beyond seqNr) = l := by
          simp only [Link.step, h.noB, hm]
        rw [hstep]
        exact Or.inl ⟨sA, h⟩
      | some m =>
        have hstep : l.step envA envB (.accept i beyond seqNr) =
            l.accept envB m.datagram beyond seqNr := by
          simp only [Link.step, h.noB, hm]
        rw [hstep]
        unfold Link.accept
        cases hacc : Conn.accept envB m.datagram beyond seqNr with
        | none => exact Or.inl ⟨sA, h⟩
        | some b =>
          obtain ⟨sB, hj⟩ := h.accept (List.mem_of_getElem? hm) hacc
          exact Or.inr ⟨b, 0, sA, sB, hj⟩
    | atA e =>
      obtain ⟨sA', h'⟩ := h.stepA envA envB e
      exact Or.inl ⟨sA', h'⟩
    | atB e =>
      have hstep : l.step envA envB (.atB e) = l := by simp only [Link.step, h.noB]
      rw [hstep]
      exact Or.inl ⟨sA, h⟩
  · cases e with
    | accept i beyond seqNr =>
      have hstep : l.step envA envB (.accept i beyond seqNr) = l := by
        simp only [Link.step, h.hasB]
      rw [hstep]
      exact Or.inr ⟨b, skip, sA, sB, h⟩
    | atA e =>
      obtain ⟨skip', sA', h'⟩ := h.stepA envA envB e
      exact Or.inr ⟨b, skip', sA', sB, h'⟩
    | atB e =>
      obtain ⟨b', sB', h'⟩ := h.stepB envA envB e
      exact Or.inr ⟨b', skip, sA, sB', h'⟩

/-- The run lemma for the link. -/
theorem Link.connect_run_inv (envA envB : Env) (connSeed seqNr : UInt16)
    (events : List LinkEvent) :
    LinkInv ((Link.connect envA connSeed seqNr).run envA envB events) := by
  have hrun (events : List LinkEvent) {l : Link} (h : LinkInv l) :
      LinkInv (l.run envA envB events) := by
    induction events generalizing l with
    | nil => exact h
    | cons e events ih => exact ih (h.step envA envB e)
  exact hrun events (Or.inl (Link.connect_alone connSeed seqNr))

/-! ### What was read -/

namespace FrameSocket

variable {S R : FrameSocket}

/-- Everything in front of the window of the sender was taken. -/
theorem Linked.base_le (h : Linked skip S R) (hok : S.Ok) (hset : Settled R) :
    S.snd.base ≤ skip + R.rcv.next := by
  by_contra hlt
  cases heof : R.eof with
  | true =>
    obtain ⟨k, x, hx, hkind, hk⟩ := h.eof heof
    have hlast := (hok.fin k x hx.1 hkind).1
    have hwin := hok.window.1
    omega
  | false =>
    -- The next frame was acknowledged, so it is held; but then it would have been taken.
    rcases h.agree.acked _ (h.agree.below (skip + R.rcv.next) (by omega)) with hk | hk | hk
    · omega
    · omega
    · rw [Nat.add_sub_cancel_left, hset.held heof] at hk
      cases hk

/-- Behind the FIN of the sender there is nothing. -/
theorem Linked.all_of_eof (h : Linked skip S R) (hok : S.Ok) (heof : R.eof = true) :
    skip + R.rcv.next = S.snd.frames.length ∧ S.state ≠ .connected ∧
      S.state ≠ .connectedFull := by
  obtain ⟨k, x, hx, hkind, hk⟩ := h.eof heof
  obtain ⟨hlast, hstate⟩ := hok.fin k x hx.1 hkind
  exact ⟨by omega, hstate⟩

/-- What a receiver shows is what the frames up to its next number carry. -/
theorem Linked.shown_eq (h : Linked skip S R) (hset : Settled R) :
    R.shown = ((S.snd.frames.drop skip).take R.rcv.next).flatMap Frame.body := by
  unfold shown
  rw [hset.reading, h.agree.got, Option.toList_none, List.append_nil]

/-- A receiver that has all frames shows all they carry. -/
theorem Linked.shown_of_all (h : Linked skip S R) (hset : Settled R)
    (hall : S.snd.frames.length ≤ skip + R.rcv.next) :
    R.shown = (S.snd.frames.drop skip).flatMap Frame.body := by
  rw [h.shown_eq hset, List.take_of_length_le]
  rw [List.length_drop]
  omega

/-- The SYN has no bytes. -/
theorem flatMap_body_of_syn (h : S.snd.Offers 0 ⟨.syn, []⟩) :
    S.snd.frames.flatMap Frame.body = (S.snd.frames.drop 1).flatMap Frame.body := by
  have hget := h.1
  cases hframes : S.snd.frames with
  | nil =>
    rw [hframes] at hget
    cases hget
  | cons x l =>
    rw [hframes] at hget
    obtain rfl : x = ⟨.syn, []⟩ := by simpa using hget
    rfl

end FrameSocket

/-- A socket in one of these states has handed everything that it took to the upper layer. -/
def Conn.Reading (c : Conn) : Prop :=
  c.state = .connected ∨ c.state = .connectedFull ∨ c.state = .gotFin

/-- What a reading socket has read is what its frame socket shows. -/
theorem Inv.reads_eq (h : Inv c s) (hc : c.Reading) : c.reads = s.shown := by
  rw [h.rep.reads]
  refine h.rep.ok.reads_eq ?_
  rw [← h.rep.state]
  exact hc

/-- A reading socket knows the numbers of its peer. -/
theorem Inv.synced (h : Inv c s) (hc : c.Reading) : s.synced = true := by
  cases hsync : s.synced with
  | true => rfl
  | false =>
    have := (h.rep.ok.unsynced hsync).state
    rw [← h.rep.state] at this
    rcases hc with hst | hst | hst <;> simp [FrameSocket.Unsynced, hst] at this

/-- The accepting end reads what the connecting end has taken: in order, without a gap and
nothing else. The connecting end reads such a piece of what the other end has taken: it starts
behind the packets that were queued there when the answer to its SYN was sent. -/
theorem Link.run_reads (envA envB : Env) (connSeed seqNr : UInt16) (events : List LinkEvent) :
    let l := (Link.connect envA connSeed seqNr).run envA envB events
    l.readsB <+: l.a.taken ∧ l.a.reads <:+: l.takenB := by
  intro l
  rcases Link.connect_run_inv envA envB connSeed seqNr events with ⟨sA, h⟩ | ⟨b, skip, sA, sB, h⟩
  · have hfresh := h.inv.rep.ok.unsynced h.unsynced
    have hB : l.readsB = [] := by
      show (l.b.map Conn.reads).getD [] = []
      rw [show l.b = none from h.noB]
      rfl
    have hA : l.a.reads = [] := h.inv.rep.reads.trans hfresh.reads
    rw [hB, hA]
    exact ⟨List.nil_prefix, List.nil_infix⟩
  · have hb : l.b = some b := h.hasB
    have hA : l.a.taken = sA.snd.frames.flatMap Frame.body := h.invA.rep.taken
    have hB : l.takenB = sB.snd.frames.flatMap Frame.body := by
      show (l.b.map Conn.taken).getD [] = _
      rw [hb]
      exact h.invB.rep.taken
    have hread : l.readsB = sB.reads := by
      show (l.b.map Conn.reads).getD [] = _
      rw [hb]
      exact h.invB.rep.reads
    constructor
    · rw [hread, hA, FrameSocket.flatMap_body_of_syn h.first]
      refine h.invB.rep.ok.reads_le.trans ?_
      rw [h.ab.shown_eq h.invB.settled]
      exact (List.take_prefix _ _).flatMap _
    · rw [hB, show l.a.reads = sA.reads from h.invA.rep.reads]
      cases hsync : sA.synced with
      | false =>
        rw [(h.invA.rep.ok.unsynced hsync).reads]
        exact List.nil_infix
      | true =>
        refine h.invA.rep.ok.reads_le.isInfix.trans ?_
        rw [(h.ba hsync).shown_eq h.invA.settled]
        exact ((List.take_prefix _ _).isInfix.trans (List.drop_suffix _ _).isInfix).flatMap _

/-- The connecting end writes three bytes and closes; every datagram comes at once. -/
def Link.shortEvents : List LinkEvent :=
  [.accept 0 0 500, .atA (.deliver 0 0), .atA (.call (.write [1, 2, 3])), .atB (.deliver 1 0),
    .atB .issueDeferredAcks, .atA (.deliver 1 0), .atA (.call .close), .atB (.deliver 2 0)]

/-- Nothing is lost: when the send queue of an end is empty, the other end has read everything. -/
theorem Link.run_acked (envA envB : Env) (connSeed seqNr : UInt16) (events : List LinkEvent)
    (b : Conn) (hb : ((Link.connect envA connSeed seqNr).run envA envB events).b = some b) :
    let l := (Link.connect envA connSeed seqNr).run envA envB events
    (l.a.curWindowPackets = 0 → b.Reading → b.reads = l.a.taken) ∧
      (b.curWindowPackets = 0 → l.a.Reading → l.a.reads <:+ b.taken) := by
  intro l
  rcases Link.connect_run_inv envA envB connSeed seqNr events with ⟨sA, h⟩ | ⟨b', skip, sA, sB, h⟩
  · rw [h.noB] at hb
    cases hb
  · obtain rfl : b' = b := by
      rw [h.hasB] at hb
      exact Option.some.inj hb
    have hA : l.a.taken = sA.snd.frames.flatMap Frame.body := h.invA.rep.taken
    constructor
    · intro hempty hread
      have hwin := h.invA.rep.send.window
      have hbase := h.ab.base_le h.invA.rep.ok h.invB.settled
      rw [show _ = 0 from hempty] at hwin
      rw [h.invB.reads_eq hread, hA, FrameSocket.flatMap_body_of_syn h.first]
      exact h.ab.shown_of_all h.invB.settled (by omega)
    · intro hempty hread
      have hba := h.ba (h.invA.synced hread)
      have hwin := h.invB.rep.send.window
      have hbase := hba.base_le h.invB.rep.ok h.invA.settled
      rw [hempty] at hwin
      rw [h.invA.reads_eq hread, h.invB.rep.taken, hba.shown_of_all h.invA.settled (by omega)]
      exact (List.drop_suffix _ _).flatMap _

/-- The short run up to the ack of its data. -/
theorem Link.run_acked_short :
    let l := (Link.connect .still 7 100).run .still .still (Link.shortEvents.take 6)
    ∃ b, l.b = some b ∧ l.a.curWindowPackets = 0 ∧ b.state = .connected ∧ b.reads = l.a.taken := by
  intro l
  have hstate : l.b.map Conn.state = some .connected := by decide +kernel
  have hempty : l.a.curWindowPackets = 0 := by decide +kernel
  obtain ⟨b, hb, hconn⟩ := Option.map_eq_some_iff.mp hstate
  exact ⟨b, hb, hempty, hconn, (Link.run_acked .still .still 7 100 _ b hb).1 hempty (Or.inl hconn)⟩

/-- The end of the data is reported behind all of it, for the connecting end behind all of it from
the first packet on, and nothing can be written after it. -/
theorem Link.run_eof (envA envB : Env) (connSeed seqNr : UInt16) (events : List LinkEvent)
    (b : Conn) (hb : ((Link.connect envA connSeed seqNr).run envA envB events).b = some b) :
    let l := (Link.connect envA connSeed seqNr).run envA envB events
    (b.state = .gotFin →
      b.reads = l.a.taken ∧ l.a.state ≠ .connected ∧ l.a.state ≠ .connectedFull) ∧
      (l.a.state = .gotFin →
        l.a.reads <:+ b.taken ∧ b.state ≠ .connected ∧ b.state ≠ .connectedFull) := by
  intro l
  rcases Link.connect_run_inv envA envB connSeed seqNr events with ⟨sA, h⟩ | ⟨b', skip, sA, sB, h⟩
  · rw [h.noB] at hb
    cases hb
  · obtain rfl : b' = b := by
      rw [h.hasB] at hb
      exact Option.some.inj hb
    have hA : l.a.taken = sA.snd.frames.flatMap Frame.body := h.invA.rep.taken
    have hstA : l.a.state = sA.state := h.invA.rep.state
    constructor
    · intro hfin
      have heof := h.invB.rep.ok.gotFin (h.invB.rep.state.symm.trans hfin)
      obtain ⟨hall, hstate⟩ := h.ab.all_of_eof h.invA.rep.ok heof
      rw [hstA]
      refine ⟨?_, hstate⟩
      rw [h.invB.reads_eq (Or.inr (Or.inr hfin)), hA, FrameSocket.flatMap_body_of_syn h.first]
      exact h.ab.shown_of_all h.invB.settled (Nat.le_of_eq hall.symm)
    · intro hfin
      have hread : l.a.Reading := Or.inr (Or.inr hfin)
      have hba := h.ba (h.invA.synced hread)
      have heof := h.invA.rep.ok.gotFin (hstA.symm.trans hfin)
      obtain ⟨hall, hstate⟩ := hba.all_of_eof h.invB.rep.ok heof
      rw [h.invB.rep.state]
      refine ⟨?_, hstate⟩
      rw [h.invA.reads_eq hread, h.invB.rep.taken,
        hba.shown_of_all h.invA.settled (Nat.le_of_eq hall.symm)]
      exact (List.drop_suffix _ _).flatMap _

/-- The short run to its end. -/
theorem Link.run_eof_short :
    let l := (Link.connect .still 7 100).run .still .still Link.shortEvents
    ∃ b, l.b = some b ∧ b.state = .gotFin ∧ b.reads = l.a.taken := by
  intro l
  have hstate : l.b.map Conn.state = some .gotFin := by decide +kernel
  obtain ⟨b, hb, hfin⟩ := Option.map_eq_some_iff.mp hstate
  exact ⟨b, hb, hfin, ((Link.run_eof .still .still 7 100 _ b hb).1 hfin).1⟩

end EChannel.LibUtp
