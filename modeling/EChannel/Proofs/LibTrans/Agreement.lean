import EChannel.Proofs.LibTrans.Accepting
import EChannel.Proofs.LibTrans.Connecting

/-!
# `EChannel.Proofs.LibTrans.Agreement`: the two endpoints of a session agree

When the connecting endpoint is connected, the accepting endpoint has made a socket, since
nothing else sends the `ST_STATE` that connects it (`CtlInv`). When the accepting endpoint has
made a socket, its main thread knows (`AccInv`).

The second half rests on a race: if the main thread takes the `utpAccept` before the channel
has negotiated, the assertion of `onUtpAccept` fails and the channel is never told. `agreed_iff`
says that this is the only way to lose agreement.
-/

set_option autoImplicit false

namespace EChannel.LibTrans

open LibUtp

open UTPManager UtpHandle

namespace Peers

/-- What an endpoint sends was asked for by its uTP thread. -/
theorem mem_sent {y y' : System} {peer : QString} {a : EndAction} {pkt : Packet}
    (hstep : y.endStep peer a = some y') (hpkt : pkt ∈ sent y y') :
    ∃ peerAddr, .reqUDPSend peerAddr pkt ∈ y.utp.outbox := by
  -- Most steps send nothing, and the packet would have to be in the new output.
  have hnone : y'.main.iceOut = y.main.iceOut → False := by
    intro heq
    simp [sent, heq] at hpkt
  cases System.endStep_cases hstep with
  | onICENego isRelay =>
    refine (hnone ?_).elim
    cases hn : (y.main.channels 0).iceNego with
    | true => simp [UTPManager.onICENego, hn]
    | false => rw [UTPManager.onICENego_success hn]
  | write data =>
    refine (hnone ?_).elim
    simp only [UTPManager.write]
    split <;> rfl
  | mainSlot sig rest hout =>
    rcases y.main.slot_iceOut sig with heq | ⟨peerAddr, pkt', c, rfl, heq⟩
    · exact (hnone heq).elim
    · simp only [sent, heq, List.drop_left', List.map_cons, List.map_nil,
        List.mem_singleton] at hpkt
      rw [hpkt, hout]
      exact ⟨peerAddr, List.mem_cons_self⟩
  | utpSlot req rest seed o o' u hout hu hreq => exact (hnone rfl).elim
  | processRecv peerAddr pkt rest seed o o' hout => exact (hnone rfl).elim
  | send a s sock pkt hs hpkt => exact (hnone rfl).elim
  | read s buf u hu => exact (hnone rfl).elim
  | writable s o u hu => exact (hnone rfl).elim

/-- The invariant of the session. -/
structure Inv (ctlAddr : QString) (p : Peers) : Prop where
  ctl : CtlInv (Accepted ctlAddr p.acc.utp) p.ctl
  acc : AccInv ctlAddr p.acc
  toCtl : ∀ pkt ∈ p.toCtl, Allowed (Accepted ctlAddr p.acc.utp) pkt

/-- The assertion of `onUtpAccept` has not failed. When no message is in flight and the
connecting channel is connected, the accepting channel was told, and its socket carries its
connection id. -/
def Agreed (ctlAddr : QString) (p : Peers) : Prop :=
  p.ctl.main.assertFailed = false ∧ p.acc.main.assertFailed = false ∧
    (Quiescent p → 0 < (p.ctl.main.channels 0).connects →
      0 < (p.acc.main.channels 0).connects ∧
        ∃ s sock, p.acc.utp.utpSocketsAddr.lookup ctlAddr = some s ∧
          p.acc.utp.sockets s = some sock ∧
          sock.userdata = (p.acc.main.channels 0).utpConnectID)

/-- The main thread of the accepting endpoint takes a `utpAccept` only after the channel's
`onICENego`. -/
def AcceptAfterNego (p : Peers) : PeersAction → Prop
  | .acc .mainSlot => ∀ peerAddr rest, p.acc.utp.outbox = .utpAccept peerAddr :: rest →
      (p.acc.main.channels 0).iceNego = true
  | _ => True

/-- The invariant gives the agreement of the ends. -/
theorem Inv.agreed {ctlAddr : QString} {p : Peers} (h : Inv ctlAddr p) : Agreed ctlAddr p := by
  refine ⟨h.ctl.assertFailed, h.acc.assertFailed, fun hq hc => ?_⟩
  obtain ⟨-, -, -, hmain, hutp⟩ := hq
  -- Connected there means accepted here, and here no message is left that could still tell.
  obtain ⟨s, hs⟩ := h.ctl.connects 0 hc
  obtain ⟨sock, hsock⟩ := Option.isSome_iff_exists.mp (h.acc.installed s hs)
  rcases h.acc.notified ⟨s, hs⟩ with hin | ⟨hconn, -, hreq | hall⟩
  · simp [hutp] at hin
  · simp [hmain] at hreq
  · refine ⟨hconn, s, sock, hs, hsock, ?_⟩
    simpa [userdata, hsock] using hall s hs

/-- Neither end has begun. -/
theorem Inv.init (ctlAddr : QString) (ctlGarbage accGarbage : Int) :
    Inv ctlAddr (Peers.init ctlGarbage accGarbage) := by
  refine ⟨?_, ?_, fun pkt hpkt => (List.not_mem_nil hpkt).elim⟩
  · exact
      { socks := fun s sock hs => by cases hs
        signals := fun sig hsig => (List.not_mem_nil hsig).elim
        requests := fun req hreq => (List.not_mem_nil hreq).elim
        connects := fun c hc => (Nat.lt_irrefl 0 hc).elim
        assertFailed := rfl }
  · exact
      { isControl := rfl
        byAddr := fun a c hl => by simp [Peers.init, System.init, UTPManager.init] at hl
        registered := fun hn => by cases hn
        requests := fun req hreq => (List.not_mem_nil hreq).elim
        signals := fun sig hsig => (List.not_mem_nil hsig).elim
        socks := fun s sock hs => by cases hs
        installed := fun s hs => by simp [Peers.init, System.init, UtpHandle.init] at hs
        assertFailed := rfl
        notified := fun ⟨s, hs⟩ => by simp [Peers.init, System.init, UtpHandle.init] at hs }

section Step
variable {ctlAddr accAddr : QString} {p p' : Peers} {a : PeersAction}

/-- Fewer datagrams in flight. -/
theorem Inv.subset (h : Inv ctlAddr p) {toAcc toCtl : List Packet}
    (hsub : ∀ pkt ∈ toCtl, pkt ∈ p.toCtl) :
    Inv ctlAddr { p with toAcc, toCtl } :=
  ⟨h.ctl, h.acc, fun pkt hpkt => h.toCtl pkt (hsub pkt hpkt)⟩

/-- What is still in the network was there before. -/
theorem mem_remaining {net : List Packet} {i : Nat} {duplicate : Bool} {pkt : Packet}
    (h : pkt ∈ remaining net i duplicate) : pkt ∈ net := by
  unfold remaining at h
  split at h
  · exact h
  · exact List.mem_of_mem_eraseIdx h

/-- A step under the condition keeps the invariant. -/
theorem Inv.step (h : Inv ctlAddr p) (hstep : Peers.step ctlAddr accAddr p a = some p')
    (hcond : AcceptAfterNego p a) : Inv ctlAddr p' := by
  cases a with
  | ctl a =>
    simp only [Peers.step] at hstep
    split at hstep
    · rename_i y hy
      cases hstep
      exact ⟨h.ctl.endStep hy, h.acc, h.toCtl⟩
    · cases hstep
  | acc a =>
    simp only [Peers.step] at hstep
    split at hstep
    · rename_i y hy
      cases hstep
      -- The invariant of the other side speaks of this side's socket, which stays.
      have hmono : Accepted ctlAddr p.acc.utp → Accepted ctlAddr y.utp := fun hacc =>
        hacc.endStep hy
      refine ⟨h.ctl.mono hmono, h.acc.endStep hy fun ha => ?_, fun pkt hpkt => ?_⟩
      · subst ha
        exact hcond
      · refine Allowed.mono hmono ?_
        rcases List.mem_append.mp hpkt with hold | hnew
        · exact h.toCtl pkt hold
        · obtain ⟨peerAddr, hin⟩ := mem_sent hy hnew
          exact h.acc.signals _ hin
    · cases hstep
  | deliverAcc i duplicate =>
    simp only [Peers.step] at hstep
    split at hstep
    · rename_i pkt hpkt
      cases hstep
      have hreq : AccInv.RequestOk ctlAddr (p.acc.main.channels 0) (.parse ctlAddr pkt) := rfl
      have hacc : AccInv ctlAddr { p.acc with main := p.acc.main.onICEReadPkt pkt ctlAddr } :=
        { h.acc.toBase.request hreq with
          notified := fun ha => (h.acc.notified ha).imp id fun ⟨hc, hn, hid⟩ =>
            ⟨hc, hn, hid.imp (List.mem_append_left _) id⟩ }
      exact ⟨h.ctl, hacc, h.toCtl⟩
    · cases hstep
  | deliverCtl i duplicate =>
    simp only [Peers.step] at hstep
    split at hstep
    · rename_i pkt hpkt
      cases hstep
      have hin : pkt ∈ p.toCtl := List.mem_of_getElem? hpkt
      exact ⟨h.ctl.request (h.toCtl pkt hin), h.acc, fun pkt' hpkt' =>
        h.toCtl pkt' (mem_remaining hpkt')⟩
    · cases hstep
  | loseAcc i =>
    cases hstep
    exact h.subset fun pkt hpkt => hpkt
  | loseCtl i =>
    cases hstep
    exact h.subset fun pkt hpkt => List.mem_of_mem_eraseIdx hpkt

/-- A `utpAccept` that comes before the negotiation fails the assertion. -/
theorem Inv.acceptAfterNego (h : Inv ctlAddr p)
    (hstep : Peers.step ctlAddr accAddr p a = some p') (hagreed : Agreed ctlAddr p') :
    AcceptAfterNego p a := by
  unfold AcceptAfterNego
  split
  · intro peerAddr rest hout
    by_contra hn
    have hnone : p.acc.main.hashChannels.lookup peerAddr = none := by
      cases hl : p.acc.main.hashChannels.lookup peerAddr with
      | none => rfl
      | some c => exact absurd (h.acc.byAddr peerAddr c hl).2 hn
    simp only [Peers.step, System.endStep, System.step, hout] at hstep
    cases hstep
    have hfailed := hagreed.2.1
    simp [UTPManager.slot, UTPManager.onUtpAccept, hnone] at hfailed
  · trivial

end Step

/-- The endpoints agree in every state of a run exactly when the accepting main thread never
takes a `utpAccept` before its channel has negotiated. -/
theorem agreed_iff (ctlAddr accAddr : QString) (ctlGarbage accGarbage : Int)
    (as : List PeersAction) (p : Peers)
    (hrun : run (step ctlAddr accAddr) (init ctlGarbage accGarbage) as = some p) :
    Always (step ctlAddr accAddr) (Agreed ctlAddr) (init ctlGarbage accGarbage) as ↔
      AllSteps (step ctlAddr accAddr) AcceptAfterNego (init ctlGarbage accGarbage) as :=
  always_iff_allSteps (fun _ _ _ hinv hstep hcond => hinv.step hstep hcond)
    (fun _ hinv => hinv.agreed) (fun _ _ _ hinv hstep => hinv.acceptAfterNego hstep) as _ p
    (Inv.init ctlAddr ctlGarbage accGarbage) hrun

/-- Both endpoints negotiate, then the handshake runs to its end. -/
theorem agreed_iff_negotiated :
    ∃ p, run (step ['a', ':'] ['b', ':']) (init 0 0)
        [.acc (.onICENego false), .ctl (.onICENego false), .ctl (.utpSlot 9 [] []),
          .ctl .mainSlot, .deliverAcc 0 false, .acc (.utpSlot 0 [] []), .acc .mainSlot,
          .acc .mainSlot, .acc (.utpSlot 0 [] []), .deliverCtl 0 false,
          .ctl (.utpSlot 0 [] []), .ctl .mainSlot] = some p ∧
      Quiescent p ∧ (p.ctl.main.channels 0).connects = 1 ∧ Agreed ['a', ':'] p := by
  refine ⟨_, rfl, ⟨rfl, rfl, ⟨rfl, rfl⟩, rfl, rfl⟩, rfl, ?_⟩
  refine Always.last ((agreed_iff ['a', ':'] ['b', ':'] 0 0
    [.acc (.onICENego false), .ctl (.onICENego false), .ctl (.utpSlot 9 [] []),
      .ctl .mainSlot, .deliverAcc 0 false, .acc (.utpSlot 0 [] []), .acc .mainSlot,
      .acc .mainSlot, .acc (.utpSlot 0 [] []), .deliverCtl 0 false,
      .ctl (.utpSlot 0 [] []), .ctl .mainSlot] _ rfl).mpr ?_) rfl
  refine .cons trivial rfl (.cons trivial rfl (.cons trivial rfl (.cons trivial rfl
    (.cons trivial rfl (.cons trivial rfl ?_)))))
  refine .cons (fun _ _ _ => rfl) rfl (.cons (fun _ _ _ => rfl) rfl ?_)
  exact .cons trivial rfl (.cons trivial rfl (.cons trivial rfl (.cons trivial rfl trivial)))

/-- The `ST_SYN` is accepted before the accepting channel has negotiated. The assertion fails,
and after the negotiation the channel is still not told of its socket. -/
theorem not_agreed_acceptBeforeNego :
    ∃ p, run (step ['a', ':'] ['b', ':']) (init 0 0)
        [.ctl (.onICENego false), .ctl (.utpSlot 9 [] []), .ctl .mainSlot, .deliverAcc 0 false,
          .acc (.utpSlot 0 [] []), .acc .mainSlot, .acc .mainSlot,
          .acc (.onICENego false)] = some p ∧
      p.acc.main.assertFailed = true ∧ Quiescent p ∧ Accepted ['a', ':'] p.acc.utp ∧
      (p.acc.main.channels 0).connects = 0 ∧ ¬ Agreed ['a', ':'] p := by
  refine ⟨_, rfl, rfl, ⟨rfl, rfl, ⟨rfl, rfl⟩, rfl, rfl⟩, ⟨0, rfl⟩, rfl, fun h => ?_⟩
  cases h.2.1

end Peers

end EChannel.LibTrans
