import EChannel.Proofs.LibTrans.Endpoint

/-!
# `EChannel.Proofs.LibTrans.Accepting`: the accepting endpoint of a session

When the accepting endpoint has a socket, its main thread knows: the `utpAccept` is on its way,
or the channel was notified and its id is on the socket or on its way there (`AccInv`). Every
step keeps this if the main thread takes the `utpAccept` after the channel's `onICENego`, since
`onUtpAccept` looks the address up in `m_hashChannels`, which `onICENego` fills.
-/

set_option autoImplicit false

namespace EChannel.LibTrans

open LibUtp

/-! ### What its main thread keeps -/

namespace UTPManager

/-- What the main thread keeps when it neither negotiates nor drops a registration. -/
structure Noted (m m' : UTPManager) : Prop where
  hashChannels : m'.hashChannels = m.hashChannels
  isControl : (m'.channels 0).isControl = (m.channels 0).isControl
  iceNego : (m'.channels 0).iceNego = (m.channels 0).iceNego
  utpConnectID : (m'.channels 0).utpConnectID = (m.channels 0).utpConnectID
  connects : (m.channels 0).connects ≤ (m'.channels 0).connects
  outbox : ∃ new, m'.outbox = m.outbox ++ new ∧ ∀ r ∈ new, ∃ a buf, r = .pack a buf
  assertFailed : m'.assertFailed = m.assertFailed

namespace Noted

variable {m m' m'' : UTPManager}

/-- A manager that does not change. -/
theorem refl (m : UTPManager) : Noted m m :=
  ⟨rfl, rfl, rfl, rfl, le_rfl, ⟨[], by simp⟩, rfl⟩

/-- Two changes in a row. -/
theorem trans (h : Noted m m') (h' : Noted m' m'') : Noted m m'' := by
  obtain ⟨new, hout, hnew⟩ := h.outbox
  obtain ⟨new', hout', hnew'⟩ := h'.outbox
  exact
    { hashChannels := h'.hashChannels.trans h.hashChannels
      isControl := h'.isControl.trans h.isControl
      iceNego := h'.iceNego.trans h.iceNego
      utpConnectID := h'.utpConnectID.trans h.utpConnectID
      connects := le_trans h.connects h'.connects
      outbox := ⟨new ++ new', by rw [hout', hout, List.append_assoc], fun r hr =>
        (List.mem_append.mp hr).elim (hnew r) (hnew' r)⟩
      assertFailed := h'.assertFailed.trans h.assertFailed }

/-- Other members of a channel change, and its connects are not fewer. -/
theorem setChannel {c : ChanId} {ch : TransportChannel}
    (hctl : ch.isControl = (m.channels c).isControl) (hn : ch.iceNego = (m.channels c).iceNego)
    (hid : ch.utpConnectID = (m.channels c).utpConnectID)
    (hc : (m.channels c).connects ≤ ch.connects) : Noted m (m.setChannel c ch) := by
  by_cases h0 : 0 = c
  · subst h0
    exact ⟨rfl, by simpa [UTPManager.setChannel] using hctl,
      by simpa [UTPManager.setChannel] using hn, by simpa [UTPManager.setChannel] using hid,
      by simpa [UTPManager.setChannel] using hc, ⟨[], by simp [UTPManager.setChannel]⟩, rfl⟩
  · have hch : (m.setChannel c ch).channels 0 = m.channels 0 := Function.update_of_ne h0 _ _
    exact ⟨rfl, by rw [hch], by rw [hch], by rw [hch], by rw [hch],
      ⟨[], by simp [UTPManager.setChannel]⟩, rfl⟩

/-- A pack is requested. -/
theorem pack (m : UTPManager) (a : QString) (buf : QByteArray) :
    Noted m (m.request (.pack a buf)) :=
  ⟨rfl, rfl, rfl, rfl, le_rfl, ⟨[.pack a buf], rfl, by simp⟩, rfl⟩

/-- `write` requests a pack or keeps the data. -/
theorem write (m : UTPManager) (c : ChanId) (data : QByteArray) : Noted m (m.write c data) := by
  simp only [UTPManager.write]
  split
  · exact setChannel rfl rfl rfl le_rfl
  · refine trans ?_ (pack _ _ _)
    exact setChannel rfl rfl rfl le_rfl

/-- `connectSuccess` adds to the connects of its channel only. -/
theorem connectSuccess (m : UTPManager) (c : ChanId) (a : QString) :
    Noted m (m.connectSuccess c a) := by
  simp only [UTPManager.connectSuccess]
  split
  · exact setChannel rfl rfl rfl (Nat.le_succ _)
  · split
    · exact setChannel rfl rfl rfl (Nat.le_succ _)
    · refine trans ?_ (pack _ _ _)
      exact setChannel rfl rfl rfl (Nat.le_succ _)

end Noted

/-- After `connectSuccess` the channel has connected. -/
theorem connectSuccess_connects (m : UTPManager) (c : ChanId) (a : QString) :
    0 < ((m.connectSuccess c a).channels c).connects := by
  simp only [UTPManager.connectSuccess]
  split
  · simp [setChannel]
  · split <;> simp [setChannel, request]

end UTPManager

open UTPManager UtpHandle

/-- The channel knows of the socket, or the `utpAccept` is on its way. In the first case the
socket carries the id of the channel, or the request that sets it is on its way. -/
def Notified (addr : QString) (y : System) : Prop :=
  .utpAccept addr ∈ y.utp.outbox ∨
    0 < (y.main.channels 0).connects ∧ (y.main.channels 0).iceNego = true ∧
      (.setAcceptConnID addr (y.main.channels 0).utpConnectID ∈ y.main.outbox ∨
        ∀ s, y.utp.utpSocketsAddr.lookup addr = some s →
          y.utp.userdata s = (y.main.channels 0).utpConnectID)

namespace AccInv

/-- A request that the accepting endpoint can have on its way. -/
def RequestOk (addr : QString) (ch : TransportChannel) : UtpRequest → Prop
  | .connectToPeer _ _ => False
  | .parse peerAddr _ => peerAddr = addr
  | .pack _ _ => True
  | .setAcceptConnID peerAddr connectID =>
    peerAddr = addr ∧ ch.iceNego = true ∧ connectID = ch.utpConnectID
  | .close _ _ => False

/-- A signal that it can have on its way. -/
def SignalOk (addr : QString) (accepted : Prop) : UtpSignal → Prop
  | .reqUDPSend _ pkt => Allowed accepted pkt
  | .utpAccept peerAddr => peerAddr = addr
  | .utpError _ _ => False
  | _ => True

/-- The registrations and the messages of the accepting endpoint. -/
structure Base (addr : QString) (y : System) : Prop where
  isControl : (y.main.channels 0).isControl = false
  byAddr : ∀ a c, y.main.hashChannels.lookup a = some c →
    c = 0 ∧ (y.main.channels 0).iceNego = true
  registered : (y.main.channels 0).iceNego = true → y.main.hashChannels.lookup addr = some 0
  requests : ∀ req ∈ y.main.outbox, RequestOk addr (y.main.channels 0) req
  signals : ∀ sig ∈ y.utp.outbox, SignalOk addr (Accepted addr y.utp) sig
  socks : ∀ s sock, y.utp.sockets s = some sock → sock.isConnected = true ∧ Accepted addr y.utp
  installed : ∀ s, y.utp.utpSocketsAddr.lookup addr = some s → (y.utp.sockets s).isSome = true
  assertFailed : y.main.assertFailed = false

end AccInv

/-- The invariant of the accepting endpoint. -/
structure AccInv (addr : QString) (y : System) : Prop extends AccInv.Base addr y where
  notified : Accepted addr y.utp → Notified addr y

namespace AccInv

variable {addr : QString} {y : System} {m : UTPManager} {u : UtpHandle}

namespace Base

/-- A step of the main thread that changes nothing the invariant reads. -/
theorem noted (h : Base addr y) (hm : Noted y.main m) : Base addr { y with main := m } := by
  obtain ⟨new, hout, hnew⟩ := hm.outbox
  refine
    { isControl := hm.isControl.trans h.isControl
      byAddr := fun a c hl => ?_
      registered := fun hn => ?_
      requests := fun req hreq => ?_
      signals := h.signals
      socks := h.socks
      installed := h.installed
      assertFailed := hm.assertFailed.trans h.assertFailed }
  · have := h.byAddr a c (hm.hashChannels ▸ hl)
    exact ⟨this.1, hm.iceNego.trans this.2⟩
  · have := h.registered (hm.iceNego.symm.trans hn)
    exact hm.hashChannels ▸ this
  · rw [hout] at hreq
    rcases List.mem_append.mp hreq with hold | hin
    · have := h.requests req hold
      cases req with
      | setAcceptConnID peerAddr connectID =>
        exact ⟨this.1, hm.iceNego.trans this.2.1, this.2.2.trans hm.utpConnectID.symm⟩
      | _ => exact this
    · obtain ⟨a, buf, rfl⟩ := hnew req hin
      trivial

/-- A request that fits the channel is queued. -/
theorem request (h : Base addr y) {req : UtpRequest}
    (hreq : RequestOk addr (y.main.channels 0) req) :
    Base addr { y with main := y.main.request req } := by
  refine { h with requests := fun r hr => ?_ }
  rcases List.mem_append.mp hr with hold | hin
  · exact h.requests r hold
  · rw [List.mem_singleton.mp hin]
    exact hreq

/-- The negotiation of the channel succeeds. -/
theorem onICENego (h : Base addr y) (isRelay : Bool) :
    Base addr { y with main := y.main.onICENego 0 true isRelay addr } := by
  cases hn : (y.main.channels 0).iceNego with
  | true => simpa [UTPManager.onICENego, hn] using h
  | false =>
    rw [UTPManager.onICENego_success hn]
    refine
      { isControl := by simpa using h.isControl
        byAddr := fun a c hl => ?_
        registered := fun _ => by simp
        requests := fun req hreq => ?_
        signals := h.signals
        socks := h.socks
        installed := h.installed
        assertFailed := h.assertFailed }
    · rcases QHash.lookup_of_insert hl with ⟨-, hnew⟩ | ⟨-, hold⟩
      · exact ⟨hnew, by simp⟩
      · exact ⟨(h.byAddr a c hold).1, by simp⟩
    · simp only [h.isControl, Bool.false_eq_true, if_false] at hreq
      have := h.requests req hreq
      cases req with
      | setAcceptConnID peerAddr connectID =>
        rw [RequestOk, hn] at this
        cases this.2.1
      | _ => exact this

end Base

/-- A signal stays in order when what it says stays true. -/
theorem SignalOk.mono {A A' : Prop} (hA : A → A') {sig : UtpSignal} (h : SignalOk addr A sig) :
    SignalOk addr A' sig := by
  cases sig with
  | reqUDPSend peerAddr pkt => exact Allowed.mono hA h
  | _ => exact h

/-! ### Its main thread -/

/-- A step of the main thread that changes nothing the invariant reads. -/
theorem noted (h : AccInv addr y) (hm : Noted y.main m) : AccInv addr { y with main := m } := by
  refine { h.toBase.noted hm with notified := fun hacc => ?_ }
  obtain ⟨new, hout, -⟩ := hm.outbox
  refine (h.notified hacc).imp id fun ⟨hc, hn, hid⟩ => ?_
  refine ⟨lt_of_lt_of_le hc hm.connects, hm.iceNego.trans hn, ?_⟩
  dsimp only
  rw [hm.utpConnectID, hout]
  exact hid.imp (List.mem_append_left _) id

/-- The negotiation of the channel succeeds. -/
theorem onICENego (h : AccInv addr y) (isRelay : Bool) :
    AccInv addr { y with main := y.main.onICENego 0 true isRelay addr } := by
  -- Before the negotiation nobody was told, so the `utpAccept` is still on its way.
  refine { h.toBase.onICENego isRelay with notified := fun hacc => ?_ }
  cases hn : (y.main.channels 0).iceNego with
  | true => simpa [UTPManager.onICENego, hn] using h.notified hacc
  | false =>
    rcases h.notified hacc with hin | ⟨-, hn', -⟩
    · exact Or.inl hin
    · rw [hn] at hn'
      cases hn'

/-- The slot for a signal other than `utpAccept`. -/
theorem noted_slot {sig : UtpSignal} (hacc : ∀ a, sig ≠ .utpAccept a)
    (herr : ∀ a id, sig ≠ .utpError a id) : Noted y.main (y.main.slot sig) := by
  generalize hm : y.main.slot sig = m'
  cases slot_cases hm with
  | reqUDPSend peerAddr pkt c hl => exact ⟨rfl, rfl, rfl, rfl, le_rfl, ⟨[], by simp⟩, rfl⟩
  | utpRecv connectID buf c hl => exact Noted.setChannel rfl rfl rfl le_rfl
  | utpAccept peerAddr c hl => exact absurd rfl (hacc peerAddr)
  | acceptFailed peerAddr hl => exact absurd rfl (hacc peerAddr)
  | utpConnected connectID c hl => exact Noted.connectSuccess _ _ _
  | utpError peerAddr connectID c hl => exact absurd rfl (herr peerAddr connectID)
  | errorUnknown peerAddr connectID hl => exact absurd rfl (herr peerAddr connectID)
  | dropped => exact Noted.refl _

/-- `onUtpAccept` for a channel that has negotiated. -/
theorem onUtpAccept (h : Base addr y) (hn : (y.main.channels 0).iceNego = true) :
    AccInv addr { y with main := y.main.onUtpAccept addr } := by
  have hreq : RequestOk addr (y.main.channels 0)
      (.setAcceptConnID addr (y.main.channels 0).utpConnectID) := ⟨rfl, hn, rfl⟩
  have hm := Noted.connectSuccess
    (y.main.request (.setAcceptConnID addr (y.main.channels 0).utpConnectID)) 0 addr
  have hbase := (h.request hreq).noted hm
  simp only [UTPManager.onUtpAccept, h.registered hn]
  refine { hbase with notified := fun _ => Or.inr ⟨?_, hm.iceNego.trans hn, Or.inl ?_⟩ }
  · exact connectSuccess_connects _ 0 addr
  · obtain ⟨new, hout, -⟩ := hm.outbox
    dsimp only
    rw [hout, hm.utpConnectID]
    exact List.mem_append_left _ (List.mem_append_right _ (List.mem_singleton.mpr rfl))

/-- A queued signal is handled. `onUtpAccept` needs a channel that has negotiated. -/
theorem mainSlot {sig : UtpSignal} {rest : List UtpSignal} (h : AccInv addr y)
    (hout : y.utp.outbox = sig :: rest)
    (hnego : ∀ a, sig = .utpAccept a → (y.main.channels 0).iceNego = true) :
    AccInv addr { main := y.main.slot sig, utp := { y.utp with outbox := rest } } := by
  have hbase : Base addr { y with utp := { y.utp with outbox := rest } } :=
    { h.toBase with
      signals := fun sig' hsig' => h.signals sig' (hout ▸ List.mem_cons_of_mem _ hsig') }
  have hsig : SignalOk addr (Accepted addr y.utp) sig := h.signals sig (hout ▸ List.mem_cons_self)
  by_cases hacc : ∃ a, sig = .utpAccept a
  · obtain ⟨a, rfl⟩ := hacc
    have ha : a = addr := hsig
    subst ha
    exact onUtpAccept hbase (hnego a rfl)
  · have hne : ∀ a, sig ≠ .utpAccept a := fun a heq => hacc ⟨a, heq⟩
    have hrest : AccInv addr { y with utp := { y.utp with outbox := rest } } := by
      refine { hbase with notified := fun hacc' => (h.notified hacc').imp ?_ id }
      intro hin
      rw [hout] at hin
      exact (List.mem_cons.mp hin).resolve_left fun heq => hne addr heq.symm
    refine hrest.noted (noted_slot hne ?_)
    rintro a id rfl
    exact hsig

/-! ### Its uTP thread -/

/-- A step that keeps the sockets for the address and their ids. -/
theorem frame (h : AccInv addr y) (haddr : u.utpSocketsAddr = y.utp.utpSocketsAddr)
    (hout : ∃ new, u.outbox = y.utp.outbox ++ new ∧
      ∀ sig ∈ new, SignalOk addr (Accepted addr y.utp) sig)
    (hsocks : ∀ s, u.sockets s = y.utp.sockets s ∨ ∃ sock sock', y.utp.sockets s = some sock ∧
      u.sockets s = some sock' ∧ sock'.isConnected = true ∧ sock'.userdata = sock.userdata) :
    AccInv addr { y with utp := u } := by
  obtain ⟨new, heq, hnew⟩ := hout
  -- The map is the same, and each socket keeps its channel.
  have hacc : Accepted addr u ↔ Accepted addr y.utp := by simp only [Accepted, haddr]
  have hud : ∀ s, u.userdata s = y.utp.userdata s := by
    intro s
    unfold UtpHandle.userdata
    rcases hsocks s with hs | ⟨sock, sock', hs, hs', -, hid⟩
    · rw [hs]
    · rw [hs, hs']
      exact hid
  refine
    { isControl := h.isControl, byAddr := h.byAddr, registered := h.registered
      requests := h.requests, assertFailed := h.assertFailed
      signals := fun sig hsig => ?_
      socks := fun s sock' hs' => ?_
      installed := fun s hs => ?_
      notified := fun ha => (h.notified (hacc.mp ha)).imp (fun hin => ?_) fun ⟨hc, hn, hid⟩ => ?_ }
  · dsimp only at hsig ⊢
    rw [hacc]
    rw [heq] at hsig
    exact (List.mem_append.mp hsig).elim (h.signals sig) (hnew sig)
  · rcases hsocks s with hs | ⟨sock, sock'', hs, hs'', hc, -⟩
    · exact ⟨(h.socks s sock' (hs ▸ hs')).1, hacc.mpr (h.socks s sock' (hs ▸ hs')).2⟩
    · have heq' : sock'' = sock' := Option.some.inj (hs''.symm.trans hs')
      exact ⟨heq' ▸ hc, hacc.mpr (h.socks s sock hs).2⟩
  · dsimp only at hs ⊢
    rw [haddr] at hs
    rcases hsocks s with hs' | ⟨sock, sock', -, hs', -⟩
    · rw [hs']
      exact h.installed s hs
    · rw [hs']
      rfl
  · dsimp only
    rw [heq]
    exact List.mem_append_left _ hin
  · refine ⟨hc, hn, hid.imp id fun hall s hs => ?_⟩
    rw [hud]
    exact hall s (haddr ▸ hs)

/-- The loop over the write queue keeps the invariant. -/
theorem wrote (h : AccInv addr y) (hw : Wrote y.utp u) : AccInv addr { y with utp := u } := by
  obtain ⟨sigs, hout, hidle⟩ := hw.outbox
  refine h.frame hw.utpSocketsAddr ⟨sigs, hout, fun sig hsig => ?_⟩ fun s => ?_
  · have := hidle sig hsig
    cases sig with
    | utpIdle peerAddr => trivial
    | _ => cases this
  · exact (hw.sockets s).imp id fun ⟨sock, hs, hstate, hs'⟩ => ⟨sock, _, hs, hs', rfl, rfl⟩

/-- A signal that is in order is emitted. -/
theorem emit (h : AccInv addr y) {sig : UtpSignal}
    (hsig : SignalOk addr (Accepted addr y.utp) sig) :
    AccInv addr { y with utp := y.utp.emit sig } :=
  h.frame rfl ⟨[sig], rfl, by simpa using hsig⟩ fun _ => Or.inl rfl

/-- A new socket, with its `utpAccept` on the way. -/
theorem acceptBase (h : AccInv addr y) (connid : Nat) :
    AccInv addr { y with utp := y.utp.acceptBase addr connid } := by
  have hacc : Accepted addr (y.utp.acceptBase addr connid) :=
    ⟨y.utp.nextSock, by simp [UtpHandle.acceptBase]⟩
  refine
    { isControl := h.isControl, byAddr := h.byAddr, registered := h.registered
      requests := h.requests, assertFailed := h.assertFailed
      signals := fun sig hsig => ?_
      socks := fun s sock hs => ⟨?_, hacc⟩
      installed := fun s hs => ?_
      notified := fun _ => Or.inl (by simp [UtpHandle.acceptBase]) }
  · rcases List.mem_append.mp hsig with hold | hin
    · exact (h.signals sig hold).mono fun _ => hacc
    · rcases List.mem_pair.mp hin with rfl | rfl
      · exact hacc
      · rfl
  · rcases update_cases hs with ⟨-, heq⟩ | ⟨-, hold⟩
    · cases heq
      rfl
    · exact (h.socks s sock hold).1
  · simp only [UtpHandle.acceptBase, QHash.lookup_insert_eq, if_true, Option.some.injEq] at hs
    simp [UtpHandle.acceptBase, ← hs]

/-- The steps of the uTP thread that the accepting endpoint can make, without
`setAcceptConnID`. -/
def StepOk (addr : QString) (accepted : Prop) : UtpAction → Prop
  | .save2WriteQueue _ _ _ => True
  | .processLoop _ => True
  | .event (.accept peerAddr _) _ => peerAddr = addr
  | .event (.connect _) _ => True
  | .event (.read _ _) _ => True
  | .event (.writable _) _ => True
  | .event (.sendto _ pkt) _ => Allowed accepted pkt
  | _ => False

/-- The part of a step before the loop over the write queue keeps the invariant. -/
theorem base {mid : UtpHandle} {a : UtpAction} (h : AccInv addr y)
    (hmid : BaseStep y.utp a mid) (ha : StepOk addr (Accepted addr y.utp) a) :
    AccInv addr { y with utp := mid } := by
  cases hmid with
  | connectToPeer peerAddr connectID seed hcolon hfree => exact ha.elim
  | setAcceptConnID peerAddr connectID => exact ha.elim
  | onCloseSocket peerAddr connectID => exact ha.elim
  | enqueue peerAddr buf o =>
    exact h.frame rfl ⟨[], by simp [UtpHandle.enqueue, UtpHandle.record, UtpHandle.withQueue]⟩
      fun _ => Or.inl rfl
  | processLoop o => exact h
  | accept peerAddr connid o hcolon hfree =>
    have hp : peerAddr = addr := ha
    subst hp
    exact h.acceptBase connid
  | connect s sock o hs hstate =>
    -- All sockets of this side were accepted, so none is in `CS_SYN_SENT`.
    have hc := (h.socks s sock hs).1
    simp [UTPSocket.isConnected, hstate] at hc
  | writable s sock o hs hstate =>
    refine h.frame rfl ⟨[], by simp [UtpHandle.setSocket]⟩ fun s' => ?_
    by_cases heq : s' = s
    · subst heq
      exact Or.inr ⟨sock, _, hs, Function.update_self _ _ _, rfl, rfl⟩
    · exact Or.inl (Function.update_of_ne heq _ _)
  | read s sock buf o hs hstate =>
    exact h.frame rfl ⟨[.utpRecv sock.userdata buf], rfl, by simp [SignalOk]⟩ fun _ => Or.inl rfl
  | eof s sock o hs hstate => exact ha.elim
  | error s sock o hs => exact ha.elim
  | expire s sock o hs hstate => exact ha.elim
  | destroying s sock o hs hstate => exact ha.elim
  | sendto peerAddr pkt o => exact h.emit ha

/-- The step lemma for the uTP thread of the accepting end. -/
theorem step {a : UtpAction} (h : AccInv addr y) (hu : y.utp.step a = some u)
    (ha : StepOk addr (Accepted addr y.utp) a) : AccInv addr { y with utp := u } := by
  obtain ⟨mid, hmid, rfl⟩ := UtpHandle.step_base hu
  exact (h.base hmid ha).wrote (UtpHandle.endStep_wrote mid a)

/-- A request other than `setAcceptConnID` leaves the queue. -/
theorem popRequest {req : UtpRequest} {rest : List UtpRequest} (h : AccInv addr y)
    (hout : y.main.outbox = req :: rest) (hne : ∀ a id, req ≠ .setAcceptConnID a id) :
    AccInv addr { y with main := { y.main with outbox := rest } } := by
  refine
    { h with
      requests := fun r hr => h.requests r (hout ▸ List.mem_cons_of_mem _ hr)
      notified := fun hacc => (h.notified hacc).imp id fun ⟨hc, hn, hid⟩ => ?_ }
  refine ⟨hc, hn, hid.imp (fun hin => ?_) id⟩
  rw [hout] at hin
  exact (List.mem_cons.mp hin).resolve_left fun heq => hne _ _ heq.symm

/-- `setAcceptConnID` puts the id of the channel on the socket. -/
theorem setAcceptConnID {peerAddr : QString} {connectID : Int} {rest : List UtpRequest}
    (h : AccInv addr y) (hout : y.main.outbox = .setAcceptConnID peerAddr connectID :: rest) :
    AccInv addr { main := { y.main with outbox := rest }
                  utp := y.utp.setAcceptConnID peerAddr connectID } := by
  obtain ⟨rfl, hnego, rfl⟩ : RequestOk addr (y.main.channels 0)
      (.setAcceptConnID peerAddr connectID) := h.requests _ (hout ▸ List.mem_cons_self)
  have hreqs : ∀ r ∈ rest, RequestOk peerAddr (y.main.channels 0) r := fun r hr =>
    h.requests r (hout ▸ List.mem_cons_of_mem _ hr)
  unfold UtpHandle.setAcceptConnID
  cases hl : y.utp.utpSocketsAddr.lookup peerAddr with
  | none =>
    refine { h with requests := hreqs, notified := fun ⟨s, hs⟩ => ?_ }
    dsimp only at hs
    rw [hl] at hs
    cases hs
  | some s =>
    obtain ⟨sock, hs⟩ := Option.isSome_iff_exists.mp (h.installed s hl)
    simp only [hs]
    have hself : ∀ s', y.utp.utpSocketsAddr.lookup peerAddr = some s' → s' = s := fun s' hs' =>
      (Option.some.inj (hl.symm.trans hs')).symm
    refine
      { isControl := h.isControl, byAddr := h.byAddr, registered := h.registered
        requests := hreqs, assertFailed := h.assertFailed, signals := h.signals
        socks := fun s' sock' hs' => ⟨?_, s, hl⟩
        installed := fun s' hs' => ?_
        notified := fun _ => (h.notified ⟨s, hl⟩).imp id fun ⟨hc, hn, _⟩ =>
          ⟨hc, hn, Or.inr fun s' hs' => ?_⟩ }
    · rcases update_cases hs' with ⟨rfl, heq⟩ | ⟨-, hold⟩
      · cases heq
        exact (h.socks s' sock hs).1
      · exact (h.socks s' sock' hold).1
    · rw [hself s' hs']
      simp [setSocket]
    · rw [hself s' hs']
      simp [setSocket, userdata]

/-- Every step of the accepting endpoint keeps the invariant, if the main thread takes a
`utpAccept` only after the negotiation. -/
theorem endStep {y' : System} {a : EndAction} (h : AccInv addr y)
    (hstep : y.endStep addr a = some y')
    (hnego : a = .mainSlot → ∀ peerAddr rest, y.utp.outbox = .utpAccept peerAddr :: rest →
      (y.main.channels 0).iceNego = true) : AccInv addr y' := by
  cases System.endStep_cases hstep with
  | onICENego isRelay => exact h.onICENego isRelay
  | write data => exact h.noted (Noted.write _ 0 data)
  | mainSlot sig rest hout =>
    exact h.mainSlot hout fun peerAddr heq => hnego rfl peerAddr rest (heq ▸ hout)
  | utpSlot req rest seed o o' u hout hu hreq =>
    have hok := h.requests req (hout ▸ List.mem_cons_self)
    cases req with
    | connectToPeer peerAddr connectID => exact hok.elim
    | parse peerAddr pkt => exact absurd rfl (hreq peerAddr pkt)
    | pack peerAddr buf =>
      exact (h.popRequest hout fun _ _ => by simp).step hu trivial
    | setAcceptConnID peerAddr connectID =>
      cases hu
      exact h.setAcceptConnID hout
    | close peerAddr connectID => exact hok.elim
  | processRecv peerAddr pkt rest seed o o' hout =>
    have hp : peerAddr = addr := h.requests (.parse peerAddr pkt) (hout ▸ List.mem_cons_self)
    have hrest := h.popRequest hout fun _ _ => by simp
    have hwrote := hrest.wrote (processWrite_wrote y.utp o)
    rcases utpProcessUdp_cases (y.utp.processWrite o) peerAddr pkt o' with
      heq | ⟨connid, rfl, hu⟩ | ⟨connid, s, rfl, hu⟩
    · rw [heq]
      exact hwrote
    · exact hwrote.step hu hp
    · exact hwrote.step hu trivial
  | send a s sock pkt hs hpkt =>
    -- The socket that sends is an accepted one, and its timer sends no `ST_SYN`.
    obtain ⟨hc, hacc⟩ := h.socks s sock hs
    refine h.emit ?_
    rcases hpkt with ht | ⟨bytes, rfl⟩
    · rw [timerPacket_of_isConnected hc] at ht
      cases ht
      exact hacc
    · trivial
  | read s buf u hu => exact h.step hu trivial
  | writable s o u hu => exact h.step hu trivial

end AccInv

end EChannel.LibTrans
