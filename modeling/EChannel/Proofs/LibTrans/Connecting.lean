import EChannel.Proofs.LibTrans.Endpoint

/-!
# `EChannel.Proofs.LibTrans.Connecting`: the connecting endpoint of a session

Only a `ST_STATE` connects the connecting socket, and only an endpoint with a socket of its own
sends one. `CtlInv` follows it from the datagram through the requests, the socket and the
signals to the channel: anything connected there means that the other side has accepted.
-/

set_option autoImplicit false

namespace EChannel.LibTrans

open LibUtp

namespace CtlInv

/-- A signal that the connecting endpoint can have on its way. -/
def SignalOk (accepted : Prop) : UtpSignal → Prop
  | .utpConnected _ => accepted
  | .utpAccept _ => False
  | _ => True

/-- A request that it can have on its way. -/
def RequestOk (accepted : Prop) : UtpRequest → Prop
  | .parse _ pkt => Allowed accepted pkt
  | _ => True

end CtlInv

open CtlInv in
/-- Without an accepted socket on the other side, the connecting endpoint is not connected
and has nothing on its way that could connect it. -/
structure CtlInv (accepted : Prop) (y : System) : Prop where
  socks : ∀ s sock, y.utp.sockets s = some sock → sock.isConnected = true → accepted
  signals : ∀ sig ∈ y.utp.outbox, SignalOk accepted sig
  requests : ∀ req ∈ y.main.outbox, RequestOk accepted req
  connects : ∀ c, 0 < (y.main.channels c).connects → accepted
  assertFailed : y.main.assertFailed = false

namespace CtlInv

variable {A A' : Prop} {y : System} {m : UTPManager} {u : UtpHandle}

/-- The invariant for a condition that follows from another. -/
theorem mono (hA : A → A') (h : CtlInv A y) : CtlInv A' y where
  socks s sock hs hc := hA (h.socks s sock hs hc)
  signals sig hsig := by
    have := h.signals sig hsig
    cases sig with
    | utpConnected connectID => exact hA this
    | _ => exact this
  requests req hreq := by
    have := h.requests req hreq
    cases req with
    | parse peerAddr pkt => exact Allowed.mono hA this
    | _ => exact this
  connects c hc := hA (h.connects c hc)
  assertFailed := h.assertFailed

/-- A main thread that has queued nothing but further requests. -/
theorem withMain (h : CtlInv A y) (hreq : ∃ new, m.outbox = y.main.outbox ++ new ∧
      ∀ req ∈ new, RequestOk A req)
    (hc : ∀ c, 0 < (m.channels c).connects → A) (ha : m.assertFailed = false) :
    CtlInv A { y with main := m } := by
  obtain ⟨new, hout, hnew⟩ := hreq
  refine ⟨h.socks, h.signals, fun req hr => ?_, hc, ha⟩
  rw [hout] at hr
  exact (List.mem_append.mp hr).elim (h.requests req) (hnew req)

/-- A channel changes, and counts a connect only under the condition. -/
theorem setChannel (h : CtlInv A y) (c : ChanId) {ch : TransportChannel}
    (hch : 0 < ch.connects → A) : CtlInv A { y with main := y.main.setChannel c ch } := by
  refine h.withMain ⟨[], by simp [UTPManager.setChannel]⟩ (fun c' hc' => ?_) h.assertFailed
  by_cases heq : c' = c
  · subst heq
    simp only [UTPManager.setChannel, Function.update_self] at hc'
    exact hch hc'
  · simp only [UTPManager.setChannel, Function.update_of_ne heq] at hc'
    exact h.connects c' hc'

/-- A request that is in order is queued. -/
theorem request (h : CtlInv A y) {req : UtpRequest} (hreq : RequestOk A req) :
    CtlInv A { y with main := y.main.request req } :=
  h.withMain ⟨[req], rfl, by simpa using hreq⟩ h.connects h.assertFailed

/-- `connectSuccess` under the condition. -/
theorem connectSuccess (h : CtlInv A y) (hA : A) (c : ChanId) (a : QString) :
    CtlInv A { y with main := y.main.connectSuccess c a } := by
  simp only [UTPManager.connectSuccess]
  split
  · exact h.setChannel c fun _ => hA
  · split
    · exact h.setChannel c fun _ => hA
    · exact request (h.setChannel c fun _ => hA) trivial

/-- `write` keeps the invariant. -/
theorem write (h : CtlInv A y) (c : ChanId) (data : QByteArray) :
    CtlInv A { y with main := y.main.write c data } := by
  simp only [UTPManager.write]
  split
  · exact h.setChannel c fun hc => h.connects c hc
  · refine request (h.setChannel c ?_) trivial
    exact fun hc => h.connects c hc

/-- The negotiation of the channel requests the socket, and connects nothing. -/
theorem onICENego (h : CtlInv A y) (isRelay : Bool) (peer : QString) :
    CtlInv A { y with main := y.main.onICENego 0 true isRelay peer } := by
  cases hn : (y.main.channels 0).iceNego with
  | true => simpa [UTPManager.onICENego, hn] using h
  | false =>
    rw [UTPManager.onICENego_success hn]
    refine h.withMain ?_ (fun c hc => ?_) h.assertFailed
    · dsimp only
      split
      · exact ⟨_, rfl, by simp [RequestOk]⟩
      · exact ⟨[], by simp⟩
    · by_cases heq : c = 0
      · subst heq
        simp only [Function.update_self] at hc
        exact h.connects 0 hc
      · simp only [Function.update_of_ne heq] at hc
        exact h.connects c hc

/-- Registrations are removed. -/
theorem erase (h : CtlInv A y) (peerAddr : QString) (connectID : Int) :
    CtlInv A { y with main := { y.main with
      hashIDChannels := y.main.hashIDChannels.erase connectID
      hashChannels := y.main.hashChannels.erase peerAddr } } :=
  h.withMain ⟨[], by simp⟩ h.connects h.assertFailed

/-- A queued signal that is in order is handled. -/
theorem slot (h : CtlInv A y) {sig : UtpSignal} (hsig : SignalOk A sig) :
    CtlInv A { y with main := y.main.slot sig } := by
  generalize hm : y.main.slot sig = m'
  cases UTPManager.slot_cases hm with
  | reqUDPSend peerAddr pkt c hl => exact h.withMain ⟨[], by simp⟩ h.connects h.assertFailed
  | utpRecv connectID buf c hl => exact h.setChannel c fun hc => h.connects c hc
  | utpAccept peerAddr c hl => exact hsig.elim
  | acceptFailed peerAddr hl => exact hsig.elim
  | utpConnected connectID c hl => exact h.connectSuccess hsig c _
  | utpError peerAddr connectID c hl =>
    exact (h.erase peerAddr connectID).setChannel c fun hc => h.connects c hc
  | errorUnknown peerAddr connectID hl => exact h.erase peerAddr connectID
  | dropped => exact h

/-- The steps of the uTP thread that the connecting endpoint can make. -/
def StepOk (accepted : Prop) : UtpHandle.UtpAction → Prop
  | .event (.accept _ _) _ => False
  | .event (.connect _) _ => accepted
  | _ => True

/-- The uTP thread with another table and further signals. -/
theorem withUtp (h : CtlInv A y) (hout : ∃ new, u.outbox = y.utp.outbox ++ new ∧
      ∀ sig ∈ new, SignalOk A sig)
    (hs : ∀ s sock, u.sockets s = some sock → sock.isConnected = true → A) :
    CtlInv A { y with utp := u } := by
  obtain ⟨new, heq, hnew⟩ := hout
  refine ⟨hs, fun sig hsig => ?_, h.requests, h.connects, h.assertFailed⟩
  rw [heq] at hsig
  exact (List.mem_append.mp hsig).elim (h.signals sig) (hnew sig)

/-- A signal that is in order is emitted. -/
theorem emit (h : CtlInv A y) {sig : UtpSignal} (hsig : SignalOk A sig) :
    CtlInv A { y with utp := y.utp.emit sig } :=
  h.withUtp ⟨[sig], rfl, by simpa using hsig⟩ h.socks

/-- The table after a change of the socket `s`. -/
theorem socks_update (h : CtlInv A y) (s : SockId) {sock' : Option UTPSocket}
    (hc : ∀ sock, sock' = some sock → sock.isConnected = true → A) :
    ∀ s' sock, Function.update y.utp.sockets s sock' s' = some sock →
      sock.isConnected = true → A := by
  intro s' sock hs' hconn
  rcases update_cases hs' with ⟨-, hnew⟩ | ⟨-, hold⟩
  · exact hc sock hnew hconn
  · exact h.socks s' sock hold hconn

/-- A socket changes, and is connected only under the condition. -/
theorem setSocket (h : CtlInv A y) (s : SockId) {sock : UTPSocket}
    (hc : sock.isConnected = true → A) : CtlInv A { y with utp := y.utp.setSocket s sock } := by
  refine h.withUtp ⟨[], by simp [UtpHandle.setSocket]⟩ (h.socks_update s fun sock' heq => ?_)
  exact Option.some.inj heq ▸ hc

/-- `utp_close` keeps the invariant. -/
theorem utpClose (h : CtlInv A y) (s : SockId) :
    CtlInv A { y with utp := y.utp.utpClose s } := by
  refine UtpHandle.utpClose_rule (P := fun u => CtlInv A { y with utp := u }) (fun _ => ?_)
    fun sock hs => ?_
  · exact h.withUtp ⟨[], by simp [UtpHandle.record]⟩ h.socks
  · refine h.withUtp ⟨[], by simp [UtpHandle.record, UtpHandle.setSocket]⟩ ?_
    refine h.socks_update s fun sock' heq hconn => ?_
    cases heq
    have hopen := UTPSocket.isOpen_of_isConnected hconn
    rw [UTPSocket.close_isOpen] at hopen
    cases hopen

/-- The writes of a slot. -/
theorem wrote (h : CtlInv A y) (hw : UtpHandle.Wrote y.utp u) : CtlInv A { y with utp := u } := by
  obtain ⟨sigs, hout, hidle⟩ := hw.outbox
  refine h.withUtp ⟨sigs, hout, fun sig hsig => ?_⟩ fun s sock hs hc => ?_
  · have := hidle sig hsig
    cases sig with
    | utpIdle peerAddr => trivial
    | _ => cases this
  · rcases hw.sockets s with heq | ⟨sock₀, hs₀, hstate, -⟩
    · exact h.socks s sock (heq ▸ hs) hc
    · exact h.socks s sock₀ hs₀ (by simp [UTPSocket.isConnected, hstate])

/-- A base step connects a socket only where it may. -/
theorem base {mid : UtpHandle} {a : UtpHandle.UtpAction} (h : CtlInv A y)
    (hmid : UtpHandle.BaseStep y.utp a mid) (ha : StepOk A a) :
    CtlInv A { y with utp := mid } := by
  cases hmid with
  | connectToPeer peerAddr connectID seed hcolon hfree =>
    refine h.withUtp ⟨[.reqUDPSend peerAddr (.syn seed)], rfl, by simp [SignalOk]⟩ ?_
    refine h.socks_update _ fun sock heq hconn => ?_
    cases heq
    simp [UTPSocket.connecting, UTPSocket.isConnected] at hconn
  | setAcceptConnID peerAddr connectID =>
    exact UtpHandle.setAcceptConnID_rule (P := fun u => CtlInv A { y with utp := u }) h
      fun s sock _ hs => h.setSocket s fun hc => h.socks s sock hs hc
  | onCloseSocket peerAddr connectID =>
    exact UtpHandle.onCloseSocket_rule (P := fun u => CtlInv A { y with utp := u }) h h.utpClose
  | enqueue peerAddr buf o =>
    exact h.withUtp ⟨[], by simp [UtpHandle.enqueue, UtpHandle.record, UtpHandle.withQueue]⟩
      h.socks
  | processLoop o => exact h
  | accept peerAddr connid o hcolon hfree => exact ha.elim
  | connect s sock o hs hstate =>
    have hA : A := ha
    exact h.withUtp ⟨_, rfl, by simpa [SignalOk] using hA⟩ fun _ _ _ _ => hA
  | writable s sock o hs hstate =>
    exact h.setSocket s fun _ => h.socks s sock hs (by simp [UTPSocket.isConnected, hstate])
  | read s sock buf o hs hstate =>
    exact h.withUtp ⟨[.utpRecv sock.userdata buf], rfl, by simp [SignalOk]⟩ h.socks
  | eof s sock o hs hstate =>
    -- A socket that gets an end of stream was connected before.
    exact h.withUtp ⟨[], by simp [UtpHandle.record, UtpHandle.setSocket]⟩ fun _ _ _ _ =>
      h.socks s sock hs hstate
  | error s sock o hs =>
    refine h.setSocket s fun hconn => ?_
    have hopen := UTPSocket.isOpen_of_isConnected hconn
    rw [UTPSocket.fail_isOpen] at hopen
    cases hopen
  | expire s sock o hs hstate =>
    refine h.setSocket s fun hconn => ?_
    have hopen := UTPSocket.isOpen_of_isConnected hconn
    rw [UTPSocket.expire_isOpen] at hopen
    cases hopen
  | destroying s sock o hs hstate =>
    refine h.withUtp ⟨_, rfl, by simp [SignalOk]⟩ (h.socks_update s ?_)
    exact fun sock' heq _ => by cases heq
  | sendto peerAddr pkt o => exact h.emit trivial

/-- The step lemma for the uTP thread of the connecting end. -/
theorem step {a : UtpHandle.UtpAction} (h : CtlInv A y) (hu : y.utp.step a = some u)
    (ha : StepOk A a) : CtlInv A { y with utp := u } := by
  obtain ⟨mid, hmid, rfl⟩ := UtpHandle.step_base hu
  exact (h.base hmid ha).wrote (UtpHandle.endStep_wrote mid a)

/-- Every step of the connecting endpoint keeps the invariant. -/
theorem endStep {y' : System} {peer : QString} {a : EndAction} (h : CtlInv A y)
    (hstep : y.endStep peer a = some y') : CtlInv A y' := by
  cases System.endStep_cases hstep with
  | onICENego isRelay => exact h.onICENego isRelay peer
  | write data => exact h.write 0 data
  | mainSlot sig rest hout =>
    have hrest : CtlInv A { y with utp := { y.utp with outbox := rest } } :=
      { h with signals := fun sig' hsig' => h.signals sig' (hout ▸ List.mem_cons_of_mem _ hsig') }
    exact hrest.slot (h.signals sig (hout ▸ List.mem_cons_self))
  | utpSlot req rest seed o o' u hout hu hreq =>
    have hrest : CtlInv A { y with main := { y.main with outbox := rest } } :=
      { h with requests := fun r hr => h.requests r (hout ▸ List.mem_cons_of_mem _ hr) }
    refine hrest.step hu ?_
    cases req with
    | parse peerAddr pkt => exact absurd rfl (hreq peerAddr pkt)
    | _ => trivial
  | processRecv peerAddr pkt rest seed o o' hout =>
    have hrest : CtlInv A { y with main := { y.main with outbox := rest } } :=
      { h with requests := fun r hr => h.requests r (hout ▸ List.mem_cons_of_mem _ hr) }
    have hpkt : Allowed A pkt := h.requests (.parse peerAddr pkt) (hout ▸ List.mem_cons_self)
    have hwrote := hrest.wrote (UtpHandle.processWrite_wrote y.utp o)
    -- A `ST_SYN` is not sent to this side, and a `ST_STATE` only after the other has accepted.
    rcases UtpHandle.utpProcessUdp_cases (y.utp.processWrite o) peerAddr pkt o' with
      heq | ⟨connid, rfl, hu⟩ | ⟨connid, s, rfl, hu⟩
    · rw [heq]
      exact hwrote
    · exact hpkt.elim
    · exact hwrote.step hu hpkt
  | send a s sock pkt hs hpkt => exact h.emit trivial
  | read s buf u hu => exact h.step hu trivial
  | writable s o u hu => exact h.step hu trivial

end CtlInv

end EChannel.LibTrans
