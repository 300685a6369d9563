import EChannel.Proofs.LibTrans.Exactness
import EChannel.Proofs.LibTrans.Registry

/-!
# `EChannel.Proofs.LibTrans.Send`: written data on its way to the socket

`TransportChannel::write` keeps the data in `m_writeBuf` until the negotiation has set
`m_peerAddress`, and from then on it sends each block to the uTP thread. `connectSuccess`
sends `m_writeBuf`. Three things go wrong between the negotiation and the connection. A block
that reaches the uTP thread before the connection is up is discarded, since its address is not
in `m_okChannels` yet. It also overtakes what is still in `m_writeBuf`. And as `m_writeBuf` is
not cleared, a second `connectSuccess` sends it again.

`Sending` is the invariant of the runs in which none of this happens: what was enqueued for
the address, what is queued for it between the threads, and what `m_writeBuf` still has to
send make up what was written, in order.
-/

set_option autoImplicit false

namespace EChannel.LibTrans

open LibUtp UTPManager UtpHandle

/-! ### Blocks between the threads -/

/-- The bytes of the queued `pack` requests for the address. -/
def inflight (a : QString) (reqs : List UtpRequest) : QByteArray :=
  reqs.flatMap fun r =>
    match r with
    | .pack a' buf => if a' = a then buf else []
    | _ => []

/-- The bytes enqueued for the address. -/
def enqueuedFor (a : QString) (h : List HistEvent) : QByteArray :=
  ((enqueued h).filter (fun p => p.peerAddr = a)).flatMap PackInfo.buf

/-- What a channel still has to send at `connectSuccess`. -/
def TransportChannel.pending (ch : TransportChannel) : QByteArray :=
  if ch.isConnected then [] else ch.writeBuf

/-- What two lists of requests have in flight for an address. -/
@[simp] theorem inflight_append (a : QString) (reqs reqs' : List UtpRequest) :
    inflight a (reqs ++ reqs') = inflight a reqs ++ inflight a reqs' := by
  simp [inflight]

/-- What was enqueued for an address in two histories in a row. -/
@[simp] theorem enqueuedFor_append (a : QString) (h h' : List HistEvent) :
    enqueuedFor a (h ++ h') = enqueuedFor a h ++ enqueuedFor a h' := by
  simp [enqueuedFor]

/-! ### The condition -/

/-- The channel on which the slot for a signal calls `connectSuccess`. -/
def UTPManager.notifiedBy (m : UTPManager) : UtpSignal → Option ChanId
  | .utpAccept peerAddr => m.hashChannels.lookup peerAddr
  | .utpConnected connectID => m.hashIDChannels.lookup connectID
  | _ => none

/-- The setting: every negotiation of `c` succeeds, with the address `a`, no other channel
gets that address, and its socket is not destroyed. -/
def Alone (c : ChanId) (a : QString) (y : System) : SysAction → Prop
  | .onICENego c' isSuccess _ address =>
    if c' = c then isSuccess = true ∧ address = a else address ≠ a
  | .utpEvent (.destroying s) _ => y.utp.utpSocketsAddr.key s [] ≠ a
  | _ => True

/-- The steps that neither lose nor reorder nor repeat data of `c`: a write between the
negotiation and the connection finds `m_writeBuf` empty, a block reaches the uTP thread once
the address is in `m_okChannels`, and `connectSuccess` is called again only with nothing in
`m_writeBuf`. -/
def InOrder (c : ChanId) (a : QString) (y : System) : SysAction → Prop
  | .write c' data => c' = c → data = [] ∨ (y.main.channels c).peerAddress = [] ∨
      (y.main.channels c).writeBuf = [] ∨ (y.main.channels c).isConnected = true
  | .utpSlot _ _ => ∀ buf, y.main.outbox.head? = some (.pack a buf) →
      buf = [] ∨ a ∈ y.utp.okChannels
  | .connectSuccess peerAddr => y.main.hashChannels.lookup peerAddr = some c →
      (y.main.channels c).isConnected = true → (y.main.channels c).writeBuf = []
  | .mainSlot => ∀ sig, y.utp.outbox.head? = some sig → y.main.notifiedBy sig = some c →
      (y.main.channels c).isConnected = true → (y.main.channels c).writeBuf = []
  | _ => True

/-! ### The main thread -/

/-- The main thread's part of the invariant for the channel `c` at the address `a`, with the
bytes `sent` that the uTP thread has got for `a`. -/
structure Pending (c : ChanId) (a : QString) (sent : QByteArray) (m : UTPManager) : Prop where
  registry : Registry m
  nego : (m.channels c).iceNego = true →
    (m.channels c).peerAddress = a ∧ m.hashChannels.lookup a = some c
  idle : (m.channels c).iceNego = false →
    (m.channels c).peerAddress = [] ∧ (m.channels c).isConnected = false
  others : ∀ c', c' ≠ c → (m.channels c').peerAddress ≠ a
  balance : sent ++ inflight a m.outbox ++ (m.channels c).pending = (m.channels c).written

namespace Pending

variable {c c' : ChanId} {a : QString} {sent : QByteArray} {m m' : UTPManager}

/-- A change that concerns neither the channel nor the address. -/
theorem frame (h : Pending c a sent m) (hreg : Registry m')
    (hlookup : m'.hashChannels.lookup a = m.hashChannels.lookup a)
    (hc : m'.channels c = m.channels c)
    (hothers : ∀ c', c' ≠ c → (m'.channels c').peerAddress ≠ a)
    (hout : inflight a m'.outbox = inflight a m.outbox) : Pending c a sent m' where
  registry := hreg
  nego hn := by
    rw [hc] at hn ⊢
    rw [hlookup]
    exact h.nego hn
  idle hn := by
    rw [hc] at hn ⊢
    exact h.idle hn
  others := hothers
  balance := by
    rw [hc, hout]
    exact h.balance

/-- A request that carries nothing for the address. -/
theorem request (h : Pending c a sent m) {r : UtpRequest} (hr : inflight a [r] = []) :
    Pending c a sent (m.request r) := by
  refine h.frame (h.registry.kept (Kept.request m r)) rfl rfl h.others ?_
  simp [UTPManager.request, hr]

/-- A change of another channel that keeps its address away from `a`. -/
theorem setOther (h : Pending c a sent m) {ch : TransportChannel} (hne : c' ≠ c)
    (hk : Kept m (m.setChannel c' ch)) (ha : ch.peerAddress ≠ a) :
    Pending c a sent (m.setChannel c' ch) := by
  refine h.frame (h.registry.kept hk) rfl (Function.update_of_ne (Ne.symm hne) _ _)
    (fun c'' hc'' => ?_) rfl
  by_cases heq : c'' = c'
  · subst heq
    simpa [UTPManager.setChannel] using ha
  · simpa [UTPManager.setChannel, Function.update_of_ne heq] using h.others c'' hc''

/-- A change of the channel itself, with the requests that go out with it. -/
theorem setSelf (h : Pending c a sent m) {ch : TransportChannel} {out : List UtpRequest}
    (hn : ch.iceNego = (m.channels c).iceNego)
    (hid : ch.utpConnectID = (m.channels c).utpConnectID)
    (hp : ch.peerAddress = (m.channels c).peerAddress)
    (hconn : (m.channels c).iceNego = false → ch.isConnected = false)
    (hbal : sent ++ inflight a out ++ ch.pending = ch.written) :
    Pending c a sent { m.setChannel c ch with outbox := out } := by
  have hself : (m.setChannel c ch).channels c = ch := Function.update_self _ _ _
  have hk : Kept m (m.setChannel c ch) := Kept.setChannel hn hid fun _ => hp
  refine
    { registry := h.registry.kept
        ⟨hk.connID, hk.hashChannels, hk.hashIDChannels, hk.iceNego, hk.utpConnectID,
          hk.peerAddress⟩
      nego := fun hn' => ?_
      idle := fun hn' => ?_
      others := fun c' hc' => ?_
      balance := ?_ }
  · change ((m.setChannel c ch).channels c).iceNego = true at hn'
    show ((m.setChannel c ch).channels c).peerAddress = a ∧ _
    rw [hself] at hn' ⊢
    rw [hp]
    exact h.nego (hn ▸ hn')
  · change ((m.setChannel c ch).channels c).iceNego = false at hn'
    show ((m.setChannel c ch).channels c).peerAddress = [] ∧
      ((m.setChannel c ch).channels c).isConnected = false
    rw [hself] at hn' ⊢
    rw [hp]
    exact ⟨(h.idle (hn ▸ hn')).1, hconn (hn ▸ hn')⟩
  · simpa [UTPManager.setChannel, Function.update_of_ne hc'] using h.others c' hc'
  · show _ ++ ((m.setChannel c ch).channels c).pending
      = ((m.setChannel c ch).channels c).written
    rw [hself]
    exact hbal

/-- A pack for another address. -/
theorem inflight_pack_ne {a' : QString} (hne : a' ≠ a) (buf : QByteArray) :
    inflight a [.pack a' buf] = [] := by
  simp [inflight, hne]

/-- A pack for the address is in flight. -/
theorem inflight_pack_self (a : QString) (buf : QByteArray) :
    inflight a [.pack a buf] = buf := by
  simp [inflight]

/-- `write`, when it cannot overtake `m_writeBuf`. -/
theorem write (h : Pending c a sent m) (ha : a ≠ []) (data : QByteArray)
    (hcond : c' = c → data = [] ∨ (m.channels c).peerAddress = [] ∨
      (m.channels c).writeBuf = [] ∨ (m.channels c).isConnected = true) :
    Pending c a sent (m.write c' data) := by
  have hbal := h.balance
  simp only [UTPManager.write]
  by_cases hc : c' = c
  · subst hc
    by_cases hp : (m.channels c').peerAddress = []
    · -- Before the negotiation the data waits in the buffer.
      have hn : (m.channels c').iceNego = false := by
        by_contra hn
        have := (h.nego (by simpa using hn)).1
        exact ha (this.symm.trans hp)
      have hconn := (h.idle hn).2
      rw [if_pos hp]
      refine h.setSelf rfl rfl rfl (fun _ => hconn) ?_
      simp only [TransportChannel.pending, hconn, Bool.false_eq_true, if_false] at hbal ⊢
      rw [← List.append_assoc, hbal]
    · -- Afterwards it is sent at once, and must not overtake what the buffer still holds.
      have hn : (m.channels c').iceNego = true := by
        by_contra hn
        exact hp (h.idle (by simpa using hn)).1
      have hpa := (h.nego hn).1
      rw [if_neg hp]
      refine h.setSelf rfl rfl rfl (fun hn' => by rw [hn] at hn'; cases hn') ?_
      show sent ++ inflight a (m.outbox ++ [.pack (m.channels c').peerAddress data]) ++
        (m.channels c').pending = (m.channels c').written ++ data
      rw [inflight_append, hpa, inflight_pack_self, ← hbal]
      -- Nothing is pending, or nothing is added.
      rcases hcond rfl with rfl | hp' | hbuf | hconn
      · simp
      · exact absurd hp' hp
      · simp [TransportChannel.pending, hbuf]
      · simp [TransportChannel.pending, hconn]
  · have hpa := h.others c' hc
    split
    · exact h.setOther hc (Kept.setChannel rfl rfl fun _ => rfl) hpa
    · refine request ?_ (inflight_pack_ne hpa data)
      exact h.setOther hc (Kept.setChannel rfl rfl fun _ => rfl) hpa

/-- `close` leaves the data that is to be sent. -/
theorem close (h : Pending c a sent m) (c' : ChanId) : Pending c a sent (m.close c') := by
  simp only [UTPManager.close]
  split
  · exact h
  · have hreq : inflight a
        [.close (m.channels c').peerAddress (m.channels c').utpConnectID] = [] := rfl
    refine request ?_ hreq
    by_cases hc : c' = c
    · subst hc
      exact h.setSelf rfl rfl rfl (fun hn => (h.idle hn).2) h.balance
    · exact h.setOther hc (Kept.setChannel rfl rfl fun _ => rfl) (h.others c' hc)

/-- `connectSuccess`, when it does not send `m_writeBuf` a second time. -/
theorem connectSuccess (h : Pending c a sent m) (ha : a ≠ []) {addr : QString}
    (hc' : c' = c ∨ addr ≠ [] → m.hashChannels.lookup addr = some c')
    (hcond : c' = c → (m.channels c).isConnected = true → (m.channels c).writeBuf = []) :
    Pending c a sent (m.connectSuccess c' addr) := by
  have hbal := h.balance
  simp only [UTPManager.connectSuccess]
  by_cases hc : c' = c
  · subst hc
    have hl := hc' (Or.inl rfl)
    obtain ⟨hn, hp⟩ := h.registry.byAddr addr c' hl
    -- The address is the key of the channel, so it is the one that the bytes are for.
    have hpa : addr = a := hp.symm.trans (h.nego hn).1
    subst hpa
    have hnn : (m.channels c').iceNego = false → False := fun hn' => by
      rw [hn] at hn'
      cases hn'
    rw [if_neg ha]
    split
    · rename_i hbuf
      change (m.channels c').writeBuf = [] at hbuf
      refine h.setSelf rfl rfl hp.symm (fun hn' => (hnn hn').elim) ?_
      rw [← hbal]
      simp [TransportChannel.pending, hbuf]
    · -- `m_writeBuf` stays as it is after it was sent, so this must be the first notification.
      rename_i hbuf
      change ¬ (m.channels c').writeBuf = [] at hbuf
      have hconn : (m.channels c').isConnected = false := by
        by_contra hconn
        exact hbuf (hcond rfl (by simpa using hconn))
      refine h.setSelf rfl rfl hp.symm (fun hn' => (hnn hn').elim) ?_
      show sent ++ inflight addr (m.outbox ++ [.pack addr (m.channels c').writeBuf]) ++ [] = _
      rw [inflight_append, inflight_pack_self, ← hbal]
      simp [TransportChannel.pending, hconn]
  · -- Another channel has another address, and its requests are not counted.
    have hpa := h.others c' hc
    split
    · exact h.setOther hc (Kept.setChannel rfl rfl fun _ => rfl) hpa
    · rename_i hne
      have hp := (h.registry.byAddr addr c' (hc' (Or.inr hne))).2
      have haddr : addr ≠ a := hp ▸ hpa
      split
      · exact h.setOther hc (Kept.setChannel rfl rfl fun _ => hp.symm) haddr
      · refine request ?_ (inflight_pack_ne haddr _)
        exact h.setOther hc (Kept.setChannel rfl rfl fun _ => hp.symm) haddr

/-- A negotiation: of the channel itself with its address, or of another one elsewhere. -/
theorem onICENego (h : Pending c a sent m) {isSuccess isRelay : Bool} {address : QString}
    (halone : if c' = c then isSuccess = true ∧ address = a else address ≠ a) :
    Pending c a sent (m.onICENego c' isSuccess isRelay address) := by
  rcases onICENego_cases m c' isSuccess isRelay address with ⟨hn, rfl⟩ | hsame | ⟨hn, hfail⟩
  · by_cases hc : c' = c
    · subst hc
      rw [if_pos rfl] at halone
      obtain ⟨-, rfl⟩ := halone
      have hself : (m.onICENego c' true isRelay address).channels c' = _ :=
        onICENego_channels_self hn
      -- The channel itself negotiates now, and its entry is made for the address.
      refine
        { registry := h.registry.nego hn
          nego := fun _ => ⟨by rw [hself], ?_⟩
          idle := fun hn' => by rw [hself] at hn'; cases hn'
          others := fun c'' hc'' => by
            rw [onICENego_channels_ne hn hc'']
            exact h.others c'' hc''
          balance := ?_ }
      · rw [onICENego_success hn]
        exact AList.lookup_insert _
      · have hout : inflight address (m.onICENego c' true isRelay address).outbox
            = inflight address m.outbox := by
          rw [onICENego_success hn]
          by_cases hctl : (m.channels c').isControl = true <;> simp [hctl, inflight]
        rw [hself, hout]
        exact h.balance
    · rw [if_neg hc] at halone
      -- Another channel takes another address, so the entry stays.
      refine h.frame (h.registry.nego hn) ?_ (onICENego_channels_ne hn (Ne.symm hc))
        (fun c'' hc'' => ?_) ?_
      · rw [onICENego_success hn]
        exact AList.lookup_insert_ne (Ne.symm halone)
      · by_cases heq : c'' = c'
        · subst heq
          rw [onICENego_channels_self hn]
          exact halone
        · rw [onICENego_channels_ne hn heq]
          exact h.others c'' hc''
      · rw [onICENego_success hn]
        by_cases hctl : (m.channels c').isControl = true <;> simp [hctl, inflight]
  · rw [hsame]
    exact h
  · rw [hfail]
    by_cases hc : c' = c
    · -- The negotiation of the channel itself does not fail.
      rw [if_pos hc] at halone
      obtain ⟨rfl, -⟩ := halone
      subst hc
      have hself := congrArg (fun m => (m.channels c').iceNego) hfail
      rw [onICENego_channels_self hn] at hself
      simp [UTPManager.setChannel] at hself
    · rw [if_neg hc] at halone
      exact h.setOther hc (Kept.negoFailed hn) halone

/-- The registrations of another address and of an id are removed. -/
theorem erase (h : Pending c a sent m) (connectID : Int) {peerAddr : QString}
    (hne : a ≠ peerAddr) :
    Pending c a sent { m with
      hashIDChannels := m.hashIDChannels.erase connectID
      hashChannels := m.hashChannels.erase peerAddr } :=
  h.frame (h.registry.kept (Kept.erase m peerAddr connectID)) (AList.lookup_erase_ne hne) rfl
    h.others rfl

/-- The slots of the main thread. -/
theorem slot (h : Pending c a sent m) (ha : a ≠ []) {sig : UtpSignal}
    (herr : ∀ id, sig ≠ .utpError a id)
    (hcond : m.notifiedBy sig = some c → (m.channels c).isConnected = true →
      (m.channels c).writeBuf = []) : Pending c a sent (m.slot sig) := by
  generalize hm : m.slot sig = m'
  cases slot_cases hm with
  | reqUDPSend peerAddr pkt c' hl => exact h.frame { h.registry with } rfl rfl h.others rfl
  | utpRecv connectID buf c' hl =>
    -- Bytes that arrive do not change what is pending.
    by_cases hc : c' = c
    · subst hc
      exact h.setSelf rfl rfl rfl (fun hn => (h.idle hn).2) h.balance
    · exact h.setOther hc (Kept.setChannel rfl rfl fun _ => rfl) (h.others c' hc)
  | utpAccept peerAddr c' hl =>
    -- The request for the id has no bytes.
    have hreq : inflight a [.setAcceptConnID peerAddr (m.channels c').utpConnectID] = [] := rfl
    refine (h.request hreq).connectSuccess ha (fun _ => hl) fun hc => ?_
    subst hc
    exact hcond hl
  | acceptFailed peerAddr hl => exact h.frame { h.registry with } rfl rfl h.others rfl
  | utpConnected connectID c' hl =>
    refine h.connectSuccess ha (fun hor => ?_) fun hc => ?_
    · -- The key of the channel is its address, which is there while the channel is registered.
      rcases m.hashChannels.key_spec c' [] with hk | ⟨hk, hnone⟩
      · exact hk
      · rcases hor with rfl | hne
        · have hn := (h.registry.byID connectID c' hl).1
          exact absurd (h.nego hn).2 (hnone a)
        · exact absurd hk hne
    · subst hc
      exact hcond hl
  | utpError peerAddr connectID c' hl =>
    -- The error is of another address, so the entry of `a` stays.
    have herase := h.erase connectID fun heq => herr connectID (heq ▸ rfl)
    by_cases hc : c' = c
    · subst hc
      exact herase.setSelf rfl rfl rfl (fun hn => (h.idle hn).2) h.balance
    · exact herase.setOther hc (Kept.setChannel rfl rfl fun _ => rfl) (h.others c' hc)
  | errorUnknown peerAddr connectID hl =>
    exact h.erase connectID fun heq => herr connectID (heq ▸ rfl)
  | dropped => exact h

end Pending

/-! ### The uTP thread -/

namespace UtpHandle

variable {st st' : UtpHandle}

/-- No data of the address has been discarded, and none is about to be. -/
structure NoLoss (a : QString) (st : UtpHandle) : Prop where
  discarded : ∀ p ∈ LibTrans.discarded st.hist, p.peerAddr = a → p.buf = []
  listed : ∀ p ∈ st.writeQueue, p.peerAddr = a → p.buf = [] ∨ a ∈ st.okChannels

/-- The loop over the write queue loses nothing. -/
theorem noLoss_closed (a : QString) : WriteClosed (NoLoss a) where
  discard st pack rest hq hok h := by
    refine ⟨fun p hp ha => ?_, fun p hp => h.listed p (hq ▸ List.mem_cons_of_mem _ hp)⟩
    have hdis : LibTrans.discarded [HistEvent.discard pack.start st.okChannels]
        = [pack.start] := rfl
    change p ∈ LibTrans.discarded (st.hist ++ [.discard pack.start st.okChannels]) at hp
    rw [discarded_append, hdis] at hp
    rcases List.mem_append.mp hp with hold | hnew
    · exact h.discarded p hold ha
    · rw [List.mem_singleton.mp hnew] at ha ⊢
      -- A pack with data is queued only for a listed address, and this one is not listed.
      have hpa : pack.peerAddr = a := ha
      exact (h.listed pack (hq ▸ List.mem_cons_self) hpa).resolve_right (hpa ▸ hok)
  offer st pack rest s r hq hok hs hlt h := by
    refine ⟨fun p hp => h.discarded p ?_, fun p hp ha => ?_⟩
    · have hdis : LibTrans.discarded [HistEvent.offer s pack (st.utpWrite s pack r).2] = [] := rfl
      simpa [withQueue, hdis] using hp
    · rcases List.mem_cons.mp hp with rfl | hrest
      · simpa [withQueue] using h.listed pack (hq ▸ List.mem_cons_self) ha
      · simpa [withQueue] using h.listed p (hq ▸ List.mem_cons_of_mem _ hrest) ha
  complete st pack rest s r hq hok hs hlt hfull h := by
    refine ⟨fun p hp => h.discarded p ?_, fun p hp ha => ?_⟩
    · have hdis : LibTrans.discarded [HistEvent.offer s pack (st.utpWrite s pack r).2,
          HistEvent.finish pack.start] = [] := rfl
      simpa [withQueue, record, emit, hdis] using hp
    · simpa [withQueue, record, emit] using h.listed p (hq ▸ List.mem_cons_of_mem _ hp) ha
  skip st pack rest s hq hok hs hge h := by
    refine ⟨fun p hp => h.discarded p ?_, fun p hp => h.listed p (hq ▸ List.mem_cons_of_mem _ hp)⟩
    have hfin : LibTrans.discarded [HistEvent.finish pack.start] = [] := rfl
    simpa [withQueue, record, hfin] using hp

/-- Data for the address is enqueued only when the address is listed. -/
def EnqueuesListed (a : QString) (st : UtpHandle) (act : UtpAction) : Prop :=
  ∀ buf o, act = .save2WriteQueue a buf o → buf = [] ∨ a ∈ st.okChannels

/-- The step lemma. -/
theorem NoLoss.step {a : QString} {act : UtpAction} (h : NoLoss a st)
    (hstep : st.step act = some st') (hcond : EnqueuesListed a st act) : NoLoss a st' := by
  refine step_rule (noLoss_closed a) hstep fun mid hmid => ?_
  rcases hmid.quiet with hq | ⟨peerAddr, buf, o, rfl, rfl⟩
  · obtain ⟨es, hes, hneutral⟩ := hq.hist
    refine ⟨fun p hp => h.discarded p ?_, fun p hp ha => ?_⟩
    · rw [hes, discarded_append, (neutral_history hneutral).2.2.1, List.append_nil] at hp
      exact hp
    · exact (h.listed p (hq.queue ▸ hp) ha).imp id fun hok => hq.ok hok
  · have hdis : LibTrans.discarded [HistEvent.enqueue ⟨peerAddr, buf, 0, st.hist.length⟩]
        = [] := rfl
    refine ⟨fun p hp => h.discarded p ?_, fun p hp ha => ?_⟩
    · simpa [UtpHandle.enqueue, record, withQueue, hdis] using hp
    · rcases List.mem_append.mp hp with hold | hnew
      · exact h.listed p hold ha
      · rw [List.mem_singleton.mp hnew] at ha ⊢
        exact hcond buf o (congrArg (fun x => UtpAction.save2WriteQueue x buf o) ha)

/-- The bytes that an action enqueues for the address. -/
def UtpAction.enqueues (a : QString) : UtpAction → QByteArray
  | .save2WriteQueue peerAddr buf _ => if peerAddr = a then buf else []
  | _ => []

/-- What a step of the uTP thread enqueues for the address. -/
theorem step_enqueuedFor {act : UtpAction} (hstep : st.step act = some st') (a : QString) :
    enqueuedFor a st'.hist = enqueuedFor a st.hist ++ act.enqueues a := by
  obtain ⟨mid, hmid, rfl⟩ := step_base hstep
  obtain ⟨es, hes, hwrite⟩ := (endStep_wrote mid act).hist
  have hnone : enqueued es = [] := by
    refine List.filterMap_eq_nil_iff.mpr fun e he => ?_
    have := hwrite e he
    cases e <;> first | rfl | cases this
  have hwrote : enqueuedFor a (mid.endStep act).hist = enqueuedFor a mid.hist := by
    rw [hes, enqueuedFor_append]
    simp [enqueuedFor, hnone]
  rw [hwrote]
  -- Of the actions only `save2WriteQueue` enqueues; the others are quiet.
  by_cases hact : ∃ peerAddr buf o, act = .save2WriteQueue peerAddr buf o
  · obtain ⟨peerAddr, buf, o, rfl⟩ := hact
    cases hmid
    show enqueuedFor a (st.hist ++ [.enqueue ⟨peerAddr, buf, 0, st.hist.length⟩]) = _
    rw [enqueuedFor_append]
    by_cases ha : peerAddr = a <;>
      simp [enqueuedFor, enqueued, HistEvent.enqueued?, UtpAction.enqueues, ha]
  · have hq : Quiet st mid := by
      refine hmid.quiet.resolve_right ?_
      rintro ⟨peerAddr, buf, o, heq, -⟩
      exact hact ⟨peerAddr, buf, o, heq⟩
    obtain ⟨es', hes', hneutral⟩ := hq.hist
    have hnil : act.enqueues a = [] := by
      cases act with
      | save2WriteQueue peerAddr buf o => exact absurd ⟨peerAddr, buf, o, rfl⟩ hact
      | _ => rfl
    rw [hes', enqueuedFor_append, hnil]
    simp [enqueuedFor, (neutral_history hneutral).1]

/-- A step reports an error for the address only when it destroys its socket. -/
theorem step_noError {act : UtpAction} {a : QString} (hstep : st.step act = some st')
    (h : ∀ id, UtpSignal.utpError a id ∉ st.outbox)
    (hkey : ∀ s o, act = .event (.destroying s) o → st.utpSocketsAddr.key s [] ≠ a) (id : Int) :
    UtpSignal.utpError a id ∉ st'.outbox := by
  obtain ⟨mid, hmid, rfl⟩ := step_base hstep
  obtain ⟨sigs, hsigs, hidle⟩ := (endStep_wrote mid act).outbox
  rw [hsigs]
  intro hmem
  -- The write loop at the end of a step only tells that a channel is idle.
  have hmid' : UtpSignal.utpError a id ∈ mid.outbox :=
    (List.mem_append.mp hmem).resolve_right fun hs => by cases hidle _ hs
  cases hmid with
  | connectToPeer peerAddr connectID seed hcolon hfree =>
    exact h id (by simpa [UtpHandle.connectToPeer, emit, record, setSocket] using hmid')
  | setAcceptConnID peerAddr connectID =>
    refine setAcceptConnID_rule (P := fun u => UtpSignal.utpError a id ∉ u.outbox) (h id) ?_ hmid'
    exact fun _ _ _ _ => h id
  | onCloseSocket peerAddr connectID =>
    refine onCloseSocket_rule (P := fun u => UtpSignal.utpError a id ∉ u.outbox) (h id) ?_ hmid'
    exact fun _ => utpClose_rule (P := fun u => UtpSignal.utpError a id ∉ u.outbox)
      (fun _ => h id) fun _ _ => h id
  | accept peerAddr connid o hcolon hfree => exact h id (by simpa [acceptBase] using hmid')
  | connect s sock o hs hstate => exact h id (by simpa [connectBase] using hmid')
  | read s sock buf o hs hstate => exact h id (by simpa [emit, record] using hmid')
  | destroying s sock o hs hstate =>
    rcases List.mem_append.mp hmid' with hold | hnew
    · exact h id hold
    · cases List.mem_singleton.mp hnew
      exact hkey s o rfl rfl
  | sendto peerAddr pkt o => exact h id (by simpa [emit] using hmid')
  | _ => exact h id hmid'

end UtpHandle

/-! ### Both threads -/

/-- The invariant of the runs in which the data of the channel stays in order. -/
structure Sending (c : ChanId) (a : QString) (y : System) : Prop where
  pending : Pending c a (enqueuedFor a y.utp.hist) y.main
  accounted : Accounted y.utp
  installed : Installed y.utp
  noLoss : NoLoss a y.utp
  noError : ∀ id, UtpSignal.utpError a id ∉ y.utp.outbox

namespace Sending

variable {c : ChanId} {a : QString} {y y' : System}

/-- A step of the main thread outside the slots. -/
theorem main (h : Sending c a y) {m' : UTPManager}
    (hm : Pending c a (enqueuedFor a y.utp.hist) m') : Sending c a { y with main := m' } :=
  ⟨hm, h.accounted, h.installed, h.noLoss, h.noError⟩

/-- A step of the uTP thread, after `pre` has left the queue of requests for it. -/
theorem utp (h : Sending c a y) {act : UtpAction} {u : UtpHandle} {m' : UTPManager}
    (hu : y.utp.step act = some u) (hlisted : EnqueuesListed a y.utp act)
    (hkey : ∀ s o, act = .event (.destroying s) o → y.utp.utpSocketsAddr.key s [] ≠ a)
    (hm : Pending c a (enqueuedFor a y.utp.hist ++ act.enqueues a) m') :
    Sending c a { main := m', utp := u } where
  pending := by
    show Pending c a (enqueuedFor a u.hist) m'
    rw [step_enqueuedFor hu a]
    exact hm
  accounted := h.accounted.step hu
  installed := step_rule Installed.closed hu fun _ hmid => h.installed.base hmid
  noLoss := h.noLoss.step hu hlisted
  noError := step_noError hu h.noError hkey

/-- The step lemma. -/
theorem step (h : Sending c a y) (ha : a ≠ []) {act : SysAction} (halone : Alone c a y act)
    (horder : InOrder c a y act) (hstep : y.step act = some y') : Sending c a y' := by
  have hp := h.pending
  cases System.step_cases hstep with
  | onICENego c' isSuccess isRelay address => exact h.main (hp.onICENego halone)
  | onICEReadPkt pkt peerAddr => exact h.main (hp.request rfl)
  | write c' data => exact h.main (hp.write ha data horder)
  | close c' => exact h.main (hp.close c')
  | connectSuccess peerAddr c' hc =>
    refine h.main (hp.connectSuccess ha (fun _ => hc) fun heq => ?_)
    subst heq
    exact horder hc
  | mainSlot sig rest hout =>
    have hrest : ∀ id, UtpSignal.utpError a id ∉ rest := fun id hmem =>
      h.noError id (hout ▸ List.mem_cons_of_mem _ hmem)
    have hsig : ∀ id, sig ≠ .utpError a id := fun id heq =>
      h.noError id (hout ▸ heq ▸ List.mem_cons_self)
    exact
      { pending := hp.slot ha hsig (horder sig (by rw [hout]; rfl))
        accounted := { h.accounted with }
        installed := { h.installed with }
        noLoss := { h.noLoss with }
        noError := hrest }
  | utpSlot req rest seed o u hout hu =>
    refine h.utp hu ?_ ?_ ?_
    · intro buf o' heq
      cases req with
      | pack peerAddr buf' =>
        cases heq
        exact horder buf (by rw [hout]; rfl)
      | _ => cases heq
    · intro s o' heq
      cases req <;> cases heq
    · have hbal := hp.balance
      rw [hout] at hbal
      -- What leaves the queue of requests is what the write queue gains.
      have henq : inflight a (req :: rest)
          = (System.utpAction req seed o).enqueues a ++ inflight a rest := by
        cases req <;> rfl
      rw [henq] at hbal
      exact
        { hp with
          registry := { hp.registry with }
          balance := by
            rw [← hbal]
            simp only [List.append_assoc] }
  | utpEvent e o u hu =>
    refine h.utp hu (fun buf o' heq => by cases heq) (fun s o' heq => ?_) ?_
    · cases heq
      exact halone
    · simpa [UtpAction.enqueues] using hp

/-- Nothing is sent at first. -/
theorem init (ha : a ≠ []) (role : ChanId → Bool) (garbage : ChanId → Int) :
    Sending c a (System.init (System.newChannels role garbage)) where
  pending :=
    { registry := Registry.init fun _ => rfl
      nego := fun hn => by cases hn
      idle := fun _ => ⟨rfl, rfl⟩
      others := fun _ _ heq => ha heq.symm
      balance := rfl }
  accounted := accounted_init
  installed := Installed.init
  noLoss :=
    { discarded := fun _ hp => by cases hp
      listed := fun _ hp => by cases hp }
  noError _ hs := by cases hs

/-- What libutp took for the address and what the queue holds for it is what was enqueued. -/
theorem takenFor_append_rest (h : Sending c a y) :
    takenFor a y.utp.hist ++
        (y.utp.writeQueue.filter (fun p => p.peerAddr = a)).flatMap PackInfo.rest
      = enqueuedFor a y.utp.hist := by
  rw [h.accounted.inv.takenFor_append_rest a, enqueuedFor]
  -- The discarded packs of the address have no bytes.
  induction enqueued y.utp.hist with
  | nil => rfl
  | cons p ps ih =>
    by_cases hpa : p.peerAddr = a
    · by_cases hdis : p ∈ discarded y.utp.hist
      · simpa [hpa, hdis, h.noLoss.discarded p hdis hpa] using ih
      · simpa [hpa, hdis] using ih
    · simpa [hpa] using ih

/-- The bytes taken so far start what was written. -/
theorem takenFor_prefix (h : Sending c a y) :
    takenFor a y.utp.hist <+: (y.main.channels c).written := by
  rw [← h.pending.balance, ← h.takenFor_append_rest, List.append_assoc, List.append_assoc]
  exact List.prefix_append _ _

/-- With nothing on its way, the bytes taken are what was written. -/
theorem takenFor_eq (h : Sending c a y) (hdrained : System.Drained y)
    (hqueue : y.utp.writeQueue = []) (hconn : (y.main.channels c).isConnected = true) :
    takenFor a y.utp.hist = (y.main.channels c).written := by
  have hbal := h.pending.balance
  rw [← h.takenFor_append_rest, hdrained.1, hqueue] at hbal
  simpa [inflight, TransportChannel.pending, hconn] using hbal

end Sending

/-! ### The main result -/

namespace System

/-- The condition on every step. -/
def SendsInOrder (c : ChanId) (a : QString) (y : System) (act : SysAction) : Prop :=
  Alone c a y act ∧ InOrder c a y act

/-- Written data. In every run in which the channel `c` has the address `a` to itself and whose
steps keep its data in order: the bytes that `utp_write` took on the only socket of `a` are a
prefix of what was written to `c`, and after `connectSuccess` they are all of it whenever the
queues between the threads and `m_writeQueue` are empty. -/
theorem taken_prefix_written (role : ChanId → Bool) (garbage : ChanId → Int) (c : ChanId)
    (a : QString) (ha : a ≠ []) (as : List SysAction) (y : System)
    (hrun : run step (init (newChannels role garbage)) as = some y)
    (hall : AllSteps step (SendsInOrder c a) (init (newChannels role garbage)) as)
    (hsole : SoleSocket a y.utp.hist) :
    takenOnSocketOf a y.utp.hist <+: (y.main.channels c).written ∧
      (Drained y → y.utp.writeQueue = [] → (y.main.channels c).isConnected = true →
        takenOnSocketOf a y.utp.hist = (y.main.channels c).written) := by
  have hinv : Sending c a y :=
    run_invariant (fun _ _ _ hcond hstep h => Sending.step h ha hcond.1 hcond.2 hstep) as _ y
      (Sending.init ha role garbage) hall hrun
  rw [hinv.installed.takenOnSocketOf_eq hsole]
  exact ⟨hinv.takenFor_prefix, hinv.takenFor_eq⟩

/-- A block written before the negotiation, which is sent at `connectSuccess`. -/
theorem taken_prefix_written_buffered :
    ∃ y, run step (init (newChannels (fun _ => true) fun _ => 0))
        [.write 0 [1], .onICENego 0 true false ['a', ':'], .utpSlot 9 [],
          .utpEvent (.connect 0) [], .mainSlot, .mainSlot, .utpSlot 0 [⟨1, false⟩],
          .mainSlot] = some y ∧
      SoleSocket ['a', ':'] y.utp.hist ∧
      takenOnSocketOf ['a', ':'] y.utp.hist = (y.main.channels 0).written := by
  have hsole : SoleSocket ['a', ':'] [.install ['a', ':'] 0, .established 0,
      .enqueue ⟨['a', ':'], [1], 0, 2⟩, .offer 0 ⟨['a', ':'], [1], 0, 2⟩ 1,
      .finish ⟨['a', ':'], [1], 0, 2⟩] := by
    intro s s' h h'
    simp only [List.mem_cons, HistEvent.install.injEq, reduceCtorEq, List.not_mem_nil,
      or_false] at h h'
    rw [h.2, h'.2]
  refine ⟨_, rfl, hsole, ?_⟩
  refine (taken_prefix_written (fun _ => true) (fun _ => 0) 0 ['a', ':'] (by decide)
    [.write 0 [1], .onICENego 0 true false ['a', ':'], .utpSlot 9 [],
      .utpEvent (.connect 0) [], .mainSlot, .mainSlot, .utpSlot 0 [⟨1, false⟩],
      .mainSlot] _ rfl ?_ hsole).2 ⟨rfl, rfl⟩ rfl rfl
  refine .cons ⟨trivial, fun _ => Or.inr (Or.inl rfl)⟩ rfl ?_
  refine .cons ⟨by simp [Alone], trivial⟩ rfl ?_
  refine .cons ⟨trivial, fun buf h => by cases h⟩ rfl ?_
  refine .cons ⟨trivial, trivial⟩ rfl ?_
  refine .cons ⟨trivial, fun _ _ _ hc => by cases hc⟩ rfl ?_
  refine .cons ⟨trivial, fun _ _ _ hc => by cases hc⟩ rfl ?_
  refine .cons ⟨trivial, fun buf _ => Or.inr List.mem_cons_self⟩ rfl ?_
  refine .cons ⟨trivial, fun sig h hn => ?_⟩ rfl trivial
  cases h
  cases hn

/-- A block written between the negotiation and the connection is discarded. -/
theorem not_taken_beforeConnect :
    ∃ y, run step (init (newChannels (fun _ => true) fun _ => 0))
        [.onICENego 0 true false ['a', ':'], .write 0 [1], .utpSlot 9 [], .utpSlot 0 [],
          .utpEvent (.connect 0) [], .mainSlot, .mainSlot] = some y ∧
      AllSteps step (Alone 0 ['a', ':']) (init (newChannels (fun _ => true) fun _ => 0))
        [.onICENego 0 true false ['a', ':'], .write 0 [1], .utpSlot 9 [], .utpSlot 0 [],
          .utpEvent (.connect 0) [], .mainSlot, .mainSlot] ∧
      Drained y ∧ y.utp.writeQueue = [] ∧ (y.main.channels 0).isConnected = true ∧
      takenOnSocketOf ['a', ':'] y.utp.hist = [] ∧ (y.main.channels 0).written = [1] := by
  refine ⟨_, rfl, ?_, ⟨rfl, rfl⟩, rfl, rfl, rfl, rfl⟩
  refine .cons (by simp [Alone]) rfl ?_
  exact .cons trivial rfl (.cons trivial rfl (.cons trivial rfl (.cons trivial rfl
    (.cons trivial rfl (.cons trivial rfl trivial)))))

end System

end EChannel.LibTrans
