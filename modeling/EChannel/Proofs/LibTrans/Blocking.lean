import EChannel.Proofs.LibTrans.Sockets

/-!
# `EChannel.Proofs.LibTrans.Blocking`: when a dead peer blocks the others

`processWrite` breaks off at the first pack that `write_data` does not finish. That is meant
for a socket that is full. But `m_okChannels` never shrinks: neither `callback_on_error` nor
`UTP_STATE_EOF`, `UTP_STATE_DESTROYING` or `onCloseSocket` takes the address out, so a pack
for a dead peer is not discarded, `utp_write` on its socket takes nothing for ever, and every
pack behind it waits.

`unblocked_iff` is the exact condition: along a run, every listed address keeps an open
socket and no dead peer blocks the queue, exactly when no step kills the socket of a listed
address and no step lists an address without an open socket.
-/

set_option autoImplicit false

namespace EChannel.LibTrans

open LibUtp

namespace UtpHandle

/-! ### The property -/

/-- The address has an open socket in `m_utp_sockets_addr`. -/
def HasOpen (st : UtpHandle) (a : QString) : Prop :=
  ∃ s sock, st.utpSocketsAddr.lookup a = some s ∧ st.sockets s = some sock ∧
    sock.isOpen = true

/-- The address has a live connected socket. -/
def HasLive (st : UtpHandle) (a : QString) : Prop :=
  ∃ s sock, st.utpSocketsAddr.lookup a = some s ∧ st.sockets s = some sock ∧
    sock.isConnected = true

/-- Every address in `m_okChannels` has an open socket. -/
def OkOpen (st : UtpHandle) : Prop := ∀ a ∈ st.okChannels, HasOpen st a

/-- What the next `processWrite` adds to the history. -/
def writeEvents (st : UtpHandle) (o : Oracle) : List HistEvent :=
  (st.processWrite o).hist.drop st.hist.length

/-- In the next `processWrite`, `utp_write` takes bytes at every call on an open socket. -/
def KeepsAccepting (st : UtpHandle) (o : Oracle) : Prop :=
  ∀ s p n, HistEvent.offer s p n ∈ st.writeEvents o →
    ∀ sock, st.sockets s = some sock → sock.isOpen = true → 0 < n

/-- As long as `utp_write` keeps accepting, every queued pack with bytes left for a peer with
a live connected socket is offered on that socket. -/
def Unblocked (st : UtpHandle) : Prop :=
  ∀ o, st.KeepsAccepting o → ∀ p ∈ st.writeQueue, p.pos < p.buf.length →
    HasLive st p.peerAddr → ∃ s n, st.utpSocketsAddr.lookup p.peerAddr = some s ∧
      HistEvent.offer s p n ∈ st.writeEvents o

/-! ### The condition -/

/-- The socket is the one of a listed address. -/
def Serves (st : UtpHandle) (s : SockId) : Prop :=
  ∃ a ∈ st.okChannels, st.utpSocketsAddr.lookup a = some s

/-- The socket that `onCloseSocket` closes. -/
def closedBy (st : UtpHandle) (peerAddr : QString) (connectID : Int) : Option SockId :=
  (st.utpSockets.lookup connectID).or (st.utpSocketsAddr.lookup peerAddr)

/-- The step does not close, reset or forget the socket of a listed address, and it lists no
address without an open socket. -/
def SparesListed (st : UtpHandle) : UtpAction → Prop
  | .onCloseSocket peerAddr connectID =>
    ∀ s, st.closedBy peerAddr connectID = some s → ¬ Serves st s
  | .event (.eof s) _ => ¬ Serves st s
  | .event (.error s) _ => ¬ Serves st s
  | .event (.destroying s) _ => st.utpSocketsAddr.key s [] ∉ st.okChannels
  | .event (.connect s) _ => HasOpen st (st.utpSocketsAddr.key s [])
  | _ => True

/-! ### Open sockets across a step -/

variable {st st' : UtpHandle}

/-- The writes neither open nor close a socket. -/
theorem Wrote.hasOpen_iff (h : Wrote st st') (a : QString) : HasOpen st' a ↔ HasOpen st a := by
  unfold HasOpen
  rw [h.utpSocketsAddr]
  constructor
  · rintro ⟨s, sock, hl, hs, hopen⟩
    rcases h.sockets s with heq | ⟨sock₀, hs₀, hstate, -⟩
    · exact ⟨s, sock, hl, heq ▸ hs, hopen⟩
    · exact ⟨s, sock₀, hl, hs₀, by simp [UTPSocket.isOpen, hstate]⟩
  · rintro ⟨s, sock, hl, hs, hopen⟩
    rcases h.sockets s with heq | ⟨sock₀, hs₀, hstate, hs'⟩
    · exact ⟨s, sock, hl, heq.trans hs, hopen⟩
    · exact ⟨s, _, hl, hs', rfl⟩

/-- The loop over the write queue keeps which listed addresses have an open socket. -/
theorem Wrote.okOpen_iff (h : Wrote st st') : OkOpen st' ↔ OkOpen st := by
  unfold OkOpen
  rw [h.okChannels]
  exact forall₂_congr fun a _ => h.hasOpen_iff a

/-- A listed address loses its socket when the record of the socket is replaced by one that
is not open, and only then. -/
theorem okOpen_setSocket_iff (h : OkOpen st) {s : SockId} {sock : UTPSocket}
    (hclosed : sock.isOpen = false) : OkOpen (st.setSocket s sock) ↔ ¬ Serves st s := by
  constructor
  · rintro hopen ⟨a, ha, hl⟩
    obtain ⟨s', sock', hl', hs', hopen'⟩ := hopen a ha
    cases hl.symm.trans hl'
    simp only [setSocket, Function.update_self, Option.some.injEq] at hs'
    rw [← hs', hclosed] at hopen'
    cases hopen'
  · intro hns a ha
    obtain ⟨s', sock', hl', hs', hopen'⟩ := h a ha
    have hne : s' ≠ s := fun heq => hns ⟨a, ha, heq ▸ hl'⟩
    exact ⟨s', sock', hl', (Function.update_of_ne hne _ _).trans hs', hopen'⟩

/-- A new record of a socket that is open if the old one was closes nothing. -/
theorem HasOpen.setSocket {a : QString} (h : HasOpen st a) (s : SockId) {sock : UTPSocket}
    (hopen : ∀ sock₀, st.sockets s = some sock₀ → sock₀.isOpen = true → sock.isOpen = true) :
    HasOpen (st.setSocket s sock) a := by
  obtain ⟨s', sock', hl, hs', hopen'⟩ := h
  by_cases heq : s' = s
  · subst heq
    exact ⟨s', sock, hl, Function.update_self _ _ _, hopen sock' hs' hopen'⟩
  · exact ⟨s', sock', hl, (Function.update_of_ne heq _ _).trans hs', hopen'⟩

/-- A socket that is not open serves no listed address. -/
theorem OkOpen.not_serves (h : OkOpen st) {s : SockId} {sock : UTPSocket}
    (hs : st.sockets s = some sock) (hclosed : sock.isOpen = false) : ¬ Serves st s := by
  rintro ⟨a, ha, hl⟩
  obtain ⟨s', sock', hl', hs', hopen⟩ := h a ha
  cases hl.symm.trans hl'
  cases hs.symm.trans hs'
  rw [hclosed] at hopen
  cases hopen

/-- `utp_close` spares the listed addresses exactly when the socket serves none. -/
theorem okOpen_utpClose_iff (h : OkOpen st) (s : SockId) :
    OkOpen (st.utpClose s) ↔ ¬ Serves st s := by
  unfold utpClose
  cases hs : st.sockets s with
  | some sock => exact okOpen_setSocket_iff h sock.close_isOpen
  | none =>
    -- A socket that libutp has freed is not the open socket of any listed address.
    refine ⟨fun _ ⟨a, ha, hl⟩ => ?_, fun _ => h⟩
    obtain ⟨s', sock', hl', hs', -⟩ := h a ha
    cases hl.symm.trans hl'
    rw [hs] at hs'
    cases hs'

/-- A new open socket for `a` leaves the other addresses as they are. -/
theorem HasOpen.insert {a b : QString} {sock : UTPSocket} (h : b ≠ a → HasOpen st b)
    (hopen : sock.isOpen = true) (hsock : st'.sockets
      = Function.update st.sockets st.nextSock (some sock))
    (haddr : st'.utpSocketsAddr = st.utpSocketsAddr.insert a st.nextSock) : HasOpen st' b := by
  unfold HasOpen
  rw [hsock, haddr]
  by_cases hb : b = a
  · subst hb
    exact ⟨st.nextSock, sock, AList.lookup_insert _, Function.update_self _ _ _, hopen⟩
  · obtain ⟨s', sock', hl, hs', hopen'⟩ :=
      (h hb).setSocket st.nextSock fun _ _ _ => hopen
    exact ⟨s', sock', (AList.lookup_insert_ne hb).trans hl, hs', hopen'⟩

/-- The base steps under which the listed addresses keep their sockets are those that spare
them. -/
theorem BaseStep.okOpen_iff {a : UtpAction} (h : OkOpen st) (hmid : BaseStep st a st') :
    OkOpen st' ↔ SparesListed st a := by
  cases hmid with
  | connectToPeer peerAddr connectID seed hcolon hfree =>
    exact ⟨fun _ => trivial, fun _ b hb => HasOpen.insert (fun _ => h b hb) rfl rfl rfl⟩
  | setAcceptConnID peerAddr connectID =>
    refine ⟨fun _ => trivial, fun _ => setAcceptConnID_rule h fun s sock _ hs b hb => ?_⟩
    refine (h b hb).setSocket s fun sock₀ hs₀ hopen => ?_
    cases hs.symm.trans hs₀
    exact hopen
  | onCloseSocket peerAddr connectID =>
    -- The id is looked up first, then the address.
    simp only [SparesListed, closedBy, UtpHandle.onCloseSocket]
    cases st.utpSockets.lookup connectID with
    | some s => simpa using okOpen_utpClose_iff h s
    | none =>
      cases st.utpSocketsAddr.lookup peerAddr with
      | some s => simpa using okOpen_utpClose_iff h s
      | none => simpa using h
  | enqueue peerAddr buf o => exact ⟨fun _ => trivial, fun _ => h⟩
  | processLoop o => exact ⟨fun _ => trivial, fun _ => h⟩
  | accept peerAddr connid o hcolon hfree =>
    refine ⟨fun _ => trivial, fun _ b hb => HasOpen.insert (fun hne => ?_) rfl rfl rfl⟩
    rcases List.mem_append.mp hb with hold | hnew
    · exact h b hold
    · exact absurd (List.mem_singleton.mp hnew) hne
  | connect s sock o hs hstate =>
    -- The socket was open before, and is open after it.
    have hforth : ∀ b, HasOpen st b → HasOpen (st.connectBase s sock) b := fun b hb =>
      hb.setSocket s fun _ _ _ => rfl
    constructor
    · intro hopen
      obtain ⟨s', sock', hl, hs', hopen'⟩ :=
        hopen _ (List.mem_append_right _ (List.mem_singleton_self _))
      rcases update_cases hs' with ⟨rfl, -⟩ | ⟨-, hold⟩
      · exact ⟨s', sock, hl, hs, by simp [UTPSocket.isOpen, hstate]⟩
      · exact ⟨s', sock', hl, hold, hopen'⟩
    · intro hkey b hb
      rcases List.mem_append.mp hb with hold | hnew
      · exact hforth b (h b hold)
      · rw [List.mem_singleton.mp hnew]
        exact hforth _ hkey
  | writable s sock o hs hstate =>
    exact ⟨fun _ => trivial, fun _ b hb => (h b hb).setSocket s fun _ _ _ => rfl⟩
  | read s sock buf o hs hstate => exact ⟨fun _ => trivial, fun _ => h⟩
  | eof s sock o hs hstate =>
    have hdead : ({ sock with state := .destroyDelay } : UTPSocket).isOpen = false := rfl
    exact okOpen_setSocket_iff h hdead
  | error s sock o hs => exact okOpen_setSocket_iff h sock.fail_isOpen
  | expire s sock o hs hstate =>
    -- A socket that expires was closed already, so it served no listed address.
    have hclosed : sock.isOpen = false := by
      rcases hstate with hst | hst | hst <;> simp [UTPSocket.isOpen, hst]
    exact ⟨fun _ => trivial, fun _ =>
      (okOpen_setSocket_iff h sock.expire_isOpen).mpr (h.not_serves hs hclosed)⟩
  | destroying s sock o hs hstate =>
    -- The entry of a destroyed socket goes; no listed address was served through it.
    have hns : ¬ Serves st s := h.not_serves hs (by simp [UTPSocket.isOpen, hstate])
    constructor
    · intro hopen hkey
      obtain ⟨s', sock', hl, -⟩ := hopen _ hkey
      simp [destroyBase] at hl
    · intro hkey b hb
      obtain ⟨s', sock', hl, hs', hopen⟩ := h b hb
      have hbk : b ≠ st.utpSocketsAddr.key s [] := fun heq => hkey (heq ▸ hb)
      have hne : s' ≠ s := fun heq => hns ⟨b, hb, heq ▸ hl⟩
      exact ⟨s', sock', (AList.lookup_erase_ne hbk).trans hl,
        (Function.update_of_ne hne _ _).trans hs', hopen⟩
  | sendto peerAddr pkt o => exact ⟨fun _ => trivial, fun _ => h⟩

/-- The same for whole steps: `processWrite` neither opens nor closes sockets. -/
theorem okOpen_step_iff {a : UtpAction} (h : OkOpen st) (hstep : st.step a = some st') :
    OkOpen st' ↔ SparesListed st a := by
  obtain ⟨mid, hmid, rfl⟩ := step_base hstep
  exact (endStep_wrote mid a).okOpen_iff.trans (hmid.okOpen_iff h)

/-! ### Live sockets are listed -/

/-- Every address with a live connected socket is in `m_okChannels`. This holds in every run:
both callbacks that report a connection list its address. -/
def LiveListed (st : UtpHandle) : Prop := ∀ a, HasLive st a → a ∈ st.okChannels

/-- An address that is live behind the loop over the write queue was live before it. -/
theorem Wrote.hasLive (h : Wrote st st') {a : QString} (hlive : HasLive st' a) :
    HasLive st a := by
  obtain ⟨s, sock, hl, hs, hconn⟩ := hlive
  rw [h.utpSocketsAddr] at hl
  rcases h.sockets s with heq | ⟨sock₀, hs₀, hstate, -⟩
  · exact ⟨s, sock, hl, heq ▸ hs, hconn⟩
  · exact ⟨s, sock₀, hl, hs₀, by simp [UTPSocket.isConnected, hstate]⟩

/-- A new record of a socket that is connected only if the old one was makes no address
live. -/
theorem HasLive.of_setSocket {a : QString} {s : SockId} {sock : UTPSocket}
    (hlive : HasLive (st.setSocket s sock) a)
    (hconn : sock.isConnected = true →
      ∃ sock₀, st.sockets s = some sock₀ ∧ sock₀.isConnected = true) : HasLive st a := by
  obtain ⟨s', sock', hl, hs', hconn'⟩ := hlive
  rcases update_cases hs' with ⟨rfl, heq⟩ | ⟨-, hold⟩
  · cases heq
    obtain ⟨sock₀, hs₀, hconn₀⟩ := hconn hconn'
    exact ⟨s', sock₀, hl, hs₀, hconn₀⟩
  · exact ⟨s', sock', hl, hold, hconn'⟩

/-- A socket that is closed or has failed makes no address live. -/
theorem LiveListed.setSocket_dead (h : LiveListed st) (s : SockId) {sock : UTPSocket}
    (hdead : sock.isOpen = false) : LiveListed (st.setSocket s sock) := by
  refine fun a hlive => h a (hlive.of_setSocket fun hconn => ?_)
  rw [UTPSocket.isOpen_of_isConnected hconn] at hdead
  cases hdead

/-- `utp_close` takes sockets off the list only. -/
theorem LiveListed.utpClose (h : LiveListed st) (s : SockId) : LiveListed (st.utpClose s) :=
  utpClose_rule (fun _ => h) fun sock _ => h.setSocket_dead s sock.close_isOpen

/-- The address of a new socket, or one that was live before. -/
theorem HasLive.of_insert {a b : QString} {sock : UTPSocket} (hinst : Installed st)
    (hsock : st'.sockets = Function.update st.sockets st.nextSock (some sock))
    (haddr : st'.utpSocketsAddr = st.utpSocketsAddr.insert a st.nextSock)
    (hlive : HasLive st' b) : b = a ∧ sock.isConnected = true ∨ HasLive st b := by
  obtain ⟨s, sock', hl, hs, hconn⟩ := hlive
  rw [haddr] at hl
  rw [hsock] at hs
  rcases QHash.lookup_of_insert hl with ⟨hb, rfl⟩ | ⟨-, hold⟩
  · rw [Function.update_self] at hs
    cases hs
    exact Or.inl ⟨hb, hconn⟩
  · have hne : s ≠ st.nextSock := Nat.ne_of_lt (hinst.fresh b s (hinst.current b s hold))
    exact Or.inr ⟨s, sock', hold, (Function.update_of_ne hne _ _).symm.trans hs, hconn⟩

/-- The part of a step before the loop over the write queue keeps the invariant. -/
theorem LiveListed.base {a : UtpAction} (h : LiveListed st) (hinst : Installed st)
    (hmid : BaseStep st a st') : LiveListed st' := by
  cases hmid with
  | connectToPeer peerAddr connectID seed hcolon hfree =>
    intro b hlive
    rcases hlive.of_insert hinst rfl rfl with ⟨-, hconn⟩ | hold
    · -- A socket that is connecting is not connected.
      cases hconn
    · exact h b hold
  | setAcceptConnID peerAddr connectID =>
    exact setAcceptConnID_rule h fun _ sock _ hs b hlive =>
      h b (hlive.of_setSocket fun hconn => ⟨sock, hs, hconn⟩)
  | onCloseSocket peerAddr connectID => exact onCloseSocket_rule h h.utpClose
  | enqueue peerAddr buf o => exact h
  | processLoop o => exact h
  | accept peerAddr connid o hcolon hfree =>
    intro b hlive
    rcases hlive.of_insert hinst rfl rfl with ⟨rfl, -⟩ | hold
    · exact List.mem_append_right _ (List.mem_singleton_self _)
    · exact List.mem_append_left _ (h b hold)
  | connect s sock o hs hstate =>
    rintro b ⟨s', sock', hl, hs', hconn⟩
    rcases update_cases hs' with ⟨rfl, -⟩ | ⟨-, hold⟩
    · -- The address is the only one with this socket, so it is the one that is listed.
      have hkey : st.utpSocketsAddr.key s' [] = b := QHash.key_eq_of_unique [] hl
        fun k hk => hinst.inj k b s' (hinst.current k s' hk) (hinst.current b s' hl)
      exact List.mem_append_right _ (List.mem_singleton.mpr hkey.symm)
    · exact List.mem_append_left _ (h b ⟨s', sock', hl, hold, hconn⟩)
  | writable s sock o hs hstate =>
    exact fun b hlive => h b (hlive.of_setSocket fun _ =>
      ⟨sock, hs, by simp [UTPSocket.isConnected, hstate]⟩)
  | read s sock buf o hs hstate => exact h
  | eof s sock o hs hstate =>
    have hdead : ({ sock with state := .destroyDelay } : UTPSocket).isOpen = false := rfl
    exact h.setSocket_dead s hdead
  | error s sock o hs => exact h.setSocket_dead s sock.fail_isOpen
  | expire s sock o hs hstate => exact h.setSocket_dead s sock.expire_isOpen
  | destroying s sock o hs hstate =>
    rintro b ⟨s', sock', hl, hs', hconn⟩
    rcases update_cases hs' with ⟨-, heq⟩ | ⟨-, hold⟩
    · cases heq
    · exact h b ⟨s', sock', QHash.lookup_of_erase hl, hold, hconn⟩
  | sendto peerAddr pkt o => exact h

/-- The step lemma. -/
theorem LiveListed.step {a : UtpAction} (h : LiveListed st) (hinst : Installed st)
    (hstep : st.step a = some st') : LiveListed st' := by
  obtain ⟨mid, hmid, rfl⟩ := step_base hstep
  have hw := endStep_wrote mid a
  intro b hlive
  rw [hw.okChannels]
  exact h.base hinst hmid b (hw.hasLive hlive)

/-! ### The writes go through the queue -/

/-- The write loop offers a pack that has bytes left, and when it gives up it is because the
last call took nothing. -/
theorem writeLoop_offers (s : SockId) (o : Oracle) :
    ∀ (st : UtpHandle) (pack : PackInfo), ∃ es,
      (st.writeLoop s pack o).1.hist = st.hist ++ es ∧
        (pack.pos < pack.buf.length → ∃ n, HistEvent.offer s pack n ∈ es) ∧
        ∀ pack', (st.writeLoop s pack o).2.1 = some pack' →
          HistEvent.offer s pack' 0 ∈ es := by
  -- The induction is on the answers; beyond the list a call takes nothing.
  induction o with
  | nil =>
    intro st pack
    unfold writeLoop
    by_cases hlt : pack.pos < pack.buf.length
    · have hzero : (st.utpWrite s pack ⟨0, false⟩).2 = 0 := by
        unfold utpWrite
        cases st.sockets s with
        | none => rfl
        | some sock => simp [UTPSocket.write]
      rw [if_pos hlt]
      refine ⟨[.offer s pack 0], ?_, fun _ => ⟨0, List.mem_singleton_self _⟩, fun pack' h => ?_⟩
      · rw [utpWrite_hist, hzero]
      · cases h
        exact List.mem_singleton_self _
    · rw [if_neg hlt]
      exact ⟨[], (List.append_nil _).symm, fun h => absurd h hlt, fun _ h => by cases h⟩
  | cons r o ih =>
    intro st pack
    unfold writeLoop
    by_cases hlt : pack.pos < pack.buf.length
    · have hhist := utpWrite_hist st s pack r
      rw [if_pos hlt]
      by_cases hzero : (st.utpWrite s pack r).2 = 0
      · simp only [hzero, if_true]
        rw [hzero] at hhist
        refine ⟨_, hhist, fun _ => ⟨0, List.mem_singleton_self _⟩, fun pack' h => ?_⟩
        cases h
        exact List.mem_singleton_self _
      · simp only [hzero, if_false]
        by_cases hfull : pack.pos + (st.utpWrite s pack r).2 = pack.buf.length
        · simp only [hfull, if_true]
          exact ⟨_, hhist, fun _ => ⟨_, List.mem_singleton_self _⟩, fun pack' h => by cases h⟩
        · simp only [hfull, if_false]
          obtain ⟨es, hes, -, hstop⟩ := ih (st.utpWrite s pack r).1
            { pack with pos := pack.pos + (st.utpWrite s pack r).2 }
          refine ⟨.offer s pack (st.utpWrite s pack r).2 :: es, ?_,
            fun _ => ⟨_, List.mem_cons_self⟩,
            fun pack' h => List.mem_cons_of_mem _ (hstop pack' h)⟩
          rw [hes, hhist, List.append_assoc]
          rfl
    · rw [if_neg hlt]
      exact ⟨[], (List.append_nil _).symm, fun h => absurd h hlt, fun _ h => by cases h⟩

/-- No recorded call on a socket that is open in `st` took nothing. -/
def AllTaken (st : UtpHandle) (es : List HistEvent) : Prop :=
  ∀ s p n, HistEvent.offer s p n ∈ es →
    ∀ sock, st.sockets s = some sock → sock.isOpen = true → 0 < n

/-- Fewer events, and a loop over the write queue behind them. -/
theorem AllTaken.mono {es es' : List HistEvent} (h : AllTaken st es) (hsub : es' ⊆ es)
    (hw : Wrote st st') : AllTaken st' es' := by
  intro s p n hoff sock hs hopen
  rcases hw.sockets s with heq | ⟨sock₀, hs₀, hstate, -⟩
  · exact h s p n (hsub hoff) sock (heq ▸ hs) hopen
  · exact h s p n (hsub hoff) sock₀ hs₀ (by simp [UTPSocket.isOpen, hstate])

/-- When the listed addresses have open sockets and every call takes bytes, `processWrite`
offers every queued pack of a listed peer. The induction is on the queue. -/
theorem processWriteLoop_offers :
    ∀ (q : List PackInfo) (st : UtpHandle) (o : Oracle), OkOpen st →
      ∃ es, (processWriteLoop q st o).hist = st.hist ++ es ∧ (AllTaken st es →
        ∀ p ∈ q, p.pos < p.buf.length → p.peerAddr ∈ st.okChannels →
          ∃ s n, st.utpSocketsAddr.lookup p.peerAddr = some s ∧
            HistEvent.offer s p n ∈ es) := by
  intro q
  induction q with
  | nil => exact fun st o _ => ⟨[], (List.append_nil _).symm, fun _ p hp => by cases hp⟩
  | cons pack rest ih =>
    intro st o hopen
    unfold processWriteLoop
    by_cases hok : pack.peerAddr ∈ st.okChannels
    · rw [if_pos hok]
      -- The pack at the head is for a listed address, so it has an open socket.
      obtain ⟨s, sock, hl, hs, hsock⟩ := hopen pack.peerAddr hok
      have hdata : st.writeData pack o = st.writeLoop s pack o := by
        unfold writeData
        rw [hl]
      have hwrote : Wrote st (afterWrite rest pack (st.writeLoop s pack o)) :=
        writeLoop_closed (Wrote.closed st) rest s o st pack hok hl (Wrote.withQueue st _)
      obtain ⟨es, hes, hoffer, hstop⟩ := writeLoop_offers s o st pack
      rw [hdata]
      rcases hres : st.writeLoop s pack o with ⟨mid, _ | pack', o'⟩
      · rw [hres] at hwrote hes
        have hopen' := hwrote.okOpen_iff.mpr hopen
        obtain ⟨es', hes', hrest⟩ := ih _ o' hopen'
        refine ⟨es ++ .finish pack.start :: es', ?_, fun htaken p hp hlt hp_ok => ?_⟩
        · refine hes'.trans ?_
          show (mid.hist ++ [HistEvent.finish pack.start]) ++ es' = _
          rw [show mid.hist = st.hist ++ es from hes, List.append_assoc, List.append_assoc]
          rfl
        · rcases List.mem_cons.mp hp with rfl | hmem
          · obtain ⟨n, hn⟩ := hoffer hlt
            exact ⟨s, n, hl, List.mem_append_left _ hn⟩
          · have hsub : es' ⊆ es ++ .finish pack.start :: es' := fun e he =>
              List.mem_append_right _ (List.mem_cons_of_mem _ he)
            obtain ⟨s', n, hl', hn⟩ := hrest (htaken.mono hsub hwrote) p hmem hlt
              (hwrote.okChannels ▸ hp_ok)
            exact ⟨s', n, hwrote.utpSocketsAddr ▸ hl', hsub hn⟩
      · -- The loop gave up on an open socket, against the assumption that it keeps accepting.
        rw [hres] at hes hstop
        refine ⟨es, hes, fun htaken => ?_⟩
        exact absurd (htaken s pack' 0 (hstop pack' rfl) sock hs hsock) (Nat.lt_irrefl 0)
    · rw [if_neg hok]
      obtain ⟨es, hes, hrest⟩ := ih
        ((st.withQueue rest).record (.discard pack.start st.okChannels)) o hopen
      refine ⟨.discard pack.start st.okChannels :: es, ?_, fun htaken p hp hlt hp_ok => ?_⟩
      · rw [hes]
        exact List.append_assoc _ _ _
      · rcases List.mem_cons.mp hp with rfl | hmem
        · exact absurd hp_ok hok
        · obtain ⟨s', n, hl', hn⟩ := hrest
            (fun s p n hoff => htaken s p n (List.mem_cons_of_mem _ hoff)) p hmem hlt hp_ok
          exact ⟨s', n, hl', List.mem_cons_of_mem _ hn⟩

/-- No dead peer blocks the queue when every listed address has an open socket. -/
theorem OkOpen.unblocked (h : OkOpen st) (hlisted : LiveListed st) : Unblocked st := by
  intro o hkeep p hp hlt hlive
  obtain ⟨es, hes, hoffers⟩ := processWriteLoop_offers st.writeQueue st o h
  have hevents : st.writeEvents o = es := by
    unfold writeEvents processWrite
    rw [hes, List.drop_left]
  unfold KeepsAccepting at hkeep
  rw [hevents] at hkeep ⊢
  exact hoffers hkeep p hp hlt (hlisted p.peerAddr hlive)

/-! ### The main result -/

/-- The invariant of the runs that spare the listed addresses. -/
structure Serving (st : UtpHandle) : Prop where
  okOpen : OkOpen st
  installed : Installed st
  liveListed : LiveListed st

/-- No address is listed at first. -/
theorem serving_init : Serving init where
  okOpen _ ha := by cases ha
  installed := Installed.init
  liveListed _ := fun ⟨_, _, hl, _⟩ => by cases hl

/-- The step lemma: a step that spares the listed sockets keeps the invariant. -/
theorem Serving.step {a : UtpAction} (h : Serving st) (hstep : st.step a = some st')
    (hspares : SparesListed st a) : Serving st' where
  okOpen := (okOpen_step_iff h.okOpen hstep).mpr hspares
  installed := step_rule Installed.closed hstep fun _ hmid => h.installed.base hmid
  liveListed := h.liveListed.step h.installed hstep

/-- A run keeps every listed address on an open socket and never lets a dead peer block the
queue, in any state it reaches, exactly when each of its steps spares the sockets of the
listed addresses. -/
theorem unblocked_iff (as : List UtpAction) (st : UtpHandle)
    (hrun : run step init as = some st) :
    Always step (fun st => OkOpen st ∧ Unblocked st) init as ↔
      AllSteps step SparesListed init as :=
  always_iff_allSteps (fun _ _ _ h hstep hspares => Serving.step h hstep hspares)
    (fun _ h => ⟨h.okOpen, h.okOpen.unblocked h.liveListed⟩)
    (fun _ _ _ h hstep hP => (okOpen_step_iff h.okOpen hstep).mp hP.1) as init st serving_init
    hrun

/-- Two accepted peers, neither of which is closed. -/
theorem unblocked_iff_twoPeers :
    Always step (fun st => OkOpen st ∧ Unblocked st) init
      [.event (.accept ['a', ':'] 1) [], .event (.accept ['b', ':'] 1) [],
        .save2WriteQueue ['a', ':'] [1] [],
        .save2WriteQueue ['b', ':'] [2] [⟨1, false⟩, ⟨1, false⟩]] :=
  (unblocked_iff _ _ rfl).mpr
    ⟨trivial, fun _ _ => ⟨trivial, fun _ _ => ⟨trivial, fun _ _ => ⟨trivial, fun _ _ => trivial⟩⟩⟩⟩

/-- The socket of `a` is reset. The pack for `a` stays at the head of the queue, and the pack
behind it, for the connected peer `b`, is not offered. -/
theorem not_unblocked_reset :
    ∃ st, run step init
        [.event (.accept ['a', ':'] 1) [], .event (.accept ['b', ':'] 1) [], .event (.error 0) [],
          .save2WriteQueue ['a', ':'] [1] [], .save2WriteQueue ['b', ':'] [2] []] = some st ∧
      ¬ OkOpen st ∧ ¬ Unblocked st := by
  refine ⟨_, rfl, fun hopen => ?_, fun hun => ?_⟩
  · obtain ⟨s, sock, hl, hs, hsock⟩ := hopen ['a', ':'] (List.mem_cons_self)
    cases hl
    cases hs
    cases hsock
  · -- The only call is the one on the dead socket.
    refine absurd (hun [] (fun s p n hoff sock hs hopen => ?_) ⟨['b', ':'], [2], 0, 6⟩
      (List.mem_cons_of_mem _ List.mem_cons_self) Nat.zero_lt_one
      ⟨1, UTPSocket.accepted ['b', ':'] 1, rfl, rfl, rfl⟩) ?_
    · change HistEvent.offer s p n ∈ [HistEvent.offer 0 ⟨['a', ':'], [1], 0, 4⟩ 0] at hoff
      cases List.mem_singleton.mp hoff
      cases hs
      cases hopen
    · rintro ⟨s, n, -, hoff⟩
      change HistEvent.offer s _ n ∈ [HistEvent.offer 0 ⟨['a', ':'], [1], 0, 4⟩ 0] at hoff
      cases List.mem_singleton.mp hoff

end UtpHandle

end EChannel.LibTrans
