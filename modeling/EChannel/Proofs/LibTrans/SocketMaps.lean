import EChannel.Proofs.LibTrans.Receive

/-!
# `EChannel.Proofs.LibTrans.SocketMaps`: the socket maps hold live sockets

`UTP_STATE_DESTROYING` removes a socket from the two maps without the keys it was stored
under: the address is looked up by value, and the id is the user data of the socket, which
`setAcceptConnID` can replace. `maps_live` says when this is enough. Every address is used
with one id. Then the user data of a socket in `m_utp_sockets` never changes, and an address
is the one its socket was made for, so both removals hit, also when later sockets of the same
address have taken over the entries.
-/

set_option autoImplicit false

namespace EChannel.LibTrans

open LibUtp

namespace UtpHandle

variable {st st' : UtpHandle}

/-- The maps hold live sockets only, a socket is stored under one address, and a socket stored
under an id has it as its user data. -/
structure MapsLive (st : UtpHandle) : Prop where
  byId : ∀ n s, st.utpSockets.lookup n = some s →
    ∃ sock, st.sockets s = some sock ∧ sock.userdata = n
  byAddr : ∀ a s, st.utpSocketsAddr.lookup a = some s → ∃ sock, st.sockets s = some sock
  oneAddr : ∀ a a' s, st.utpSocketsAddr.lookup a = some s →
    st.utpSocketsAddr.lookup a' = some s → a = a'

/-- Two actions of the run that name an id for an address agree: an address has one id, and an
id has one address. -/
def SingleIds (as : List UtpAction) : Prop :=
  ∀ x ∈ as, ∀ x' ∈ as, ∀ addr addr' id id', Names x addr id → Names x' addr' id' →
    (addr = addr' ↔ id = id')

/-- The invariant, for the pairs of address and id that the run uses. -/
structure Matched (used : QString → Int → Prop) (st : UtpHandle) : Prop where
  byId : ∀ n s, st.utpSockets.lookup n = some s →
    ∃ sock, st.sockets s = some sock ∧ sock.userdata = n ∧ used sock.addr n
  byAddr : ∀ a s, st.utpSocketsAddr.lookup a = some s →
    ∃ sock, st.sockets s = some sock ∧ sock.addr = a
  fresh : ∀ s sock, st.sockets s = some sock → s < st.nextSock

namespace Matched

variable {used : QString → Int → Prop}

/-- There is no socket at first. -/
theorem init : Matched used UtpHandle.init where
  byId _ _ h := by cases h
  byAddr _ _ h := by cases h
  fresh _ _ h := by cases h

/-- More keys may be in use. -/
theorem mono (h : Matched used st) {used' : QString → Int → Prop}
    (himp : ∀ a n, used a n → used' a n) : Matched used' st where
  byId n s hl := by
    obtain ⟨sock, hs, hud, hu⟩ := h.byId n s hl
    exact ⟨sock, hs, hud, himp _ n hu⟩
  byAddr := h.byAddr
  fresh := h.fresh

/-- The invariant gives the property. -/
theorem mapsLive (h : Matched used st) : MapsLive st where
  byId n s hl := by
    obtain ⟨sock, hs, hud, -⟩ := h.byId n s hl
    exact ⟨sock, hs, hud⟩
  byAddr a s hl := by
    obtain ⟨sock, hs, -⟩ := h.byAddr a s hl
    exact ⟨sock, hs⟩
  oneAddr a a' s hl hl' := by
    obtain ⟨sock, hs, rfl⟩ := h.byAddr a s hl
    obtain ⟨sock', hs', rfl⟩ := h.byAddr a' s hl'
    cases hs.symm.trans hs'
    rfl

/-- A step that leaves the maps alone, and the address and the user data of every socket. -/
theorem same (h : Matched used st) (hid : st'.utpSockets = st.utpSockets)
    (haddr : st'.utpSocketsAddr = st.utpSocketsAddr) (hnext : st'.nextSock = st.nextSock)
    (hold : ∀ s sock', st'.sockets s = some sock' → ∃ sock, st.sockets s = some sock)
    (hkeep : ∀ s sock, st.sockets s = some sock → ∃ sock', st'.sockets s = some sock' ∧
      sock'.userdata = sock.userdata ∧ sock'.addr = sock.addr) : Matched used st' where
  byId n s hl := by
    rw [hid] at hl
    obtain ⟨sock, hs, hud, hused⟩ := h.byId n s hl
    obtain ⟨sock', hs', hud', haddr'⟩ := hkeep s sock hs
    exact ⟨sock', hs', hud'.trans hud, haddr' ▸ hused⟩
  byAddr a s hl := by
    rw [haddr] at hl
    obtain ⟨sock, hs, haddr₀⟩ := h.byAddr a s hl
    obtain ⟨sock', hs', -, haddr'⟩ := hkeep s sock hs
    exact ⟨sock', hs', haddr'.trans haddr₀⟩
  fresh s sock' hs' := by
    obtain ⟨sock, hs⟩ := hold s sock' hs'
    rw [hnext]
    exact h.fresh s sock hs

/-- One socket gets a new record with its old address and user data. -/
theorem setSocket (h : Matched used st) {s : SockId} {sock sock' : UTPSocket}
    (hs : st.sockets s = some sock) (hud : sock'.userdata = sock.userdata)
    (haddr : sock'.addr = sock.addr) : Matched used (st.setSocket s sock') := by
  refine h.same rfl rfl rfl (fun s₁ sock₁ hs₁ => ?_) fun s₁ sock₁ hs₁ => ?_
  · rcases update_cases hs₁ with ⟨rfl, -⟩ | ⟨-, hs₁⟩
    · exact ⟨sock, hs⟩
    · exact ⟨sock₁, hs₁⟩
  · by_cases heq : s₁ = s
    · subst heq
      cases hs.symm.trans hs₁
      exact ⟨sock', Function.update_self _ _ _, hud, haddr⟩
    · exact ⟨sock₁, (Function.update_of_ne heq _ _).trans hs₁, rfl, rfl⟩

/-- The fields that the invariant does not read. -/
theorem congr (h : Matched used st) (hsock : st'.sockets = st.sockets)
    (hid : st'.utpSockets = st.utpSockets) (haddr : st'.utpSocketsAddr = st.utpSocketsAddr)
    (hnext : st'.nextSock = st.nextSock) : Matched used st' := by
  refine h.same hid haddr hnext (fun s sock hs => ⟨sock, hsock ▸ hs⟩) fun s sock hs => ?_
  exact ⟨sock, hsock ▸ hs, rfl, rfl⟩

/-- The loop over the write queue keeps the invariant. -/
theorem wrote (h : Matched used st) (hw : Wrote st st') : Matched used st' := by
  refine h.same hw.utpSockets hw.utpSocketsAddr hw.nextSock (fun s sock' hs' => ?_)
    fun s sock hs => ?_
  · rcases hw.sockets s with heq | ⟨sock, hs, -⟩
    · exact ⟨sock', heq ▸ hs'⟩
    · exact ⟨sock, hs⟩
  · rcases hw.sockets s with heq | ⟨sock₀, hs₀, -, hs'⟩
    · exact ⟨sock, heq.trans hs, rfl, rfl⟩
    · cases hs.symm.trans hs₀
      exact ⟨_, hs', rfl, rfl⟩

/-- A socket of the maps is not the next one. -/
theorem ne_next (h : Matched used st) {s : SockId} {sock : UTPSocket}
    (hs : st.sockets s = some sock) : s ≠ st.nextSock := Nat.ne_of_lt (h.fresh s sock hs)

/-- The frontier after a new socket. -/
theorem fresh_next (h : Matched used st) {sock₀ : UTPSocket} (s : SockId) (sock : UTPSocket)
    (hs : Function.update st.sockets st.nextSock (some sock₀) s = some sock) :
    s < st.nextSock + 1 := by
  rcases update_cases hs with ⟨rfl, -⟩ | ⟨-, hs⟩
  · exact Nat.lt_succ_self _
  · exact Nat.lt_succ_of_lt (h.fresh s sock hs)

/-- The sockets by address after a new socket. -/
theorem byAddr_next (h : Matched used st) {sock₀ : UTPSocket} {peerAddr : QString}
    (haddr₀ : sock₀.addr = peerAddr) (a : QString) (s : SockId)
    (hl : (st.utpSocketsAddr.insert peerAddr st.nextSock).lookup a = some s) :
    ∃ sock, Function.update st.sockets st.nextSock (some sock₀) s = some sock ∧
      sock.addr = a := by
  rcases QHash.lookup_of_insert hl with ⟨rfl, rfl⟩ | ⟨-, hold⟩
  · exact ⟨sock₀, Function.update_self _ _ _, haddr₀⟩
  · obtain ⟨sock, hs, haddr⟩ := h.byAddr a s hold
    exact ⟨sock, (Function.update_of_ne (h.ne_next hs) _ _).trans hs, haddr⟩

/-- A socket that connects, with an id that is in use for its address. -/
theorem connectToPeer (h : Matched used st) {peerAddr : QString} {connectID : Int} {seed : Nat}
    (hused : used peerAddr connectID) :
    Matched used (st.connectToPeer peerAddr connectID seed) where
  byId n s hl := by
    rcases QHash.lookup_of_insert hl with ⟨rfl, rfl⟩ | ⟨-, hold⟩
    · exact ⟨_, Function.update_self _ _ _, rfl, hused⟩
    · obtain ⟨sock, hs, hud, hu⟩ := h.byId n s hold
      exact ⟨sock, (Function.update_of_ne (h.ne_next hs) _ _).trans hs, hud, hu⟩
  byAddr := h.byAddr_next rfl
  fresh := h.fresh_next

/-- A socket that is accepted has no id yet. -/
theorem accept (h : Matched used st) (peerAddr : QString) (connid : Nat) :
    Matched used (st.acceptBase peerAddr connid) where
  byId n s hl := by
    obtain ⟨sock, hs, hud, hu⟩ := h.byId n s hl
    exact ⟨sock, (Function.update_of_ne (h.ne_next hs) _ _).trans hs, hud, hu⟩
  byAddr := h.byAddr_next rfl
  fresh := h.fresh_next

/-- `setAcceptConnID` on a socket that is stored under an id does not change its user data: the
address has one id. -/
theorem setUserdata (h : Matched used st)
    (hone : ∀ a n n', used a n → used a n' → n = n') {peerAddr : QString} {connectID : Int}
    (hused : used peerAddr connectID) {s : SockId} {sock : UTPSocket}
    (hl : st.utpSocketsAddr.lookup peerAddr = some s) (hs : st.sockets s = some sock) :
    Matched used (st.setSocket s { sock with userdata := connectID }) where
  byId n s' hl' := by
    obtain ⟨sock', hs', hud, hu⟩ := h.byId n s' hl'
    by_cases heq : s' = s
    · subst heq
      cases hs.symm.trans hs'
      obtain ⟨sock₀, hs₀, haddr⟩ := h.byAddr peerAddr s' hl
      cases hs.symm.trans hs₀
      rw [haddr] at hu
      exact ⟨_, Function.update_self _ _ _, hone peerAddr _ _ hused hu, haddr ▸ hu⟩
    · exact ⟨sock', (Function.update_of_ne heq _ _).trans hs', hud, hu⟩
  byAddr a s' hl' := by
    obtain ⟨sock', hs', haddr⟩ := h.byAddr a s' hl'
    by_cases heq : s' = s
    · subst heq
      cases hs.symm.trans hs'
      exact ⟨_, Function.update_self _ _ _, haddr⟩
    · exact ⟨sock', (Function.update_of_ne heq _ _).trans hs', haddr⟩
  fresh s' sock' hs' := by
    rcases update_cases hs' with ⟨rfl, -⟩ | ⟨-, hs'⟩
    · exact h.fresh s' sock hs
    · exact h.fresh s' sock' hs'

/-- A socket that is destroyed leaves both maps. -/
theorem destroy (h : Matched used st) {s : SockId} {sock : UTPSocket}
    (hs : st.sockets s = some sock) : Matched used (st.destroyBase s sock) where
  byId n s' hl := by
    change (st.utpSockets.erase sock.userdata).lookup n = some s' at hl
    obtain ⟨sock', hs', hud, hu⟩ := h.byId n s' (QHash.lookup_of_erase hl)
    have hne : s' ≠ s := by
      rintro rfl
      cases hs.symm.trans hs'
      exact QHash.ne_of_lookup_erase hl hud.symm
    exact ⟨sock', (Function.update_of_ne hne _ _).trans hs', hud, hu⟩
  byAddr a s' hl := by
    change (st.utpSocketsAddr.erase (st.utpSocketsAddr.key s [])).lookup a = some s' at hl
    have hold := QHash.lookup_of_erase hl
    obtain ⟨sock', hs', haddr⟩ := h.byAddr a s' hold
    have hne : s' ≠ s := by
      rintro rfl
      -- The socket is stored under one address, so the search by value finds it.
      refine QHash.ne_of_lookup_erase hl (QHash.key_eq_of_unique [] hold fun a' hl' => ?_).symm
      exact h.mapsLive.oneAddr a' a s' hl' hold
    exact ⟨sock', (Function.update_of_ne hne _ _).trans hs', haddr⟩
  fresh s' sock' hs' := by
    rcases update_cases hs' with ⟨-, heq⟩ | ⟨-, hs'⟩
    · cases heq
    · exact h.fresh s' sock' hs'

/-- The part of a step before the loop over the write queue keeps the invariant. -/
theorem base {a : UtpAction} (h : Matched used st)
    (hone : ∀ a n n', used a n → used a n' → n = n')
    (hnames : ∀ addr id, Names a addr id → used addr id) (hmid : BaseStep st a st') :
    Matched used st' := by
  cases hmid with
  | connectToPeer peerAddr connectID seed hcolon hfree =>
    exact h.connectToPeer (hnames _ _ (Or.inl ⟨seed, rfl⟩))
  | setAcceptConnID peerAddr connectID =>
    exact setAcceptConnID_rule h fun s sock hl hs =>
      h.setUserdata hone (hnames _ _ (Or.inr rfl)) hl hs
  | onCloseSocket peerAddr connectID =>
    refine onCloseSocket_rule h fun s => utpClose_rule (fun _ => ?_) fun sock hs => ?_
    · exact h.congr rfl rfl rfl rfl
    · exact (h.setSocket hs sock.close_userdata sock.close_addr).congr rfl rfl rfl rfl
  | enqueue peerAddr buf o => exact h.congr rfl rfl rfl rfl
  | processLoop o => exact h
  | accept peerAddr connid o hcolon hfree => exact h.accept peerAddr connid
  | connect s sock o hs hstate =>
    have hset : Matched used (st.setSocket s { sock with state := .connected }) :=
      h.setSocket hs rfl rfl
    exact hset.congr rfl rfl rfl rfl
  | writable s sock o hs hstate => exact h.setSocket hs rfl rfl
  | read s sock buf o hs hstate => exact h.congr rfl rfl rfl rfl
  | eof s sock o hs hstate =>
    have hset : Matched used (st.setSocket s { sock with state := .destroyDelay }) :=
      h.setSocket hs rfl rfl
    exact hset.congr rfl rfl rfl rfl
  | error s sock o hs => exact h.setSocket hs sock.fail_userdata sock.fail_addr
  | expire s sock o hs hstate => exact h.setSocket hs sock.expire_userdata sock.expire_addr
  | destroying s sock o hs hstate => exact h.destroy hs
  | sendto peerAddr pkt o => exact h.congr rfl rfl rfl rfl

/-- The step lemma. -/
theorem step {a : UtpAction} (h : Matched used st)
    (hone : ∀ a n n', used a n → used a n' → n = n')
    (hnames : ∀ addr id, Names a addr id → used addr id) (hst : st.step a = some st') :
    Matched used st' := by
  obtain ⟨mid, hmid, rfl⟩ := step_base hst
  exact (h.base hone hnames hmid).wrote (endStep_wrote mid a)

end Matched

/-- In a run that uses every address with one id and every id with one address, the maps hold
live sockets only. -/
theorem maps_live (as : List UtpAction) (st : UtpHandle) (hsingle : SingleIds as)
    (hrun : run step init as = some st) : MapsLive st := by
  have hone : ∀ a n n', (∃ x ∈ as, Names x a n) → (∃ x ∈ as, Names x a n') → n = n' := by
    rintro a n n' ⟨x, hx, hname⟩ ⟨x', hx', hname'⟩
    exact (hsingle x hx x' hx' a a n n' hname hname').mp rfl
  have hall : AllSteps step
      (fun _ x => ∀ addr id, Names x addr id → ∃ x ∈ as, Names x addr id) init as :=
    allSteps_of_forall as init fun x hx _ _ hname => ⟨x, hx, hname⟩
  exact (run_invariant (fun s a t hc hst h => Matched.step h hone hc hst) as init st Matched.init
    hall hrun).mapsLive

/-- A peer with three sockets. The first one is closed, and destroyed when the third one has its
place in both maps. -/
def threeSockets : List UtpAction :=
  [.connectToPeer ['a', ':'] 2 1, .onCloseSocket ['a', ':'] 2, .event (.accept ['a', ':'] 5) [],
    .setAcceptConnID ['a', ':'] 2, .connectToPeer ['a', ':'] 2 3, .event (.expire 0) [],
    .event (.destroying 0) []]

/-- The run below gives each address one id. -/
theorem singleIds_threeSockets : SingleIds threeSockets := by
  have hnames : ∀ x ∈ threeSockets, ∀ addr id, Names x addr id → addr = ['a', ':'] ∧ id = 2 := by
    intro x hx addr id hname
    rcases hname with ⟨seed, rfl⟩ | rfl
    · have hmem : (addr = ['a', ':'] ∧ id = 2 ∧ seed = 1) ∨
          addr = ['a', ':'] ∧ id = 2 ∧ seed = 3 := by simpa [threeSockets] using hx
      rcases hmem with ⟨haddr, hid, -⟩ | ⟨haddr, hid, -⟩
      · exact ⟨haddr, hid⟩
      · exact ⟨haddr, hid⟩
    · simpa [threeSockets] using hx
  intro x hx x' hx' addr addr' id id' hname hname'
  obtain ⟨rfl, rfl⟩ := hnames x hx addr id hname
  obtain ⟨rfl, rfl⟩ := hnames x' hx' addr' id' hname'
  exact iff_of_true rfl rfl

/-- A run with three sockets. -/
theorem maps_live_threeSockets :
    ∃ st, run step init threeSockets = some st ∧ MapsLive st :=
  ⟨_, rfl, maps_live threeSockets _ singleIds_threeSockets rfl⟩

end UtpHandle

end EChannel.LibTrans
