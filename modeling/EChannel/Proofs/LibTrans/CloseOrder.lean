import EChannel.Proofs.LibTrans.ChannelKeys

/-!
# `EChannel.Proofs.LibTrans.CloseOrder`: a close request after the peer's EOF

`m_isClosing` keeps a channel from a second close request. It does not know of the callback for
`UTP_STATE_EOF`, which closes the socket as well. The socket stays in both maps until libutp
destroys it, and a close request that is handled in the meantime closes it again.

`closedOnce_iff` says that this order is all that can go wrong, in runs whose closing channels
have addresses of their own. Everything else about the two closers is shown on the way. A
channel sends one request (`Leaving.pending`). The requests of two channels lead to two sockets
(`LeftBy.not_reached`), because a request leads to a socket of the address that it carries
(`Leaving.installed`). And the peer cannot end a socket that was closed (`Shut.not_eof`).
-/

set_option autoImplicit false

namespace EChannel.LibTrans

open LibUtp UTPManager UtpHandle

/-! ### What a step keeps -/

/-- A channel that is closing stays so. -/
theorem System.step_isClosing {y y' : System} {a : SysAction} (h : y.step a = some y')
    {c : ChanId} (hcl : (y.main.channels c).isClosing = true) :
    (y'.main.channels c).isClosing = true := by
  -- The steps that write the members of a channel keep the flag, or set it.
  have hset : ∀ (m : UTPManager) (c' : ChanId) (ch : TransportChannel),
      (m.channels c).isClosing = true →
      ((m.channels c').isClosing = true → ch.isClosing = true) →
      ((m.setChannel c' ch).channels c).isClosing = true := by
    intro m c' ch hm hch
    by_cases heq : c = c'
    · subst heq
      simpa [setChannel] using hch hm
    · simpa [setChannel, Function.update_of_ne heq] using hm
  have hsuccess : ∀ (m : UTPManager) (c' : ChanId) (addr : QString),
      (m.channels c).isClosing = true →
        ((m.connectSuccess c' addr).channels c).isClosing = true := by
    intro m c' addr hm
    simp only [UTPManager.connectSuccess]
    split
    · exact hset m c' _ hm id
    · split
      · exact hset m c' _ hm id
      · exact hset m c' _ hm id
  cases System.step_cases h with
  | onICENego c' isSuccess isRelay address =>
    rcases onICENego_cases y.main c' isSuccess isRelay address with ⟨hn, rfl⟩ | hsame | ⟨-, hfail⟩
    · by_cases heq : c = c'
      · subst heq
        simpa [onICENego_channels_self hn] using hcl
      · simpa [onICENego_channels_ne hn heq] using hcl
    · rw [hsame]
      exact hcl
    · rw [hfail]
      exact hset _ c' _ hcl id
  | write c' data =>
    simp only [UTPManager.write]
    split <;> exact hset _ c' _ hcl id
  | close c' =>
    simp only [UTPManager.close]
    split
    · exact hcl
    · exact hset _ c' _ hcl fun _ => rfl
  | connectSuccess peerAddr c' hc => exact hsuccess _ c' peerAddr hcl
  | mainSlot sig rest hout =>
    generalize hm : y.main.slot sig = m'
    cases slot_cases hm with
    | utpRecv connectID buf c' hl => exact hset _ c' _ hcl id
    | utpAccept peerAddr c' hl => exact hsuccess _ c' _ hcl
    | utpConnected connectID c' hl => exact hsuccess _ c' _ hcl
    | utpError peerAddr connectID c' hl => exact hset _ c' _ hcl id
    | _ => exact hcl
  | _ => exact hcl

/-- What `m_utp_sockets` holds under an id was there before, or the step connects it. -/
theorem UtpHandle.step_utpSockets {st st' : UtpHandle} {a : UtpAction}
    (h : st.step a = some st') {n : Int} {s : SockId} (hl : st'.utpSockets.lookup n = some s) :
    st.utpSockets.lookup n = some s ∨
      ∃ addr, Names a addr n ∧ HistEvent.install addr s ∈ st'.hist := by
  obtain ⟨mid, hmid, rfl⟩ := step_base h
  have hw := endStep_wrote mid a
  obtain ⟨es, hes, -⟩ := hw.hist
  rw [hw.utpSockets] at hl
  cases hmid with
  | connectToPeer peerAddr connectID seed hcolon hfree =>
    rcases QHash.lookup_of_insert hl with ⟨rfl, rfl⟩ | ⟨-, hold⟩
    · refine Or.inr ⟨peerAddr, Or.inl ⟨seed, rfl⟩, ?_⟩
      rw [hes]
      exact List.mem_append_left _ (List.mem_append_right _ List.mem_cons_self)
    · exact Or.inl hold
  | setAcceptConnID peerAddr connectID =>
    refine Or.inl ?_
    exact setAcceptConnID_rule (P := fun u => u.utpSockets.lookup n = some s →
      st.utpSockets.lookup n = some s) id (fun _ _ _ _ => id) hl
  | onCloseSocket peerAddr connectID =>
    refine Or.inl ?_
    exact onCloseSocket_rule (P := fun u => u.utpSockets.lookup n = some s →
      st.utpSockets.lookup n = some s) id
      (fun s₀ => utpClose_rule (P := fun u => u.utpSockets.lookup n = some s →
        st.utpSockets.lookup n = some s) (fun _ => id) fun _ _ => id) hl
  | destroying s₀ sock o hs hstate => exact Or.inl (QHash.lookup_of_erase hl)
  | _ => exact Or.inl hl

namespace Traced

/-! ### The two closers -/

/-- The peer ends the connection of the socket: `UTP_STATE_EOF`. -/
def PeerEnds (s : SockId) (_ : Traced) : SysAction → Prop
  | .utpEvent (.eof s') _ => s' = s
  | _ => False

/-- A close request is handled, and its keys are those of the socket. -/
def CloseReaches (s : SockId) (t : Traced) : SysAction → Prop
  | .utpSlot _ _ => ∃ peerAddr connectID rest,
    t.sys.main.outbox = .close peerAddr connectID :: rest ∧
      t.sys.utp.closedBy peerAddr connectID = some s
  | _ => False

/-- A negotiated channel that calls `close` has an address that no negotiated channel has that
called it before. A close request that was sent without a negotiation finds no socket. -/
def ClosersApart (t : Traced) : SysAction → Prop
  | .close c =>
    (t.sys.main.channels c).isClosing = false → (t.sys.main.channels c).iceNego = true →
      ∀ c', (t.sys.main.channels c').isClosing = true →
        (t.sys.main.channels c').iceNego = true →
        (t.sys.main.channels c').peerAddress ≠ (t.sys.main.channels c).peerAddress
  | .utpSlot _ _ => ∀ peerAddr connectID rest x xs,
    t.sys.main.outbox = .close peerAddr connectID :: rest → t.closers = x :: xs →
    x.iceNego = false → t.sys.utp.closedBy peerAddr connectID = none
  | _ => True

variable {t t' : Traced} {a : SysAction} {s : SockId}

/-- The steps that close a socket are those of the two closers. -/
theorem ends_iff : t.sys.Ends s a ↔ PeerEnds s t a ∨ CloseReaches s t a := by
  constructor
  · rintro ⟨b, hb, hends⟩
    cases a with
    | utpSlot seed o =>
      simp only [System.utpPart] at hb
      split at hb
      · cases hb
      · rename_i req rest hout
        cases hb
        -- Of the requests, only `close` stands for a closing slot.
        cases req with
        | close peerAddr connectID => exact Or.inr ⟨peerAddr, connectID, rest, hout, hends⟩
        | _ => cases hends
    | utpEvent e o =>
      cases hb
      cases e with
      | eof s' => exact Or.inl hends
      | _ => cases hends
    | _ => cases hb
  · rintro (hpeer | hreq)
    · cases a with
      | utpEvent e o =>
        cases e with
        | eof s' => exact ⟨_, rfl, hpeer⟩
        | _ => cases hpeer
      | _ => cases hpeer
    · cases a with
      | utpSlot seed o =>
        obtain ⟨peerAddr, connectID, rest, hout, hcb⟩ := hreq
        exact ⟨.onCloseSocket peerAddr connectID,
          by simp [System.utpPart, System.utpAction, hout], hcb⟩
      | _ => cases hreq

/-! ### The channels that leave -/

/-- The channels of the close requests on their way are closing, and those that had negotiated
have addresses of their own. A socket is stored under the id of a channel whose address it was
made for. -/
structure Leaving (t : Traced) : Prop where
  owned : IdsOwned t.sys
  reported : Reported t.sys.utp
  retired : Retired t.sys.utp
  byId : ∀ n s, t.sys.utp.utpSockets.lookup n = some s →
    ∃ addr, Owner t.sys.main n addr ∧ HistEvent.install addr s ∈ t.sys.utp.hist
  closers : List.Forall₂ (CloserOf t.sys.main) (closeKeys t.sys.main.outbox) t.closers
  closing : ∀ x ∈ t.closers, (t.sys.main.channels x.chan).isClosing = true
  negotiated : ∀ x ∈ t.closers, x.iceNego = true →
    (t.sys.main.channels x.chan).iceNego = true
  pending : t.closers.Pairwise fun x x' => x.iceNego = true → x'.iceNego = true →
    (t.sys.main.channels x.chan).peerAddress ≠ (t.sys.main.channels x'.chan).peerAddress

/-- The close request of a channel that the socket was made for has been handled: the channel is
closing, and no request on its way comes from another channel of that address. -/
def LeftBy (s : SockId) (t : Traced) : Prop :=
  ∃ c, (t.sys.main.channels c).isClosing = true ∧ (t.sys.main.channels c).iceNego = true ∧
    HistEvent.install (t.sys.main.channels c).peerAddress s ∈ t.sys.utp.hist ∧
    ∀ x ∈ t.closers, x.iceNego = true →
      (t.sys.main.channels x.chan).peerAddress ≠ (t.sys.main.channels c).peerAddress

/-- The sender of the request at the head of the queue, which is the request of a negotiated
channel for a socket of its address. -/
theorem Leaving.installed (h : Leaving t) {seed : Nat} {o : Oracle}
    (hc : t.ClosersApart (.utpSlot seed o)) {peerAddr : QString} {connectID : Int}
    {rest : List UtpRequest}
    (hout : t.sys.main.outbox = .close peerAddr connectID :: rest)
    (hcb : t.sys.utp.closedBy peerAddr connectID = some s) :
    ∃ x xs, t.closers = x :: xs ∧ x.iceNego = true ∧
      (t.sys.main.channels x.chan).iceNego = true ∧
      HistEvent.install (t.sys.main.channels x.chan).peerAddress s ∈ t.sys.utp.hist := by
  have hall := h.closers
  rw [hout] at hall
  obtain ⟨x, xs, hx, -, hcl⟩ := List.forall₂_cons_left_iff.mp hall
  cases hxn : x.iceNego with
  | false =>
    have hnone := hc peerAddr connectID rest x xs hout hcl hxn
    cases hnone.symm.trans hcb
  | true =>
    obtain ⟨hn, hkeys⟩ := hx hxn
    cases hkeys
    refine ⟨x, xs, hcl, hxn, hn, ?_⟩
    unfold closedBy at hcb
    rcases Option.or_eq_some_iff.mp hcb with hid | ⟨-, haddr⟩
    · -- Under the id, the socket was made for the address of the owner of the id.
      obtain ⟨addr, ho, hi⟩ := h.byId _ s hid
      rwa [ho.addr_eq h.owned.registry hn rfl]
    · exact h.owned.installed.current _ s haddr

/-- What the step does to the senders: the first one leaves, the next one enters, or they stay. -/
theorem closersAfter_cases (t : Traced) (a : SysAction) :
    (∃ x, t.closers = x :: t.closersAfter a) ∨ t.closersAfter a = t.closers ∨
      ∃ c, a = .close c ∧ (t.sys.main.channels c).isClosing = false ∧
        t.closersAfter a =
          t.closers ++ [{ chan := c, iceNego := (t.sys.main.channels c).iceNego }] := by
  cases a with
  | close c =>
    cases hcl : (t.sys.main.channels c).isClosing with
    | true => exact Or.inr (Or.inl (by simp [closersAfter, hcl]))
    | false => exact Or.inr (Or.inr ⟨c, rfl, hcl, by simp [closersAfter, hcl]⟩)
  | utpSlot seed o =>
    simp only [closersAfter]
    split
    · cases hcl : t.closers with
      | nil => exact Or.inr (Or.inl rfl)
      | cons x xs => exact Or.inl ⟨x, rfl⟩
    · exact Or.inr (Or.inl rfl)
  | _ => exact Or.inr (Or.inl rfl)

/-- A negotiated channel keeps its negotiation and its address. -/
theorem step_negotiated (hreg : Registry t.sys.main) {y : System} (hst : t.sys.step a = some y)
    {c : ChanId} (hn : (t.sys.main.channels c).iceNego = true) :
    (y.main.channels c).iceNego = true ∧
      (y.main.channels c).peerAddress = (t.sys.main.channels c).peerAddress := by
  rcases System.step_kept hreg hst with hk | ⟨c', isRelay, address, -, hn', heq⟩
  · exact ⟨(hk.iceNego c).trans hn, hk.peerAddress c hn⟩
  · have hne : c ≠ c' := by
      rintro rfl
      cases hn.symm.trans hn'
    rw [heq, onICENego_channels_ne hn' hne]
    exact ⟨hn, rfl⟩

/-- The senders of the requests on their way after a step. -/
theorem Leaving.mem_closersAfter (h : Leaving t) {y : System} (hst : t.sys.step a = some y)
    {x : Closer} (hx : x ∈ t.closersAfter a) :
    (y.main.channels x.chan).isClosing = true ∧
      (x.iceNego = true → (t.sys.main.channels x.chan).iceNego = true) := by
  have hold : x ∈ t.closers → (y.main.channels x.chan).isClosing = true ∧
      (x.iceNego = true → (t.sys.main.channels x.chan).iceNego = true) := fun hmem =>
    ⟨System.step_isClosing hst (h.closing x hmem), h.negotiated x hmem⟩
  rcases t.closersAfter_cases a with ⟨x₀, hpop⟩ | hsame | ⟨c, rfl, hcl, hnew⟩
  · exact hold (hpop ▸ List.mem_cons_of_mem _ hx)
  · exact hold (hsame ▸ hx)
  · rw [hnew] at hx
    rcases List.mem_append.mp hx with hmem | hmem
    · exact hold hmem
    · cases List.mem_singleton.mp hmem
      refine ⟨?_, id⟩
      cases System.step_cases hst with
      | close c => simp [UTPManager.close, hcl, UTPManager.setChannel, UTPManager.request]

/-- The negotiated senders have addresses of their own, also with the one that enters. -/
theorem Leaving.pending_after (h : Leaving t) (hc : t.ClosersApart a) :
    (t.closersAfter a).Pairwise fun x x' => x.iceNego = true → x'.iceNego = true →
      (t.sys.main.channels x.chan).peerAddress ≠ (t.sys.main.channels x'.chan).peerAddress := by
  rcases t.closersAfter_cases a with ⟨x₀, hpop⟩ | hsame | ⟨c, rfl, hcl, hnew⟩
  · exact (List.pairwise_cons.mp (hpop ▸ h.pending)).2
  · exact hsame ▸ h.pending
  · rw [hnew]
    refine List.pairwise_append.mpr ⟨h.pending, List.pairwise_singleton _ _, ?_⟩
    intro x hx x' hx' hxn hxn'
    cases List.mem_singleton.mp hx'
    exact hc hcl hxn' x.chan (h.closing x hx) (h.negotiated x hx hxn)

/-- The step lemma. -/
theorem Leaving.step (h : Leaving t) (hc : t.ClosersApart a) (hst : t.step a = some t') :
    Leaving t' := by
  obtain ⟨hsys, hcl, -⟩ := step_some hst
  have hreg := h.owned.registry
  have hmem : ∀ x ∈ t'.closers, x ∈ t.closersAfter a := fun x hx => hcl ▸ hx
  -- The address of a sender that had negotiated stays.
  have haddr : ∀ x ∈ t'.closers, x.iceNego = true →
      (t'.sys.main.channels x.chan).peerAddress = (t.sys.main.channels x.chan).peerAddress :=
    fun x hx hxn =>
      (step_negotiated hreg hsys ((h.mem_closersAfter hsys (hmem x hx)).2 hxn)).2
  refine
    { owned := h.owned.step hsys
      reported := ?_
      retired := System.step_retired h.retired hsys
      byId := fun n s hl => ?_
      closers := ?_
      closing := fun x hx => (h.mem_closersAfter hsys (hmem x hx)).1
      negotiated := fun x hx hxn =>
        (step_negotiated hreg hsys ((h.mem_closersAfter hsys (hmem x hx)).2 hxn)).1
      pending := ?_ }
  · rcases System.step_utpPart hsys with ⟨b, -, hb⟩ | ⟨-, sigs, heq⟩
    · obtain ⟨mid, hmid, hend⟩ := step_base hb
      rw [hend]
      exact (h.reported.base hmid).wrote (endStep_wrote mid b)
    · rw [heq]
      exact h.reported.same rfl (List.append_nil _).symm (by simp) rfl
  · have hold : t.sys.utp.utpSockets.lookup n = some s →
        ∃ addr, Owner t'.sys.main n addr ∧ HistEvent.install addr s ∈ t'.sys.utp.hist := by
      intro hl
      obtain ⟨addr, ho, hi⟩ := h.byId n s hl
      exact ⟨addr, step_owner hreg hsys n addr ho, step_hist hsys hi⟩
    rcases System.step_utpPart hsys with ⟨b, hb, hstb⟩ | ⟨-, sigs, heq⟩
    · rcases step_utpSockets hstb hl with hbefore | ⟨addr, hn, hi⟩
      · exact hold hbefore
      · exact ⟨addr, step_owner hreg hsys n addr (h.owned.names hb hn), hi⟩
    · rw [heq] at hl
      exact hold hl
  · rw [hcl]
    exact (step_closers hsys h.closers).imp (step_closerOf hreg hsys)
  · refine (hcl ▸ h.pending_after hc : t'.closers.Pairwise _).imp_of_mem ?_
    intro x x' hx hx' hne hxn hxn'
    rw [haddr x hx hxn, haddr x' hx' hxn']
    exact hne hxn hxn'

/-- No socket is there at first, so none is left. -/
theorem Leaving.init (role : ChanId → Bool) (garbage : ChanId → Int) :
    Leaving (Traced.init (System.newChannels role garbage)) where
  owned := IdsOwned.init fun _ => rfl
  reported := reported_init
  retired := Retired.init
  byId _ _ hl := by cases hl
  closers := .nil
  closing _ hx := by cases hx
  negotiated _ hx := by cases hx
  pending := .nil

/-! ### Two close requests -/

/-- A request that is handled leaves the channel without another one of its address. -/
theorem Leaving.leftBy (h : Leaving t) (hc : t.ClosersApart a) (hst : t.step a = some t')
    (hreq : CloseReaches s t a) : LeftBy s t' := by
  obtain ⟨hsys, hcl, -⟩ := step_some hst
  cases a with
  | utpSlot seed o =>
    obtain ⟨peerAddr, connectID, rest, hout, hcb⟩ := hreq
    obtain ⟨x, xs, hx, hxn, hn, hi⟩ := h.installed hc hout hcb
    obtain ⟨hn', hp⟩ := step_negotiated h.owned.registry hsys hn
    have hmem : x ∈ t.closers := hx ▸ List.mem_cons_self
    have htail : t'.closers = xs := by
      rw [hcl]
      simp [closersAfter, hout, hx]
    refine ⟨x.chan, System.step_isClosing hsys (h.closing x hmem), hn', ?_, fun x' hx' hxn' => ?_⟩
    · rw [hp]
      exact step_hist hsys hi
    · have hmem' : x' ∈ xs := htail ▸ hx'
      have hold : x' ∈ t.closers := hx ▸ List.mem_cons_of_mem _ hmem'
      rw [hp, (step_negotiated h.owned.registry hsys (h.negotiated x' hold hxn')).2]
      exact ((List.pairwise_cons.mp (hx ▸ h.pending)).1 x' hmem' hxn hxn').symm
  | _ => cases hreq

/-- A channel that has left stays away: the channels that close after it have other addresses. -/
theorem LeftBy.step (hl : LeftBy s t) (h : Leaving t) (hc : t.ClosersApart a)
    (hst : t.step a = some t') : LeftBy s t' := by
  obtain ⟨c, hcls, hn, hi, hapart⟩ := hl
  obtain ⟨hsys, hcl, -⟩ := step_some hst
  have hreg := h.owned.registry
  obtain ⟨hn', hp⟩ := step_negotiated hreg hsys hn
  refine ⟨c, System.step_isClosing hsys hcls, hn', ?_, fun x hx hxn => ?_⟩
  · rw [hp]
    exact step_hist hsys hi
  · have hmem : x ∈ t.closersAfter a := hcl ▸ hx
    rw [hp, (step_negotiated hreg hsys ((h.mem_closersAfter hsys hmem).2 hxn)).2]
    rcases t.closersAfter_cases a with ⟨x₀, hpop⟩ | hsame | ⟨c', rfl, hcl', hnew⟩
    · exact hapart x (hpop ▸ List.mem_cons_of_mem _ hmem) hxn
    · exact hapart x (hsame ▸ hmem) hxn
    · rw [hnew] at hmem
      rcases List.mem_append.mp hmem with hold | hlast
      · exact hapart x hold hxn
      · cases List.mem_singleton.mp hlast
        exact (hc hcl' hxn c hcls hn).symm

/-- No later request leads to a socket of the channel. -/
theorem LeftBy.not_reached (hl : LeftBy s t) (h : Leaving t) (hc : t.ClosersApart a) :
    ¬ CloseReaches s t a := by
  intro hreq
  obtain ⟨c, -, -, hi, hapart⟩ := hl
  cases a with
  | utpSlot seed o =>
    obtain ⟨peerAddr, connectID, rest, hout, hcb⟩ := hreq
    obtain ⟨x, xs, hx, hxn, -, hi'⟩ := h.installed hc hout hcb
    -- A socket is made for one address.
    exact hapart x (hx ▸ List.mem_cons_self) hxn (h.owned.installed.inj _ _ s hi' hi)
  | _ => cases hreq

/-! ### Runs -/

/-- The counter of the calls of `utp_close` on a socket. -/
theorem step_closeCount (s : SockId) (t : Traced) (a : SysAction) (t' : Traced)
    (h : t.step a = some t') :
    (PeerEnds s t a ∨ CloseReaches s t a) ∧
        t'.sys.utp.closeCount s = t.sys.utp.closeCount s + 1 ∨
      ¬ (PeerEnds s t a ∨ CloseReaches s t a) ∧
        t'.sys.utp.closeCount s = t.sys.utp.closeCount s := by
  have := System.step_closeCount s t.sys a t'.sys (step_some h).1
  rwa [ends_iff] at this

/-- A step that ends a socket shuts it. -/
theorem Leaving.shut (h : Leaving t) (hst : t.step a = some t')
    (hends : PeerEnds s t a ∨ CloseReaches s t a) : Shut t'.sys.utp s := by
  obtain ⟨b, hb, hbends⟩ := ends_iff.mpr hends
  rcases System.step_utpPart (step_some hst).1 with ⟨b', hb', hstb⟩ | ⟨hnone, -⟩
  · cases hb.symm.trans hb'
    exact shut_of_ends h.retired h.reported.known hstb hbends
  · cases hnone.symm.trans hb

/-- A shut socket stays shut. -/
theorem step_shut (hshut : Shut t.sys.utp s) (hst : t.step a = some t') : Shut t'.sys.utp s := by
  rcases System.step_utpPart (step_some hst).1 with ⟨b, -, hb⟩ | ⟨-, sigs, heq⟩
  · exact hshut.step hb
  · rw [heq]
    exact hshut

/-- The peer does not end a shut socket. -/
theorem not_peerEnds (hshut : Shut t.sys.utp s) (hst : t.step a = some t') : ¬ PeerEnds s t a := by
  intro hpeer
  cases a with
  | utpEvent e o =>
    cases e with
    | eof s' =>
      cases hpeer
      obtain ⟨hsys, -, -⟩ := step_some hst
      generalize t'.sys = y' at hsys
      cases System.step_cases hsys with
      | utpEvent e o u hu => exact hshut.not_eof hu
    | _ => cases hpeer
  | _ => cases hpeer

/-- A run that closes no socket twice makes only allowed calls of `utp_close`. -/
theorem allSteps_closesAllowed : ∀ (as : List SysAction) (t u : Traced), t.sys.utp.Retired →
    run step t as = some u → Always step (fun t => t.sys.ClosedOnce) t as →
    AllSteps step (fun t a => t.sys.ClosesAllowed a) t as := by
  intro as
  induction as with
  | nil => exact fun _ _ _ _ _ => trivial
  | cons a as ih =>
    intro t u hret hrun hall
    obtain ⟨t', hst, hrest⟩ := run_cons hrun
    have hsys := (step_some hst).1
    have hnext : Always step (fun t => t.sys.ClosedOnce) t' as := hall.2 t' hst
    refine AllSteps.cons (fun b hb => ?_) hst
      (ih t' u (System.step_retired hret hsys) hrest hnext)
    rcases System.step_utpPart hsys with ⟨b', hb', hstb⟩ | ⟨hnone, -⟩
    · cases hb.symm.trans hb'
      exact closesAllowed_of_first hret hstb hnext.head
    · cases hnone.symm.trans hb

/-- A property of every socket holds in every state exactly when it does for each socket. -/
theorem always_closedOnce_iff : ∀ (as : List SysAction) (t : Traced),
    Always step (fun t => t.sys.ClosedOnce) t as ↔
      ∀ s, Always step (fun t => t.sys.utp.closeCount s ≤ 1) t as := by
  intro as
  induction as with
  | nil => exact fun t => Iff.rfl
  | cons a as ih =>
    intro t
    constructor
    · exact fun h s => ⟨h.1 s, fun t' hst => (ih t').mp (h.2 t' hst) s⟩
    · exact fun h => ⟨fun s => (h s).1, fun t' hst => (ih t').mpr fun s => (h s).2 t' hst⟩

/-- In runs whose closing channels have addresses of their own, `utp_close` is called on no socket
twice, and never in a state that its assertion excludes, exactly when no close request comes to a
socket after the EOF of its peer. -/
theorem closedOnce_iff (role : ChanId → Bool) (garbage : ChanId → Int) (as : List SysAction)
    (u : Traced) (hrun : run step (init (System.newChannels role garbage)) as = some u)
    (hc : AllSteps step ClosersApart (init (System.newChannels role garbage)) as) :
    Always step (fun t => t.sys.ClosedOnce) (init (System.newChannels role garbage)) as ∧
        AllSteps step (fun t a => t.sys.ClosesAllowed a)
          (init (System.newChannels role garbage)) as ↔
      ∀ s, NeverAfter step (PeerEnds s) (CloseReaches s)
        (init (System.newChannels role garbage)) as := by
  have hinit := Leaving.init role garbage
  have hstep : ∀ t a t', Leaving t → t.ClosersApart a → t.step a = some t' → Leaving t' :=
    fun _ _ _ h hc hst => h.step hc hst
  -- The three orders that cannot come up.
  have hpeer : ∀ s, NeverAfter step (fun t a => PeerEnds s t a ∨ CloseReaches s t a) (PeerEnds s)
      (init (System.newChannels role garbage)) as := fun s =>
    neverAfter_of_invariant hstep (fun _ _ _ h _ hst => h.shut hst)
      (fun _ _ _ _ _ hst hshut => step_shut hshut hst)
      (fun _ _ _ _ _ hst hshut => not_peerEnds hshut hst) as _ u hinit hc hrun
  have hreqs : ∀ s, NeverAfter step (CloseReaches s) (CloseReaches s)
      (init (System.newChannels role garbage)) as := fun s =>
    neverAfter_of_invariant hstep (fun _ _ _ h hc hst => h.leftBy hc hst)
      (fun _ _ _ h hc hst hleft => hleft.step h hc hst)
      (fun _ _ _ h hc _ hleft => hleft.not_reached h hc) as _ u hinit hc hrun
  have honce : Always step (fun t => t.sys.ClosedOnce) (init (System.newChannels role garbage)) as ↔
      ∀ s, NeverAfter step (PeerEnds s) (CloseReaches s)
        (init (System.newChannels role garbage)) as := by
    rw [always_closedOnce_iff]
    refine forall_congr' fun s => ?_
    rw [(always_le_one_iff (step_closeCount s) as _ u hrun).1 rfl]
    constructor
    · exact fun h => h.mono (fun _ _ => Or.inl) fun _ _ => Or.inr
    · exact fun h => (hpeer s).or_right (h.or_left (hreqs s))
  rw [← honce]
  exact ⟨fun h => h.1, fun h => ⟨h, allSteps_closesAllowed as _ u hinit.retired hrun h⟩⟩

/-- Two channels connect. The first one closes its socket, and the peer ends the second one. -/
theorem closedOnce_iff_twoChannels :
    Always step (fun t => t.sys.ClosedOnce) (init (System.newChannels (fun _ => true) fun _ => 0))
        [.onICENego 0 true false ['a', ':'], .onICENego 1 true false ['b', ':'], .utpSlot 1 [],
          .utpSlot 2 [], .close 0, .utpEvent (.connect 1) [], .utpSlot 0 [],
          .utpEvent (.eof 1) []] ∧
      AllSteps step (fun t a => t.sys.ClosesAllowed a)
        (init (System.newChannels (fun _ => true) fun _ => 0))
        [.onICENego 0 true false ['a', ':'], .onICENego 1 true false ['b', ':'], .utpSlot 1 [],
          .utpSlot 2 [], .close 0, .utpEvent (.connect 1) [], .utpSlot 0 [],
          .utpEvent (.eof 1) []] := by
  refine (closedOnce_iff _ _ _ _ rfl ?_).mpr fun s => ?_
  · iterate 2 refine AllSteps.cons trivial rfl ?_
    iterate 2 refine AllSteps.cons (fun _ _ _ _ _ hout => by cases hout) rfl ?_
    refine AllSteps.cons (fun _ _ c' hcl => ?_) rfl ?_
    · -- No channel is closing yet.
      intro _
      change ((((System.init (System.newChannels (fun _ => true) fun _ => 0)).main.onICENego 0 true
        false ['a', ':']).onICENego 1 true false ['b', ':']).channels c').isClosing = true at hcl
      by_cases h1 : c' = 1
      · subst h1
        cases hcl
      · rw [onICENego_channels_ne rfl h1] at hcl
        by_cases h0 : c' = 0
        · subst h0
          cases hcl
        · rw [onICENego_channels_ne rfl h0] at hcl
          cases hcl
    refine AllSteps.cons trivial rfl ?_
    refine AllSteps.cons (fun _ _ _ x xs hout hcl hx => ?_) rfl ?_
    · cases hcl
      cases hx
    exact AllSteps.cons trivial rfl trivial
  · -- The EOF is the last step.
    iterate 7 refine NeverAfter.cons rfl id ?_
    exact fun _ _ => ⟨fun _ => trivial, trivial⟩

/-- The peer ends the connection, and then the channel closes it: `utp_close` is called a second
time, in `CS_DESTROY_DELAY`. -/
theorem not_closedOnce_eof :
    ∃ y u, run System.step (System.init (System.newChannels (fun _ => true) fun _ => 0))
        [.onICENego 0 true false ['a', ':'], .utpSlot 1 [], .utpEvent (.connect 0) [],
          .utpEvent (.eof 0) [], .close 0] = some y ∧
      y.step (.utpSlot 0 []) = some u ∧ u.utp.closeCount 0 = 2 ∧
      ¬ y.ClosesAllowed (.utpSlot 0 []) := by
  refine ⟨_, _, rfl, rfl, rfl, fun h => ?_⟩
  obtain ⟨sock, hs, hcl⟩ := h _ rfl 0 rfl
  cases hs
  cases hcl

end Traced

end EChannel.LibTrans
