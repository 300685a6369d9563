import EChannel.Proofs.LibTrans.Blocking
import EChannel.Proofs.LibTrans.Registry

/-!
# `EChannel.Proofs.LibTrans.Closing`: how often a uTP socket is closed

Two places call `utp_close`. The callback of the uTP thread does when the peer has sent its
`ST_FIN` (`UTP_STATE_EOF`), and `onCloseSocket` does for the close request of a channel. The
flag `m_isClosing` of a channel keeps it from a second request, but it knows nothing of the
callback, and a closed socket stays in both maps until libutp destroys it. So a close request
can reach a socket that an EOF, or the request of another channel, has closed before.

This module is about single steps. `step_closeCount` says which steps call `utp_close`,
`Retired` which sockets were closed, and `Shut` that a closed socket does not come back.
-/

set_option autoImplicit false

namespace EChannel.LibTrans

open LibUtp

/-- Events that are no calls of `utp_close`. -/
def HistEvent.notClose (e : HistEvent) : Prop := ∀ s, e ≠ .close s

namespace UtpHandle

variable {st st' : UtpHandle} {a : UtpAction}

/-- The action is the EOF of the socket, or a close request that leads to it. -/
def Ends (st : UtpHandle) (s : SockId) : UtpAction → Prop
  | .event (.eof s') _ => s' = s
  | .onCloseSocket peerAddr connectID => st.closedBy peerAddr connectID = some s
  | _ => False

/-- `utp_close` is called on a socket that is there, in a state that its assertion lets
through. Before the EOF is reported, libutp has set `CS_GOT_FIN`. -/
def ClosesAllowed (st : UtpHandle) : UtpAction → Prop
  | .event (.eof _) _ => ConnState.gotFin.closable = true
  | .onCloseSocket peerAddr connectID => ∀ s, st.closedBy peerAddr connectID = some s →
    ∃ sock, st.sockets s = some sock ∧ sock.state.closable = true
  | _ => True

/-- How often `utp_close` was called on the socket. -/
def closeCount (st : UtpHandle) (s : SockId) : Nat := st.hist.count (.close s)

/-! ### One step -/

/-- `onCloseSocket` closes the socket it finds. -/
theorem onCloseSocket_eq (st : UtpHandle) (peerAddr : QString) (connectID : Int) :
    st.onCloseSocket peerAddr connectID =
      match st.closedBy peerAddr connectID with
      | some s => st.utpClose s
      | none => st := by
  unfold onCloseSocket closedBy
  cases st.utpSockets.lookup connectID with
  | some s => rfl
  | none =>
    cases st.utpSocketsAddr.lookup peerAddr with
    | some s => rfl
    | none => rfl

/-- `utp_close` is recorded. -/
theorem utpClose_hist (st : UtpHandle) (s : SockId) :
    (st.utpClose s).hist = st.hist ++ [.close s] := by
  unfold utpClose
  split <;> rfl

/-- Events other than a close do not count. -/
theorem closeCount_append {es : List HistEvent} (hhist : st'.hist = st.hist ++ es)
    (hes : ∀ e ∈ es, HistEvent.notClose e) (s : SockId) : st'.closeCount s = st.closeCount s := by
  unfold closeCount
  rw [hhist, List.count_append, List.count_eq_zero.mpr fun hmem => hes _ hmem s rfl]
  rfl

/-- One more call of `utp_close`. -/
theorem closeCount_close {s₀ : SockId} (hhist : st'.hist = st.hist ++ [.close s₀]) (s : SockId) :
    st'.closeCount s = if s₀ = s then st.closeCount s + 1 else st.closeCount s := by
  unfold closeCount
  rw [hhist, List.count_append, List.count_singleton]
  split <;> simp_all

/-- The calls of `utp_close` in a base step are those of the two closers. -/
theorem BaseStep.closeCount (h : BaseStep st a st') (s : SockId) :
    st.Ends s a ∧ st'.closeCount s = st.closeCount s + 1 ∨
      ¬ st.Ends s a ∧ st'.closeCount s = st.closeCount s := by
  -- A step that closes nothing.
  have hquiet : ∀ es, ¬ st.Ends s a → st'.hist = st.hist ++ es →
      (∀ e ∈ es, HistEvent.notClose e) →
      st.Ends s a ∧ st'.closeCount s = st.closeCount s + 1 ∨
        ¬ st.Ends s a ∧ st'.closeCount s = st.closeCount s :=
    fun es hno hhist hes => Or.inr ⟨hno, closeCount_append hhist hes s⟩
  cases h with
  | connectToPeer peerAddr connectID seed hcolon hfree =>
    exact hquiet [_] id rfl (by simp [HistEvent.notClose])
  | setAcceptConnID peerAddr connectID =>
    refine Or.inr ⟨id, ?_⟩
    exact setAcceptConnID_rule (P := fun u => u.closeCount s = st.closeCount s) rfl
      fun _ _ _ _ => rfl
  | onCloseSocket peerAddr connectID =>
    rw [onCloseSocket_eq]
    cases hcb : st.closedBy peerAddr connectID with
    | none =>
      refine Or.inr ⟨fun hends => ?_, rfl⟩
      cases hcb.symm.trans hends
    | some s₀ =>
      have hcount := closeCount_close (st.utpClose_hist s₀) s
      by_cases heq : s₀ = s
      · rw [if_pos heq] at hcount
        exact Or.inl ⟨hcb.trans (congrArg some heq), hcount⟩
      · rw [if_neg heq] at hcount
        exact Or.inr ⟨fun hends => heq (Option.some.inj (hcb.symm.trans hends)), hcount⟩
  | enqueue peerAddr buf o => exact hquiet [_] id rfl (by simp [HistEvent.notClose])
  | processLoop o => exact hquiet [] id (List.append_nil _).symm (by simp)
  | accept peerAddr connid o hcolon hfree =>
    exact hquiet [_, _] id rfl (by simp [HistEvent.notClose])
  | connect s₀ sock o hs hstate => exact hquiet [_] id rfl (by simp [HistEvent.notClose])
  | writable s₀ sock o hs hstate => exact hquiet [] id (List.append_nil _).symm (by simp)
  | read s₀ sock buf o hs hstate => exact hquiet [_] id rfl (by simp [HistEvent.notClose])
  | eof s₀ sock o hs hstate =>
    have hhist : ((st.setSocket s₀ { sock with state := .destroyDelay }).record (.close s₀)).hist =
        st.hist ++ [.close s₀] := rfl
    have hcount := closeCount_close hhist s
    by_cases heq : s₀ = s
    · rw [if_pos heq] at hcount
      exact Or.inl ⟨heq, hcount⟩
    · rw [if_neg heq] at hcount
      exact Or.inr ⟨heq, hcount⟩
  | error s₀ sock o hs => exact hquiet [] id (List.append_nil _).symm (by simp)
  | expire s₀ sock o hs hstate => exact hquiet [] id (List.append_nil _).symm (by simp)
  | destroying s₀ sock o hs hstate => exact hquiet [_] id rfl (by simp [HistEvent.notClose])
  | sendto peerAddr pkt o => exact hquiet [] id (List.append_nil _).symm (by simp)

/-- A step closes a socket once if it ends it, and not at all otherwise. -/
theorem step_closeCount (h : st.step a = some st') (s : SockId) :
    st.Ends s a ∧ st'.closeCount s = st.closeCount s + 1 ∨
      ¬ st.Ends s a ∧ st'.closeCount s = st.closeCount s := by
  obtain ⟨mid, hmid, rfl⟩ := step_base h
  obtain ⟨es, hes, hwrite⟩ := (endStep_wrote mid a).hist
  have hend : (mid.endStep a).closeCount s = mid.closeCount s := by
    refine closeCount_append hes (fun e he s' heq => ?_) s
    have := hwrite e he
    rw [heq] at this
    cases this
  rw [hend]
  exact hmid.closeCount s

/-! ### Closed sockets -/

/-- A socket that is closing, or gone, was closed. -/
structure Retired (st : UtpHandle) : Prop where
  byId : ∀ n s, st.utpSockets.lookup n = some s → s < st.nextSock
  byAddr : ∀ a s, st.utpSocketsAddr.lookup a = some s → s < st.nextSock
  gone : ∀ s, s < st.nextSock → st.sockets s = none → HistEvent.close s ∈ st.hist
  closing : ∀ s sock, st.sockets s = some sock → sock.state.closable = false →
    HistEvent.close s ∈ st.hist

namespace Retired

/-- No socket is there at first. -/
theorem init : Retired UtpHandle.init where
  byId _ _ h := by cases h
  byAddr _ _ h := by cases h
  gone s h := absurd h (Nat.not_lt_zero s)
  closing _ _ h := by cases h

/-- The socket that a close request leads to exists or existed. -/
theorem closedBy_lt (h : Retired st) {peerAddr : QString} {connectID : Int} {s : SockId}
    (hcb : st.closedBy peerAddr connectID = some s) : s < st.nextSock := by
  unfold closedBy at hcb
  rcases Option.or_eq_some_iff.mp hcb with hid | ⟨-, haddr⟩
  · exact h.byId connectID s hid
  · exact h.byAddr peerAddr s haddr

/-- A close request for a socket that was not closed is allowed. -/
theorem closesAllowed (h : Retired st) {peerAddr : QString} {connectID : Int}
    (hnew : ∀ s, st.closedBy peerAddr connectID = some s → st.closeCount s = 0) :
    st.ClosesAllowed (.onCloseSocket peerAddr connectID) := by
  intro s hcb
  have hno : HistEvent.close s ∉ st.hist := List.count_eq_zero.mp (hnew s hcb)
  cases hs : st.sockets s with
  | none => exact absurd (h.gone s (h.closedBy_lt hcb) hs) hno
  | some sock =>
    refine ⟨sock, rfl, ?_⟩
    by_contra hclosable
    exact hno (h.closing s sock hs (by simpa using hclosable))

/-- A step that makes no socket. The table changes at one socket, which stays closable or is
closed by the step. -/
theorem touch (h : Retired st) {es : List HistEvent} (hnext : st'.nextSock = st.nextSock)
    (hid : ∀ n s, st'.utpSockets.lookup n = some s → st.utpSockets.lookup n = some s)
    (haddr : ∀ a s, st'.utpSocketsAddr.lookup a = some s → st.utpSocketsAddr.lookup a = some s)
    (hhist : st'.hist = st.hist ++ es)
    (hgone : ∀ s, st'.sockets s = none → st.sockets s = none ∨ HistEvent.close s ∈ st'.hist)
    (hsock : ∀ s sock', st'.sockets s = some sock' → sock'.state.closable = false →
      (∃ sock, st.sockets s = some sock ∧ sock.state.closable = false) ∨
        HistEvent.close s ∈ st'.hist) : Retired st' where
  byId n s hl := hnext ▸ h.byId n s (hid n s hl)
  byAddr a s hl := hnext ▸ h.byAddr a s (haddr a s hl)
  gone s hlt hnone := by
    rcases hgone s hnone with hold | hnew
    · rw [hhist]
      exact List.mem_append_left _ (h.gone s (hnext ▸ hlt) hold)
    · exact hnew
  closing s sock' hs' hcl := by
    rcases hsock s sock' hs' hcl with ⟨sock, hs, hcl₀⟩ | hnew
    · rw [hhist]
      exact List.mem_append_left _ (h.closing s sock hs hcl₀)
    · exact hnew

/-- A step that changes neither the table nor the maps. -/
theorem congr (h : Retired st) {es : List HistEvent} (hnext : st'.nextSock = st.nextSock)
    (hid : st'.utpSockets = st.utpSockets) (haddr : st'.utpSocketsAddr = st.utpSocketsAddr)
    (hsock : st'.sockets = st.sockets) (hhist : st'.hist = st.hist ++ es) : Retired st' := by
  refine h.touch hnext (fun _ _ hl => hid ▸ hl) (fun _ _ hl => haddr ▸ hl) hhist
    (fun s hnone => Or.inl (hsock ▸ hnone)) fun s sock hs hcl => Or.inl ⟨sock, hsock ▸ hs, hcl⟩

/-- One socket gets a new record. If the new state is one of the closing states, the old one
was, or the step closes the socket. -/
theorem setSocket (h : Retired st) {s : SockId} {sock sock' : UTPSocket} {es : List HistEvent}
    (hs : st.sockets s = some sock)
    (hcl : sock'.state.closable = false →
      sock.state.closable = false ∨ HistEvent.close s ∈ es)
    (hnext : st'.nextSock = st.nextSock) (hid : st'.utpSockets = st.utpSockets)
    (haddr : st'.utpSocketsAddr = st.utpSocketsAddr)
    (hsock : st'.sockets = Function.update st.sockets s (some sock'))
    (hhist : st'.hist = st.hist ++ es) : Retired st' := by
  refine h.touch hnext (fun _ _ hl => hid ▸ hl) (fun _ _ hl => haddr ▸ hl) hhist
    (fun s' hnone => ?_) fun s' sock₁ hs₁ hcl₁ => ?_
  · by_cases heq : s' = s
    · rw [hsock, heq, Function.update_self] at hnone
      cases hnone
    · rw [hsock, Function.update_of_ne heq] at hnone
      exact Or.inl hnone
  · rw [hsock] at hs₁
    rcases update_cases hs₁ with ⟨rfl, heq⟩ | ⟨-, hs₁⟩
    · cases heq
      rcases hcl hcl₁ with hold | hnew
      · exact Or.inl ⟨sock, hs, hold⟩
      · rw [hhist]
        exact Or.inr (List.mem_append_right _ hnew)
    · exact Or.inl ⟨sock₁, hs₁, hcl₁⟩

/-- A new socket, in an open state, is stored under an address, and perhaps under an id. -/
theorem install (h : Retired st) {sock : UTPSocket} {peerAddr : QString} {es : List HistEvent}
    (hopen : sock.state.closable = true) (hnext : st'.nextSock = st.nextSock + 1)
    (hid : ∀ n s, st'.utpSockets.lookup n = some s →
      s = st.nextSock ∨ st.utpSockets.lookup n = some s)
    (haddr : st'.utpSocketsAddr = st.utpSocketsAddr.insert peerAddr st.nextSock)
    (hsock : st'.sockets = Function.update st.sockets st.nextSock (some sock))
    (hhist : st'.hist = st.hist ++ es) : Retired st' where
  byId n s hl := by
    rw [hnext]
    rcases hid n s hl with rfl | hl
    · exact Nat.lt_succ_self _
    · exact Nat.lt_succ_of_lt (h.byId n s hl)
  byAddr a s hl := by
    rw [hnext]
    rw [haddr] at hl
    rcases QHash.lookup_of_insert hl with ⟨-, rfl⟩ | ⟨-, hold⟩
    · exact Nat.lt_succ_self _
    · exact Nat.lt_succ_of_lt (h.byAddr a s hold)
  gone s hlt hnone := by
    rw [hsock] at hnone
    by_cases heq : s = st.nextSock
    · rw [heq, Function.update_self] at hnone
      cases hnone
    · rw [Function.update_of_ne heq] at hnone
      rw [hhist]
      rw [hnext] at hlt
      exact List.mem_append_left _
        (h.gone s (Nat.lt_of_le_of_ne (Nat.le_of_lt_succ hlt) heq) hnone)
  closing s sock' hs' hcl := by
    rw [hsock] at hs'
    rcases update_cases hs' with ⟨-, heq⟩ | ⟨-, hs'⟩
    · cases heq
      cases hcl.symm.trans hopen
    · rw [hhist]
      exact List.mem_append_left _ (h.closing s sock' hs' hcl)

/-- `utp_close` keeps the invariant. -/
theorem utpClose (h : Retired st) (s : SockId) : Retired (st.utpClose s) := by
  refine utpClose_rule (fun _ => ?_) fun sock hs => ?_
  · exact h.congr rfl rfl rfl rfl rfl
  · exact h.setSocket hs (fun _ => Or.inr List.mem_cons_self) rfl rfl rfl rfl rfl

/-- A failure leads to a closing state from a closing state only. -/
theorem closable_fail (sock : UTPSocket) (h : sock.fail.state.closable = false) :
    sock.state.closable = false := by
  unfold UTPSocket.fail at h
  split at h
  · rename_i hfin
    rw [hfin]
    rfl
  · cases h

/-- A timeout makes no closable socket of one that was not. -/
theorem closable_expire (sock : UTPSocket)
    (hstate : sock.state = .gotFin ∨ sock.state = .destroyDelay ∨ sock.state = .finSent)
    (h : sock.expire.state.closable = false) :
    sock.state.closable = false := by
  unfold UTPSocket.expire at h
  split at h
  · cases h
  · rename_i hfin
    rcases hstate with hgot | hdelay | hsent
    · exact absurd hgot hfin
    · rw [hdelay]
      rfl
    · rw [hsent]
      rfl

/-- The part of a step before the loop over the write queue keeps the invariant. -/
theorem base (h : Retired st) (hmid : BaseStep st a st') : Retired st' := by
  cases hmid with
  | connectToPeer peerAddr connectID seed hcolon hfree =>
    refine h.install rfl rfl (fun n s hl => ?_) rfl rfl rfl
    rcases QHash.lookup_of_insert hl with ⟨-, hnew⟩ | ⟨-, hold⟩
    · exact Or.inl hnew
    · exact Or.inr hold
  | setAcceptConnID peerAddr connectID =>
    refine setAcceptConnID_rule h fun s sock _ hs => ?_
    -- Only the user data is set, and no close is needed for it.
    have hcl : { sock with userdata := connectID }.state.closable = false →
        sock.state.closable = false ∨ HistEvent.close s ∈ [] := Or.inl
    exact h.setSocket hs hcl rfl rfl rfl rfl (List.append_nil _).symm
  | onCloseSocket peerAddr connectID => exact onCloseSocket_rule h h.utpClose
  | enqueue peerAddr buf o => exact h.congr rfl rfl rfl rfl rfl
  | processLoop o => exact h
  | accept peerAddr connid o hcolon hfree =>
    exact h.install rfl rfl (fun _ _ hl => Or.inr hl) rfl rfl rfl
  | connect s sock o hs hstate =>
    exact h.setSocket hs (fun hcl => by cases hcl) rfl rfl rfl rfl rfl
  | writable s sock o hs hstate =>
    exact h.setSocket hs (fun hcl => by cases hcl) rfl rfl rfl rfl (List.append_nil _).symm
  | read s sock buf o hs hstate => exact h.congr rfl rfl rfl rfl rfl
  | eof s sock o hs hstate =>
    exact h.setSocket hs (fun _ => Or.inr List.mem_cons_self) rfl rfl rfl rfl rfl
  | error s sock o hs =>
    exact h.setSocket hs (fun hcl => Or.inl (closable_fail sock hcl)) rfl rfl rfl rfl
      (List.append_nil _).symm
  | expire s sock o hs hstate =>
    exact h.setSocket hs (fun hcl => Or.inl (closable_expire sock hstate hcl)) rfl rfl rfl rfl
      (List.append_nil _).symm
  | destroying s sock o hs hstate =>
    refine h.touch rfl (fun _ _ hl => QHash.lookup_of_erase hl)
      (fun _ _ hl => QHash.lookup_of_erase hl) rfl (fun s' hnone => ?_) fun s' sock' hs' hcl => ?_
    · by_cases heq : s' = s
      · -- A socket is destroyed from a state that it gets to by a close.
        have hclosed := h.closing s sock hs (by rw [hstate]; rfl)
        exact Or.inr (List.mem_append_left _ (heq ▸ hclosed))
      · exact Or.inl ((Function.update_of_ne heq _ _).symm.trans hnone)
    · rcases update_cases hs' with ⟨-, heq⟩ | ⟨-, hs'⟩
      · cases heq
      · exact Or.inl ⟨sock', hs', hcl⟩
  | sendto peerAddr pkt o => exact h.congr rfl rfl rfl rfl (List.append_nil _).symm

/-- The loop over the write queue keeps the invariant. -/
theorem wrote (h : Retired st) (hw : Wrote st st') : Retired st' := by
  obtain ⟨es, hes, -⟩ := hw.hist
  refine h.touch hw.nextSock (fun _ _ hl => hw.utpSockets ▸ hl)
    (fun _ _ hl => hw.utpSocketsAddr ▸ hl) hes (fun s hnone => ?_) fun s sock' hs' hcl => ?_
  · rcases hw.sockets s with heq | ⟨sock, -, -, hs'⟩
    · exact Or.inl (heq ▸ hnone)
    · rw [hs'] at hnone
      cases hnone
  · rcases hw.sockets s with heq | ⟨sock, -, -, hs''⟩
    · exact Or.inl ⟨sock', heq ▸ hs', hcl⟩
    · rw [hs''] at hs'
      cases hs'
      cases hcl

/-- The step lemma. -/
theorem step (h : Retired st) (hst : st.step a = some st') : Retired st' := by
  obtain ⟨mid, hmid, rfl⟩ := step_base hst
  exact (h.base hmid).wrote (endStep_wrote mid a)

end Retired

/-! ### A closed socket stays closed -/

/-- The socket was made, and is not open any more. -/
def Shut (st : UtpHandle) (s : SockId) : Prop :=
  s < st.nextSock ∧ ∀ sock, st.sockets s = some sock → sock.isOpen = false

section Shut

variable {s s₀ : SockId} {sock sock' : UTPSocket}

/-- A step that makes no socket and opens none. -/
theorem Shut.touch (h : Shut st s) (hnext : st'.nextSock = st.nextSock)
    (hsock : ∀ sock', st'.sockets s = some sock' → sock'.isOpen = true →
      ∃ sock, st.sockets s = some sock ∧ sock.isOpen = true) : Shut st' s := by
  refine ⟨hnext ▸ h.1, fun sock' hs' => ?_⟩
  by_contra hopen
  obtain ⟨sock, hs, hold⟩ := hsock sock' hs' (by simpa using hopen)
  cases (h.2 sock hs).symm.trans hold

/-- A step that leaves the sockets as they are. -/
theorem Shut.congr (h : Shut st s) (hnext : st'.nextSock = st.nextSock)
    (hsock : st'.sockets = st.sockets) : Shut st' s :=
  h.touch hnext fun sock hs hopen => ⟨sock, hsock ▸ hs, hopen⟩

/-- One socket gets a new record, which is open only if the old one was. -/
theorem Shut.setSocket (h : Shut st s) (hs : st.sockets s₀ = some sock)
    (hopen : sock'.isOpen = true → sock.isOpen = true) (hnext : st'.nextSock = st.nextSock)
    (hsock : st'.sockets = Function.update st.sockets s₀ (some sock')) : Shut st' s := by
  refine h.touch hnext fun sock₁ hs₁ hopen₁ => ?_
  rw [hsock] at hs₁
  rcases update_cases hs₁ with ⟨rfl, heq⟩ | ⟨-, hold⟩
  · cases heq
    exact ⟨sock, hs, hopen hopen₁⟩
  · exact ⟨sock₁, hold, hopen₁⟩

/-- One socket closes or fails. -/
theorem Shut.setSocket_dead (h : Shut st s) (hs : st.sockets s₀ = some sock)
    (hdead : sock'.isOpen = false) (hnext : st'.nextSock = st.nextSock)
    (hsock : st'.sockets = Function.update st.sockets s₀ (some sock')) : Shut st' s :=
  h.setSocket hs (fun hopen => absurd (hdead.symm.trans hopen) Bool.false_ne_true) hnext hsock

/-- A new socket is another one. -/
theorem Shut.install (h : Shut st s) (hnext : st'.nextSock = st.nextSock + 1)
    (hsock : st'.sockets = Function.update st.sockets st.nextSock (some sock)) : Shut st' s := by
  refine ⟨hnext ▸ Nat.lt_succ_of_lt h.1, fun sock' hs' => h.2 sock' ?_⟩
  rwa [hsock, Function.update_of_ne (Nat.ne_of_lt h.1)] at hs'

/-- A socket that is shut stays shut when a socket is closed. -/
theorem Shut.utpClose (h : Shut st s) (s₀ : SockId) : Shut (st.utpClose s₀) s :=
  utpClose_rule (P := fun u => Shut u s) (fun _ => h.congr rfl rfl) fun sock hs =>
    h.setSocket_dead hs sock.close_isOpen rfl rfl

/-- A socket that is shut stays shut in the part of a step before the loop over the write
queue. -/
theorem Shut.base (h : Shut st s) (hmid : BaseStep st a st') : Shut st' s := by
  cases hmid with
  | connectToPeer peerAddr connectID seed hcolon hfree => exact h.install rfl rfl
  | setAcceptConnID peerAddr connectID =>
    refine setAcceptConnID_rule (P := fun u => Shut u s) h fun s₀ sock _ hs => ?_
    have hopen : { sock with userdata := connectID }.isOpen = true → sock.isOpen = true := id
    exact h.setSocket hs hopen rfl rfl
  | onCloseSocket peerAddr connectID =>
    exact onCloseSocket_rule (P := fun u => Shut u s) h h.utpClose
  | accept peerAddr connid o hcolon hfree => exact h.install rfl rfl
  | connect s₀ sock o hs hstate =>
    exact h.setSocket hs (fun _ => UTPSocket.isOpen_of_synSent hstate) rfl rfl
  | writable s₀ sock o hs hstate =>
    exact h.setSocket hs (fun _ => by simp [UTPSocket.isOpen, hstate]) rfl rfl
  | eof s₀ sock o hs hstate => exact h.setSocket_dead hs rfl rfl rfl
  | error s₀ sock o hs => exact h.setSocket_dead hs sock.fail_isOpen rfl rfl
  | expire s₀ sock o hs hstate => exact h.setSocket_dead hs sock.expire_isOpen rfl rfl
  | destroying s₀ sock o hs hstate =>
    refine h.touch rfl fun sock' hs' hopen => ?_
    rcases update_cases hs' with ⟨-, heq⟩ | ⟨-, hold⟩
    · cases heq
    · exact ⟨sock', hold, hopen⟩
  | _ => exact h.congr rfl rfl

/-- What `processWrite` does to the state of a socket opens none. -/
theorem Shut.wrote (h : Shut st s) (hw : Wrote st st') : Shut st' s := by
  refine h.touch hw.nextSock fun sock' hs' hopen => ?_
  rcases hw.sockets s with heq | ⟨sock, hs, hstate, -⟩
  · exact ⟨sock', heq ▸ hs', hopen⟩
  · exact ⟨sock, hs, by simp [UTPSocket.isOpen, hstate]⟩

/-- The step lemma. -/
theorem Shut.step (h : Shut st s) (hst : st.step a = some st') : Shut st' s := by
  obtain ⟨mid, hmid, rfl⟩ := step_base hst
  exact (h.base hmid).wrote (endStep_wrote mid a)

/-- `utp_close` shuts the socket. -/
theorem shut_utpClose (hlt : s < st.nextSock) : Shut (st.utpClose s) s := by
  unfold UtpHandle.utpClose
  split
  · rename_i hnone
    exact ⟨hlt, fun sock hs => by cases hnone.symm.trans hs⟩
  · rename_i sock hs
    refine ⟨hlt, fun sock' hs' => ?_⟩
    rcases update_cases hs' with ⟨-, heq⟩ | ⟨hne, -⟩
    · cases heq
      exact sock.close_isOpen
    · exact absurd rfl hne

/-- A step that ends a socket shuts it. -/
theorem shut_of_ends (hret : Retired st) (hknown : ∀ s sock, st.sockets s = some sock →
    s < st.nextSock) (hst : st.step a = some st') (hends : st.Ends s a) : Shut st' s := by
  obtain ⟨mid, hmid, rfl⟩ := step_base hst
  refine Shut.wrote ?_ (endStep_wrote mid a)
  cases hmid with
  | onCloseSocket peerAddr connectID =>
    rw [onCloseSocket_eq, show st.closedBy peerAddr connectID = some s from hends]
    exact shut_utpClose (hret.closedBy_lt hends)
  | eof s₀ sock o hs hstate =>
    cases hends
    refine ⟨hknown _ sock hs, fun sock' hs' => ?_⟩
    rcases update_cases hs' with ⟨-, heq⟩ | ⟨hne, -⟩
    · cases heq
      rfl
    · exact absurd rfl hne
  | _ => cases hends

/-- The peer cannot end a shut socket. -/
theorem Shut.not_eof (h : Shut st s) {o : Oracle} (hst : st.step (.event (.eof s) o) = some st') :
    False := by
  obtain ⟨mid, hmid, -⟩ := step_base hst
  cases hmid with
  | eof s₀ sock o hs hstate =>
    cases (h.2 sock hs).symm.trans (UTPSocket.isOpen_of_isConnected hstate)

end Shut

/-- A step that closes a socket for the first time is allowed to. -/
theorem closesAllowed_of_first (h : Retired st) (hst : st.step a = some st')
    (honce : ∀ s, st'.closeCount s ≤ 1) : st.ClosesAllowed a := by
  have hfirst : ∀ s, st.Ends s a → st.closeCount s = 0 := by
    intro s hends
    rcases step_closeCount hst s with ⟨-, hcount⟩ | ⟨hno, -⟩
    · have := honce s
      omega
    · exact absurd hends hno
  cases a with
  | onCloseSocket peerAddr connectID => exact h.closesAllowed hfirst
  | event e o => cases e <;> trivial
  | _ => trivial

end UtpHandle

/-! ### The system -/

namespace System

variable {y y' : System}

/-- What the uTP thread does in a step, if it takes part. -/
def utpPart (y : System) : SysAction → Option UtpHandle.UtpAction
  | .utpSlot seed o =>
    match y.main.outbox with
    | [] => none
    | req :: _ => some (utpAction req seed o)
  | .utpEvent e o => some (.event e o)
  | _ => none

/-- The step is the EOF of the socket, or it handles a close request that leads to it. -/
def Ends (s : SockId) (y : System) (a : SysAction) : Prop :=
  ∃ b, y.utpPart a = some b ∧ y.utp.Ends s b

/-- A call of `utp_close` in the step is on a socket that is there, in a state that the
assertion lets through. -/
def ClosesAllowed (y : System) (a : SysAction) : Prop :=
  ∀ b, y.utpPart a = some b → y.utp.ClosesAllowed b

/-- A step of the main thread ends no socket. -/
theorem not_ends {s : SockId} {a : SysAction} (h : y.utpPart a = none) : ¬ Ends s y a := by
  rintro ⟨b, hb, -⟩
  cases h.symm.trans hb

/-- A step of the system is a step of the uTP thread, or the uTP thread only loses a signal
from its queue. -/
theorem step_utpPart {a : SysAction} (h : y.step a = some y') :
    (∃ b, y.utpPart a = some b ∧ y.utp.step b = some y'.utp) ∨
      y.utpPart a = none ∧ ∃ sigs, y'.utp = { y.utp with outbox := sigs } := by
  cases System.step_cases h with
  | utpSlot req rest seed o u hout hu =>
    exact Or.inl ⟨_, by simp [utpPart, hout], hu⟩
  | utpEvent e o u hu => exact Or.inl ⟨_, rfl, hu⟩
  | mainSlot sig rest hout => exact Or.inr ⟨rfl, rest, rfl⟩
  | _ => exact Or.inr ⟨rfl, y.utp.outbox, rfl⟩

/-- The counter of the calls of `utp_close` on a socket counts the steps that end it. -/
theorem step_closeCount (s : SockId) (y : System) (a : SysAction) (y' : System)
    (h : y.step a = some y') :
    Ends s y a ∧ y'.utp.closeCount s = y.utp.closeCount s + 1 ∨
      ¬ Ends s y a ∧ y'.utp.closeCount s = y.utp.closeCount s := by
  rcases step_utpPart h with ⟨b, hb, hst⟩ | ⟨hnone, sigs, heq⟩
  · rcases UtpHandle.step_closeCount hst s with ⟨hends, hcount⟩ | ⟨hno, hcount⟩
    · exact Or.inl ⟨⟨b, hb, hends⟩, hcount⟩
    · refine Or.inr ⟨?_, hcount⟩
      rintro ⟨b', hb', hends⟩
      cases hb.symm.trans hb'
      exact hno hends
  · exact Or.inr ⟨not_ends hnone, by rw [heq]; rfl⟩

/-- The step lemma for the system: only steps of the uTP thread touch its sockets. -/
theorem step_retired {a : SysAction} (h : y.utp.Retired) (hst : y.step a = some y') :
    y'.utp.Retired := by
  rcases step_utpPart hst with ⟨b, -, hb⟩ | ⟨-, sigs, heq⟩
  · exact h.step hb
  · rw [heq]
    exact h.congr rfl rfl rfl rfl (List.append_nil _).symm

/-- Every socket is closed once at most. -/
def ClosedOnce (y : System) : Prop := ∀ s, y.utp.closeCount s ≤ 1

end System

end EChannel.LibTrans
