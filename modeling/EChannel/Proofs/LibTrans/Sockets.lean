import EChannel.Proofs.LibTrans.Steps

/-!
# `EChannel.Proofs.LibTrans.Sockets`: the history of the sockets

Two invariants of every run tie the sockets of the uTP thread to the history. `Installed` says
where the sockets of `m_utp_sockets_addr` and of the recorded `utp_write` calls come from: each
was installed once, for one address. `Reported` says which of them were reported as connected:
no socket that is still connecting, and every socket that is connected.

Each has one lemma for the steps that change nothing about sockets, one for a new socket, and
then the case analysis over the base steps.
-/

set_option autoImplicit false

namespace EChannel.LibTrans

open LibUtp

/-- The events other than `install` and `offer`. -/
def HistEvent.isPlain : HistEvent → Bool
  | .install _ _ | .offer _ _ _ => false
  | _ => true

/-- The events that neither install nor report a socket, nor offer a pack. -/
def HistEvent.isAside : HistEvent → Bool
  | .install _ _ | .established _ | .offer _ _ _ => false
  | _ => true

namespace UtpHandle

/-! ### Installed sockets -/

/-- The sockets of the map and of the recorded calls were installed for their addresses, and
a socket is installed once. -/
structure Installed (st : UtpHandle) : Prop where
  current : ∀ a s, st.utpSocketsAddr.lookup a = some s → HistEvent.install a s ∈ st.hist
  offered : ∀ s p n, HistEvent.offer s p n ∈ st.hist →
    HistEvent.install p.peerAddr s ∈ st.hist
  fresh : ∀ a s, HistEvent.install a s ∈ st.hist → s < st.nextSock
  inj : ∀ a a' s, HistEvent.install a s ∈ st.hist → HistEvent.install a' s ∈ st.hist → a = a'

namespace Installed

variable {st st' : UtpHandle}

/-- A step that installs no socket and offers no pack. -/
theorem plain (h : Installed st) {es : List HistEvent} (hnext : st'.nextSock = st.nextSock)
    (hlookup : ∀ a s, st'.utpSocketsAddr.lookup a = some s →
      st.utpSocketsAddr.lookup a = some s)
    (hhist : st'.hist = st.hist ++ es) (hes : ∀ e ∈ es, e.isPlain = true) :
    Installed st' := by
  have hback : ∀ e, e.isPlain = false → e ∈ st'.hist → e ∈ st.hist := by
    intro e he hmem
    rw [hhist] at hmem
    rcases List.mem_append.mp hmem with hold | hnew
    · exact hold
    · rw [hes e hnew] at he
      cases he
  have hforth : ∀ e, e ∈ st.hist → e ∈ st'.hist := by
    intro e hmem
    rw [hhist]
    exact List.mem_append_left _ hmem
  exact
    { current := fun a s hl => hforth _ (h.current a s (hlookup a s hl))
      offered := fun s p n ho => hforth _ (h.offered s p n (hback _ rfl ho))
      fresh := fun a s hi => hnext ▸ h.fresh a s (hback _ rfl hi)
      inj := fun a a' s hi hi' => h.inj a a' s (hback _ rfl hi) (hback _ rfl hi') }

/-- A step that installs the next socket for `a`. -/
theorem install (h : Installed st) {a : QString} {es : List HistEvent}
    (hnext : st'.nextSock = st.nextSock + 1)
    (haddr : st'.utpSocketsAddr = st.utpSocketsAddr.insert a st.nextSock)
    (hhist : st'.hist = st.hist ++ .install a st.nextSock :: es)
    (hes : ∀ e ∈ es, e.isPlain = true) : Installed st' := by
  -- An entry of the history is old, or that of the new socket.
  have hinst : ∀ a' s, HistEvent.install a' s ∈ st'.hist →
      HistEvent.install a' s ∈ st.hist ∨ a' = a ∧ s = st.nextSock := by
    intro a' s hmem
    rw [hhist] at hmem
    rcases List.mem_append.mp hmem with hold | hnew
    · exact Or.inl hold
    · rcases List.mem_cons.mp hnew with heq | hnew
      · cases heq
        exact Or.inr ⟨rfl, rfl⟩
      · cases hes _ hnew
  have hforth : ∀ e, e ∈ st.hist → e ∈ st'.hist := by
    intro e hmem
    rw [hhist]
    exact List.mem_append_left _ hmem
  refine
    { current := fun a' s hl => ?_
      offered := fun s p n ho => ?_
      fresh := fun a' s hi => ?_
      inj := fun a₁ a₂ s h₁ h₂ => ?_ }
  · rw [haddr] at hl
    rcases QHash.lookup_of_insert hl with ⟨rfl, rfl⟩ | ⟨-, hold⟩
    · rw [hhist]
      exact List.mem_append_right _ List.mem_cons_self
    · exact hforth _ (h.current a' s hold)
  · have hold : HistEvent.offer s p n ∈ st.hist := by
      rw [hhist] at ho
      rcases List.mem_append.mp ho with hold | hnew
      · exact hold
      · rcases List.mem_cons.mp hnew with heq | hnew
        · cases heq
        · cases hes _ hnew
    exact hforth _ (h.offered s p n hold)
  · rcases hinst a' s hi with hold | ⟨-, rfl⟩
    · exact hnext ▸ Nat.lt_succ_of_lt (h.fresh a' s hold)
    · exact hnext ▸ Nat.lt_succ_self _
  · -- The number of the new socket is not in the old history.
    rcases hinst a₁ s h₁ with hold₁ | ⟨rfl, rfl⟩
    · rcases hinst a₂ s h₂ with hold₂ | ⟨rfl, rfl⟩
      · exact h.inj a₁ a₂ s hold₁ hold₂
      · exact absurd (h.fresh a₁ _ hold₁) (Nat.lt_irrefl _)
    · rcases hinst a₂ _ h₂ with hold₂ | ⟨rfl, -⟩
      · exact absurd (h.fresh a₂ _ hold₂) (Nat.lt_irrefl _)
      · rfl

/-- A `utp_write` on the socket that the map holds for the pack. -/
theorem utpWrite (h : Installed st) {s : SockId} {pack : PackInfo} (r : WriteResult)
    (hs : st.utpSocketsAddr.lookup pack.peerAddr = some s) :
    Installed (st.utpWrite s pack r).1 := by
  have hhist := utpWrite_hist st s pack r
  have hinst : ∀ a s', HistEvent.install a s' ∈ (st.utpWrite s pack r).1.hist ↔
      HistEvent.install a s' ∈ st.hist := by
    intro a s'
    rw [hhist]
    simp
  refine
    { current := fun a s' hl => (hinst a s').mpr (h.current a s' (by simpa using hl))
      offered := fun s' p n ho => (hinst _ s').mpr ?_
      fresh := fun a s' hi => by simpa using h.fresh a s' ((hinst a s').mp hi)
      inj := fun a a' s' hi hi' => h.inj a a' s' ((hinst a s').mp hi) ((hinst a' s').mp hi') }
  rw [hhist] at ho
  rcases List.mem_append.mp ho with hold | hnew
  · exact h.offered s' p n hold
  · -- `write_data` takes the socket from the map.
    cases List.mem_singleton.mp hnew
    exact h.current _ s hs

/-- The loop over the write queue keeps the invariant. -/
theorem closed : WriteClosed Installed where
  discard st pack rest _ _ h := by
    exact h.plain rfl (fun _ _ hl => hl) rfl (by simp [HistEvent.isPlain])
  offer st pack rest s r _ _ hs _ h :=
    (h.utpWrite r hs).plain rfl (fun _ _ hl => hl) (List.append_nil _).symm (by simp)
  complete st pack rest s r _ _ hs _ _ h :=
    (h.utpWrite r hs).plain rfl (fun _ _ hl => hl) rfl (by simp [HistEvent.isPlain])
  skip st pack rest s _ _ _ _ h :=
    h.plain rfl (fun _ _ hl => hl) rfl (by simp [HistEvent.isPlain])

/-- The part of a step before the loop over the write queue keeps the invariant. -/
theorem base {a : UtpAction} (h : Installed st) (hmid : BaseStep st a st') :
    Installed st' := by
  cases hmid with
  | connectToPeer peerAddr connectID seed hcolon hfree => exact h.install rfl rfl rfl (by simp)
  | setAcceptConnID peerAddr connectID =>
    exact setAcceptConnID_rule h fun _ _ _ _ =>
      h.plain rfl (fun _ _ hl => hl) (List.append_nil _).symm (by simp)
  | onCloseSocket peerAddr connectID =>
    refine onCloseSocket_rule h fun s => utpClose_rule (fun _ => ?_) fun _ _ => ?_
    · exact h.plain rfl (fun _ _ hl => hl) rfl (by simp [HistEvent.isPlain])
    · exact h.plain rfl (fun _ _ hl => hl) rfl (by simp [HistEvent.isPlain])
  | enqueue peerAddr buf o =>
    exact h.plain rfl (fun _ _ hl => hl) rfl (by simp [HistEvent.isPlain])
  | processLoop o => exact h
  | accept peerAddr connid o hcolon hfree =>
    exact h.install rfl rfl rfl (by simp [HistEvent.isPlain])
  | connect s sock o hs hstate =>
    exact h.plain rfl (fun _ _ hl => hl) rfl (by simp [HistEvent.isPlain])
  | writable s sock o hs hstate =>
    exact h.plain rfl (fun _ _ hl => hl) (List.append_nil _).symm (by simp)
  | read s sock buf o hs hstate =>
    exact h.plain rfl (fun _ _ hl => hl) rfl (by simp [HistEvent.isPlain])
  | eof s sock o hs hstate =>
    exact h.plain rfl (fun _ _ hl => hl) rfl (by simp [HistEvent.isPlain])
  | error s sock o hs =>
    exact h.plain rfl (fun _ _ hl => hl) (List.append_nil _).symm (by simp)
  | expire s sock o hs hstate =>
    exact h.plain rfl (fun _ _ hl => hl) (List.append_nil _).symm (by simp)
  | destroying s sock o hs hstate =>
    exact h.plain rfl (fun _ _ hl => QHash.lookup_of_erase hl) rfl (by simp [HistEvent.isPlain])
  | sendto peerAddr pkt o =>
    exact h.plain rfl (fun _ _ hl => hl) (List.append_nil _).symm (by simp)

/-- There is no socket at first. -/
theorem init : Installed UtpHandle.init where
  current _ _ hl := by cases hl
  offered _ _ _ ho := by cases ho
  fresh _ _ hi := by cases hi
  inj _ _ _ hi := by cases hi

end Installed

/-! ### Reported sockets -/

/-- Addresses of sockets have a colon, and a socket is reported as connected once it is. -/
structure Reported (st : UtpHandle) : Prop where
  colon : ∀ a s, HistEvent.install a s ∈ st.hist → ':' ∈ a
  known : ∀ s sock, st.sockets s = some sock → s < st.nextSock
  fresh : ∀ s, HistEvent.established s ∈ st.hist → s < st.nextSock
  synSent : ∀ s sock, st.sockets s = some sock → sock.state = .synSent →
    HistEvent.established s ∉ st.hist
  connected : ∀ s sock, st.sockets s = some sock → sock.isConnected = true →
    HistEvent.established s ∈ st.hist

variable {st st' : UtpHandle} {es : List HistEvent}

/-- A step that installs and reports no socket. -/
theorem Reported.plain (h : Reported st) (hnext : st'.nextSock = st.nextSock)
    (hhist : st'.hist = st.hist ++ es) (hes : ∀ e ∈ es, e.isAside = true)
    (hsock : ∀ s sock', st'.sockets s = some sock' → ∃ sock, st.sockets s = some sock ∧
      (sock'.state = .synSent → sock.state = .synSent) ∧
      (sock'.isConnected = true → sock.isConnected = true)) : Reported st' := by
  have hback : ∀ e, e.isAside = false → e ∈ st'.hist → e ∈ st.hist := by
    intro e he hmem
    rw [hhist] at hmem
    rcases List.mem_append.mp hmem with hold | hnew
    · exact hold
    · rw [hes e hnew] at he
      cases he
  refine
    { colon := fun a s hi => h.colon a s (hback _ rfl hi)
      known := fun s sock' hs => ?_
      fresh := fun s he => hnext ▸ h.fresh s (hback _ rfl he)
      synSent := fun s sock' hs hstate hest => ?_
      connected := fun s sock' hs hconn => ?_ }
  · obtain ⟨sock, hs₀, -⟩ := hsock s sock' hs
    exact hnext ▸ h.known s sock hs₀
  · obtain ⟨sock, hs₀, hsyn, -⟩ := hsock s sock' hs
    exact h.synSent s sock hs₀ (hsyn hstate) (hback _ rfl hest)
  · obtain ⟨sock, hs₀, -, hconn₀⟩ := hsock s sock' hs
    rw [hhist]
    exact List.mem_append_left _ (h.connected s sock hs₀ (hconn₀ hconn))

/-- Replacing the record of a socket. -/
theorem Reported.setSocket (h : Reported st) {s : SockId} {sock sock' : UTPSocket}
    (hs : st.sockets s = some sock) (hsyn : sock'.state = .synSent → sock.state = .synSent)
    (hconn : sock'.isConnected = true → sock.isConnected = true) :
    Reported (st.setSocket s sock') := by
  refine h.plain rfl (List.append_nil _).symm (by simp) fun s' sock₁ hs' => ?_
  rcases update_cases hs' with ⟨rfl, heq⟩ | ⟨-, hold⟩
  · cases heq
    exact ⟨sock, hs, hsyn, hconn⟩
  · exact ⟨sock₁, hold, id, id⟩

/-- A step that changes no socket. -/
theorem Reported.same (h : Reported st) (hnext : st'.nextSock = st.nextSock)
    (hhist : st'.hist = st.hist ++ es) (hes : ∀ e ∈ es, e.isAside = true)
    (hsock : st'.sockets = st.sockets) : Reported st' :=
  h.plain hnext hhist hes fun _ sock' hs => ⟨sock', hsock ▸ hs, id, id⟩

/-- A socket that closes or fails is not reported any more. -/
theorem Reported.setSocket_dead (h : Reported st) {s : SockId} {sock sock' : UTPSocket}
    (hs : st.sockets s = some sock) (hdead : sock'.isOpen = false) :
    Reported (st.setSocket s sock') := by
  refine h.setSocket hs (fun hsyn => ?_) (fun hconn => ?_)
  · rw [UTPSocket.isOpen_of_synSent hsyn] at hdead
    cases hdead
  · rw [UTPSocket.isOpen_of_isConnected hconn] at hdead
    cases hdead

/-- `utp_close` keeps the invariant. -/
theorem Reported.utpClose (h : Reported st) (s : SockId) : Reported (st.utpClose s) := by
  refine utpClose_rule (fun _ => ?_) fun sock hs => ?_
  · exact h.same rfl rfl (by simp [HistEvent.isAside]) rfl
  · exact (h.setSocket_dead hs sock.close_isOpen).same rfl rfl (by simp [HistEvent.isAside]) rfl

/-- The loop over the write queue keeps the invariant. -/
theorem Reported.wrote (h : Reported st) (hw : Wrote st st') : Reported st' := by
  obtain ⟨es, hes, hwrite⟩ := hw.hist
  refine
    { colon := fun a s hi => h.colon a s ?_
      known := fun s sock' hs => ?_
      fresh := fun s he => hw.nextSock ▸ h.fresh s ?_
      synSent := fun s sock' hs hstate hest => ?_
      connected := fun s sock' hs hconn => ?_ }
  · rw [hes] at hi
    exact (List.mem_append.mp hi).resolve_right fun hnew => by cases hwrite _ hnew
  · rw [hw.nextSock]
    rcases hw.sockets s with heq | ⟨sock, hs₀, -⟩
    · exact h.known s sock' (heq ▸ hs)
    · exact h.known s sock hs₀
  · rw [hes] at he
    exact (List.mem_append.mp he).resolve_right fun hnew => by cases hwrite _ hnew
  · have hold : HistEvent.established s ∈ st.hist := by
      rw [hes] at hest
      exact (List.mem_append.mp hest).resolve_right fun hnew => by cases hwrite _ hnew
    rcases hw.sockets s with heq | ⟨sock, -, -, hs'⟩
    · exact h.synSent s sock' (heq ▸ hs) hstate hold
    · rw [hs'] at hs
      cases hs
      cases hstate
  · rw [hes]
    refine List.mem_append_left _ ?_
    rcases hw.sockets s with heq | ⟨sock, hs₀, hstate, -⟩
    · exact h.connected s sock' (heq ▸ hs) hconn
    · exact h.connected s sock hs₀ (by simp [UTPSocket.isConnected, hstate])

/-- A new socket. The two events of its creation are `install` and, for an accepted one,
`established`. -/
theorem Reported.install (h : Reported st) {a : QString} {sock : UTPSocket} (hcolon : ':' ∈ a)
    (hnext : st'.nextSock = st.nextSock + 1)
    (hsock : st'.sockets = Function.update st.sockets st.nextSock (some sock))
    (hhist : st'.hist = st.hist ++ .install a st.nextSock :: es)
    (hes : sock.state = .synSent ∧ es = [] ∨
      sock.state = .connected ∧ es = [.established st.nextSock]) : Reported st' := by
  -- Only an accepted socket is established as soon as it is there.
  have hest : ∀ s, HistEvent.established s ∈ st'.hist →
      HistEvent.established s ∈ st.hist ∨ s = st.nextSock ∧ sock.state = .connected := by
    intro s hmem
    rw [hhist] at hmem
    rcases List.mem_append.mp hmem with hold | hnew
    · exact Or.inl hold
    · rcases hes with ⟨-, rfl⟩ | ⟨hstate, rfl⟩
      · simp at hnew
      · exact Or.inr ⟨by simpa using hnew, hstate⟩
  refine
    { colon := fun a' s hi => ?_
      known := fun s sock' hs => ?_
      fresh := fun s he => ?_
      synSent := fun s sock' hs hstate he => ?_
      connected := fun s sock' hs hconn => ?_ }
  · rw [hhist] at hi
    rcases List.mem_append.mp hi with hold | hnew
    · exact h.colon a' s hold
    · have hnew' : a' = a ∧ s = st.nextSock := by
        rcases hes with ⟨-, rfl⟩ | ⟨-, rfl⟩ <;> simpa using hnew
      exact hnew'.1 ▸ hcolon
  · rw [hsock] at hs
    rw [hnext]
    rcases update_cases hs with ⟨rfl, -⟩ | ⟨-, hold⟩
    · exact Nat.lt_succ_self _
    · exact Nat.lt_succ_of_lt (h.known s sock' hold)
  · rw [hnext]
    rcases hest s he with hold | ⟨rfl, -⟩
    · exact Nat.lt_succ_of_lt (h.fresh s hold)
    · exact Nat.lt_succ_self _
  · rw [hsock] at hs
    rcases update_cases hs with ⟨rfl, heq⟩ | ⟨hne, hold⟩
    · cases heq
      -- The new socket has no event from before, and waits only if it is not accepted.
      rcases hest st.nextSock he with hold | ⟨-, hconn⟩
      · exact absurd (h.fresh _ hold) (Nat.lt_irrefl _)
      · rw [hconn] at hstate
        cases hstate
    · exact h.synSent s sock' hold hstate ((hest s he).resolve_right fun hnew => hne hnew.1)
  · rw [hsock] at hs
    rw [hhist]
    rcases update_cases hs with ⟨rfl, heq⟩ | ⟨-, hold⟩
    · cases heq
      rcases hes with ⟨hstate, -⟩ | ⟨-, rfl⟩
      · simp [UTPSocket.isConnected, hstate] at hconn
      · simp
    · exact List.mem_append_left _ (h.connected s sock' hold hconn)

/-- `UTP_STATE_CONNECT` reports the socket and connects it. -/
theorem Reported.connectBase (h : Reported st) {s : SockId} {sock : UTPSocket}
    (hs : st.sockets s = some sock) : Reported (st.connectBase s sock) := by
  have hest : ∀ s', HistEvent.established s' ∈ (st.connectBase s sock).hist ↔
      HistEvent.established s' ∈ st.hist ∨ s' = s := by
    intro s'
    simp [UtpHandle.connectBase]
  refine
    { colon := fun a s' hi => h.colon a s' (by simpa [UtpHandle.connectBase] using hi)
      known := fun s' sock' hs' => ?_
      fresh := fun s' he => ?_
      synSent := fun s' sock' hs' hstate he => ?_
      connected := fun s' sock' hs' hconn => (hest s').mpr ?_ }
  · rcases update_cases hs' with ⟨rfl, -⟩ | ⟨-, hold⟩
    · exact h.known s' sock hs
    · exact h.known s' sock' hold
  · rcases (hest s').mp he with hold | rfl
    · exact h.fresh s' hold
    · exact h.known s' sock hs
  · rcases update_cases hs' with ⟨-, heq⟩ | ⟨hne, hold⟩
    · cases heq
      cases hstate
    · exact h.synSent s' sock' hold hstate (((hest s').mp he).resolve_right hne)
  · rcases update_cases hs' with ⟨rfl, -⟩ | ⟨-, hold⟩
    · exact Or.inr rfl
    · exact Or.inl (h.connected s' sock' hold hconn)

/-- The part of a step before the loop over the write queue keeps the invariant. -/
theorem Reported.base {a : UtpAction} (h : Reported st) (hmid : BaseStep st a st') :
    Reported st' := by
  cases hmid with
  | connectToPeer peerAddr connectID seed hcolon hfree =>
    exact h.install hcolon rfl rfl rfl (Or.inl ⟨rfl, rfl⟩)
  | setAcceptConnID peerAddr connectID =>
    exact setAcceptConnID_rule h fun _ _ _ hs => h.setSocket hs id id
  | onCloseSocket peerAddr connectID => exact onCloseSocket_rule h h.utpClose
  | enqueue peerAddr buf o => exact h.same rfl rfl (by simp [HistEvent.isAside]) rfl
  | processLoop o => exact h
  | accept peerAddr connid o hcolon hfree =>
    exact h.install hcolon rfl rfl rfl (Or.inr ⟨rfl, rfl⟩)
  | connect s sock o hs hstate => exact h.connectBase hs
  | writable s sock o hs hstate =>
    exact h.setSocket hs (fun hsyn => by cases hsyn)
      (fun _ => by simp [UTPSocket.isConnected, hstate])
  | read s sock buf o hs hstate => exact h.same rfl rfl (by simp [HistEvent.isAside]) rfl
  | eof s sock o hs hstate =>
    have hdead : ({ sock with state := .destroyDelay } : UTPSocket).isOpen = false := rfl
    exact (h.setSocket_dead hs hdead).same rfl rfl (by simp [HistEvent.isAside]) rfl
  | error s sock o hs => exact h.setSocket_dead hs sock.fail_isOpen
  | expire s sock o hs hstate => exact h.setSocket_dead hs sock.expire_isOpen
  | destroying s sock o hs hstate =>
    -- The socket goes, and the others are as before.
    refine h.plain rfl rfl (by simp [HistEvent.isAside]) fun s' sock' hs' => ?_
    rcases update_cases hs' with ⟨-, heq⟩ | ⟨-, hold⟩
    · cases heq
    · exact ⟨sock', hold, id, id⟩
  | sendto peerAddr pkt o => exact h.same rfl (List.append_nil _).symm (by simp) rfl

/-- Bytes are taken by a connected socket, and a connected socket has been reported. -/
theorem Reported.of_taken (h : Reported st) {s : SockId} {pack : PackInfo} {r : WriteResult}
    (hpos : 0 < (st.utpWrite s pack r).2) : HistEvent.established s ∈ st.hist := by
  unfold UtpHandle.utpWrite at hpos
  cases hsock : st.sockets s with
  | none => simp [hsock] at hpos
  | some sock =>
    refine h.connected s sock hsock ?_
    by_contra hne
    have hzero : (sock.write (pack.buf.length - pack.pos) r).2 = 0 :=
      sock.write_eq_zero _ r fun hstate => hne (by simp [UTPSocket.isConnected, hstate])
    simp [hsock, hzero] at hpos

/-- There is no socket at first. -/
theorem reported_init : Reported init where
  colon _ _ hi := by cases hi
  known _ _ hs := by cases hs
  fresh _ he := by cases he
  synSent _ _ hs := by cases hs
  connected _ _ hs := by cases hs

end UtpHandle

end EChannel.LibTrans
