import EChannel.Proofs.LibTrans.Registry
import EChannel.Proofs.LibTrans.Sockets

/-!
# `EChannel.Proofs.LibTrans.Receive`: received data on its way to the channel

`callback_on_read` tags each block with the user data of its socket, and `onUtpRecv` hands it
to the channel registered under that id. An accepted socket has user data 0 until
`setAcceptConnID` runs, one round trip through both queues after the accept, and no channel
has the id 0: what arrives before that is dropped.

`IdsOwned` says where ids can come from. `Delivery` is the accounting: what a registered
channel has received and what is queued for it is what was read under its id. From it
follows `received_eq_reads_iff`: with both queues drained, a channel has received exactly what
was read on its own sockets if and only if every block with data was read while the socket
carried the id of the channel. A socket of its address is its own unless it was only ever
given to channels that had the address before (`OwnSocket`).
-/

set_option autoImplicit false

namespace EChannel.LibTrans

open LibUtp

/-! ### Blocks in the history and in the queue -/

/-- The bytes of the recorded blocks that `sel` selects by socket and id, in order. -/
def reads (sel : SockId → Int → Bool) (h : List HistEvent) : QByteArray :=
  h.flatMap fun e =>
    match e with
    | .read s id buf => if sel s id then buf else []
    | _ => []

/-- The bytes read under the id. -/
def readsWith (id : Int) (h : List HistEvent) : QByteArray := reads (fun _ id' => id' = id) h

/-- The values that the user data of the socket has in the states of the run. -/
def userdataIn (s : SockId) (y : System) (as : List SysAction) : List Int :=
  ((y.utp.sockets s).map UTPSocket.userdata).toList ++
    match as with
    | [] => []
    | a :: as =>
      match y.step a with
      | none => []
      | some y' => userdataIn s y' as

/-- The socket was given the id of the channel, or is still without one. A socket that only
carried the ids of other channels is theirs: they had the address before. -/
def OwnSocket (y : System) (as : List SysAction) (id : Int) (s : SockId) : Prop :=
  id ∈ userdataIn s y as ∨ ∀ id' ∈ userdataIn s y as, id' = 0

instance (y : System) (as : List SysAction) (id : Int) (s : SockId) :
    Decidable (OwnSocket y as id s) :=
  inferInstanceAs (Decidable (_ ∨ _))

/-- The bytes that libutp passed to `callback_on_read` for the sockets of the address that
`own` selects. -/
def readsFor (a : QString) (own : SockId → Prop) [DecidablePred own] (h : List HistEvent) :
    QByteArray :=
  reads (fun s _ => HistEvent.install a s ∈ h ∧ own s) h

/-- The bytes of the queued `utpRecv` signals with the id. -/
def recvs (id : Int) (sigs : List UtpSignal) : QByteArray :=
  sigs.flatMap fun sig =>
    match sig with
    | .utpRecv id' buf => if id' = id then buf else []
    | _ => []

/-- What is read in two histories in a row is what is read in the first, then in the second. -/
@[simp] theorem reads_append (sel : SockId → Int → Bool) (h h' : List HistEvent) :
    reads sel (h ++ h') = reads sel h ++ reads sel h' := by
  simp [reads]

/-- The case of `reads_append` for an id. -/
@[simp] theorem readsWith_append (id : Int) (h h' : List HistEvent) :
    readsWith id (h ++ h') = readsWith id h ++ readsWith id h' := reads_append _ h h'

/-- The queued bytes of an id are those of the signals from front to back. -/
@[simp] theorem recvs_append (id : Int) (sigs sigs' : List UtpSignal) :
    recvs id (sigs ++ sigs') = recvs id sigs ++ recvs id sigs' := by
  simp [recvs]

/-- Without a selected block there is nothing to read. -/
theorem reads_eq_nil {sel : SockId → Int → Bool} {h : List HistEvent}
    (hsel : ∀ s id buf, HistEvent.read s id buf ∈ h → sel s id = false) : reads sel h = [] := by
  refine List.flatMap_eq_nil_iff.mpr fun e he => ?_
  cases e with
  | read s id buf => simp [hsel s id buf he]
  | _ => rfl

/-- When the first selection is part of the second, the two select the same bytes exactly when
the second adds empty blocks only. -/
theorem reads_eq_iff {sel sel' : SockId → Int → Bool} :
    ∀ h : List HistEvent,
      (∀ s id buf, HistEvent.read s id buf ∈ h → sel s id = true → sel' s id = true) →
      (reads sel h).length ≤ (reads sel' h).length ∧
        (reads sel h = reads sel' h ↔ ∀ s id buf, HistEvent.read s id buf ∈ h →
          sel' s id = true → buf ≠ [] → sel s id = true) := by
  intro h
  induction h with
  | nil => intro _; simp [reads]
  | cons e h ih =>
    intro hsub
    obtain ⟨hle, hiff⟩ := ih fun s id buf he => hsub s id buf (List.mem_cons_of_mem _ he)
    cases e with
    | read s id buf =>
      have hs := hsub s id buf List.mem_cons_self
      have hcons : ∀ sel : SockId → Int → Bool, reads sel (.read s id buf :: h)
          = (if sel s id then buf else []) ++ reads sel h := fun _ => rfl
      rw [hcons, hcons]
      have hforall : (∀ s' id' buf', HistEvent.read s' id' buf' ∈ HistEvent.read s id buf :: h →
          sel' s' id' = true → buf' ≠ [] → sel s' id' = true) ↔
          (sel' s id = true → buf ≠ [] → sel s id = true) ∧
            ∀ s' id' buf', HistEvent.read s' id' buf' ∈ h →
              sel' s' id' = true → buf' ≠ [] → sel s' id' = true := by
        constructor
        · exact fun hall => ⟨hall s id buf List.mem_cons_self,
            fun s' id' buf' he => hall s' id' buf' (List.mem_cons_of_mem _ he)⟩
        · rintro ⟨hhead, htail⟩ s' id' buf' he
          rcases List.mem_cons.mp he with heq | he
          · cases heq
            exact hhead
          · exact htail s' id' buf' he
      rw [hforall]
      cases hsel : sel s id with
      | true =>
        have hsel' := hs hsel
        simp only [hsel', if_true]
        exact ⟨by simpa using hle, by simpa using hiff⟩
      | false =>
        cases hsel' : sel' s id with
        | false => simpa using ⟨hle, hiff⟩
        | true =>
          -- The second selection adds this block, so it has to be empty.
          simp only [if_true, Bool.false_eq_true, if_false, List.nil_append, List.length_append]
          refine ⟨by omega, ?_⟩
          by_cases hbuf : buf = []
          · simpa [hbuf] using hiff
          · have hpos : 0 < buf.length := List.length_pos_iff.mpr hbuf
            constructor
            · intro heq
              have := congrArg List.length heq
              rw [List.length_append] at this
              omega
            · exact fun hall => absurd (hall.1 trivial hbuf) (by simp)
    | _ =>
      refine ⟨hle, Iff.trans hiff ?_⟩
      simp

/-- Without a signal of the id no byte of it is queued. -/
theorem recvs_eq_nil {id : Int} {sigs : List UtpSignal}
    (hsig : ∀ buf, UtpSignal.utpRecv id buf ∉ sigs) : recvs id sigs = [] := by
  refine List.flatMap_eq_nil_iff.mpr fun sig hs => ?_
  cases sig with
  | utpRecv id' buf =>
    by_cases heq : id' = id
    · subst heq
      exact absurd hs (hsig buf)
    · simp [heq]
  | _ => rfl

/-! ### What a step of the uTP thread reads -/

namespace UtpHandle

variable {st st' : UtpHandle} {a : UtpAction}

/-- The events and signals that a step appends: a block is read under the user data of its
socket, and exactly the blocks read are signalled. -/
structure ReadStep (st st' : UtpHandle) (es : List HistEvent) (sigs : List UtpSignal) :
    Prop where
  hist : st'.hist = st.hist ++ es
  outbox : st'.outbox = st.outbox ++ sigs
  recvs_eq : ∀ id, recvs id sigs = readsWith id es
  tagged : ∀ s id buf, HistEvent.read s id buf ∈ es →
    ∃ sock, st.sockets s = some sock ∧ sock.userdata = id
  signalled : ∀ id buf, UtpSignal.utpRecv id buf ∈ sigs → ∃ s, HistEvent.read s id buf ∈ es

/-- A step that reads nothing. -/
theorem ReadStep.silent {es : List HistEvent} {sigs : List UtpSignal}
    (hhist : st'.hist = st.hist ++ es) (hout : st'.outbox = st.outbox ++ sigs)
    (hes : ∀ s id buf, HistEvent.read s id buf ∉ es)
    (hsigs : ∀ id buf, UtpSignal.utpRecv id buf ∉ sigs) : ReadStep st st' es sigs where
  hist := hhist
  outbox := hout
  recvs_eq id := by
    rw [recvs_eq_nil (hsigs id)]
    exact (reads_eq_nil fun s id buf he => absurd he (hes s id buf)).symm
  tagged s id buf he := absurd he (hes s id buf)
  signalled id buf hs := absurd hs (hsigs id buf)

/-- What the part of a step before the loop over the write queue reads. -/
theorem BaseStep.readStep (h : BaseStep st a st') : ∃ es sigs, ReadStep st st' es sigs := by
  -- Only the callback for read bytes makes such an event or signal.
  have hnone : ∃ es sigs, ReadStep st st es sigs :=
    ⟨[], [], .silent (List.append_nil _).symm (List.append_nil _).symm (by simp) (by simp)⟩
  have hclose : ∀ s, ∃ es sigs, ReadStep st (st.utpClose s) es sigs := fun s =>
    utpClose_rule (P := fun u => ∃ es sigs, ReadStep st u es sigs)
      (fun _ => ⟨_, [], .silent rfl (List.append_nil _).symm (by simp) (by simp)⟩)
      fun _ _ => ⟨_, [], .silent rfl (List.append_nil _).symm (by simp) (by simp)⟩
  cases h with
  | connectToPeer peerAddr connectID seed hcolon hfree =>
    exact ⟨_, _, .silent rfl rfl (by simp) (by simp)⟩
  | setAcceptConnID peerAddr connectID =>
    exact setAcceptConnID_rule (P := fun u => ∃ es sigs, ReadStep st u es sigs) hnone
      fun _ _ _ _ => ⟨[], [], .silent (List.append_nil _).symm (List.append_nil _).symm
        (by simp) (by simp)⟩
  | onCloseSocket peerAddr connectID =>
    exact onCloseSocket_rule (P := fun u => ∃ es sigs, ReadStep st u es sigs) hnone hclose
  | enqueue peerAddr buf o =>
    exact ⟨_, [], .silent rfl (List.append_nil _).symm (by simp) (by simp)⟩
  | processLoop o => exact hnone
  | accept peerAddr connid o hcolon hfree => exact ⟨_, _, .silent rfl rfl (by simp) (by simp)⟩
  | connect s sock o hs hstate => exact ⟨_, _, .silent rfl rfl (by simp) (by simp)⟩
  | writable s sock o hs hstate =>
    exact ⟨[], [], .silent (List.append_nil _).symm (List.append_nil _).symm (by simp) (by simp)⟩
  | read s sock buf o hs hstate =>
    refine ⟨[.read s sock.userdata buf], [.utpRecv sock.userdata buf], rfl, rfl, fun id => ?_,
      fun s' id buf' he => ?_, fun id buf' hs' => ?_⟩
    · simp [recvs, readsWith, reads]
    · cases List.mem_singleton.mp he
      exact ⟨sock, hs, rfl⟩
    · cases List.mem_singleton.mp hs'
      exact ⟨s, List.mem_singleton_self _⟩
  | eof s sock o hs hstate =>
    exact ⟨_, [], .silent rfl (List.append_nil _).symm (by simp) (by simp)⟩
  | error s sock o hs =>
    exact ⟨[], [], .silent (List.append_nil _).symm (List.append_nil _).symm (by simp) (by simp)⟩
  | expire s sock o hs hstate =>
    exact ⟨[], [], .silent (List.append_nil _).symm (List.append_nil _).symm (by simp) (by simp)⟩
  | destroying s sock o hs hstate => exact ⟨_, _, .silent rfl rfl (by simp) (by simp)⟩
  | sendto peerAddr pkt o =>
    exact ⟨[], _, .silent (List.append_nil _).symm rfl (by simp) (by simp)⟩

/-- What a step of the uTP thread reads: the loop over the write queue reads nothing. -/
theorem step_readStep (h : st.step a = some st') : ∃ es sigs, ReadStep st st' es sigs := by
  obtain ⟨mid, hmid, rfl⟩ := step_base h
  obtain ⟨es, sigs, hr⟩ := hmid.readStep
  have hw := endStep_wrote mid a
  obtain ⟨es', hes', hwrite⟩ := hw.hist
  obtain ⟨sigs', hsigs', hidle⟩ := hw.outbox
  have hread : ∀ s id buf, HistEvent.read s id buf ∉ es' := fun s id buf he => by
    cases hwrite _ he
  have hrecv : ∀ id buf, UtpSignal.utpRecv id buf ∉ sigs' := fun id buf hs => by
    cases hidle _ hs
  refine ⟨es ++ es', sigs ++ sigs', by rw [hes', hr.hist, List.append_assoc],
    by rw [hsigs', hr.outbox, List.append_assoc], fun id => ?_, fun s id buf he => ?_,
    fun id buf hs => ?_⟩
  · have hnil : readsWith id es' = [] :=
      reads_eq_nil fun s id buf he => absurd he (hread s id buf)
    rw [recvs_append, readsWith_append, hr.recvs_eq, recvs_eq_nil (hrecv id), hnil]
  · exact hr.tagged s id buf ((List.mem_append.mp he).resolve_right (hread s id buf))
  · obtain ⟨s, hs'⟩ := hr.signalled id buf ((List.mem_append.mp hs).resolve_right (hrecv id buf))
    exact ⟨s, List.mem_append_left _ hs'⟩

/-- The socket of an installed address gets an id by one of the two requests that carry
ids. -/
def Names (a : UtpAction) (addr : QString) (id : Int) : Prop :=
  (∃ seed, a = .connectToPeer addr id seed) ∨ a = .setAcceptConnID addr id

/-- Where the user data of a socket comes from: it was there before the step, or the step sets
it for an address that the socket is installed for. -/
theorem BaseStep.userdata (hinst : Installed st) (h : BaseStep st a st') {s : SockId}
    {sock' : UTPSocket} (hs : st'.sockets s = some sock') (hne : sock'.userdata ≠ 0) :
    (∃ sock, st.sockets s = some sock ∧ sock.userdata = sock'.userdata) ∨
      ∃ addr, Names a addr sock'.userdata ∧ HistEvent.install addr s ∈ st'.hist := by
  -- A step that replaces one record and keeps its user data.
  have hset : ∀ {s₀ : SockId} {sock₀ sock₁ : UTPSocket}, st.sockets s₀ = some sock₀ →
      Function.update st.sockets s₀ (some sock₁) s = some sock' →
      sock₁.userdata = sock₀.userdata →
      ∃ sock, st.sockets s = some sock ∧ sock.userdata = sock'.userdata := by
    intro s₀ sock₀ sock₁ hs₀ hs' hud
    rcases update_cases hs' with ⟨rfl, heq⟩ | ⟨-, hold⟩
    · cases heq
      exact ⟨sock₀, hs₀, hud.symm⟩
    · exact ⟨sock', hold, rfl⟩
  have hclose : ∀ s₀, (st.utpClose s₀).sockets s = some sock' →
      ∃ sock, st.sockets s = some sock ∧ sock.userdata = sock'.userdata := by
    intro s₀
    exact utpClose_rule (P := fun u => u.sockets s = some sock' → _)
      (fun _ hs' => ⟨sock', hs', rfl⟩) fun sock₀ hs₀ hs' => hset hs₀ hs' sock₀.close_userdata
  cases h with
  | connectToPeer peerAddr connectID seed hcolon hfree =>
    rcases update_cases hs with ⟨rfl, heq⟩ | ⟨-, hold⟩
    · cases heq
      exact Or.inr ⟨peerAddr, Or.inl ⟨seed, rfl⟩, List.mem_append_right _ List.mem_cons_self⟩
    · exact Or.inl ⟨sock', hold, rfl⟩
  | setAcceptConnID peerAddr connectID =>
    revert hs
    refine setAcceptConnID_rule (P := fun u => u.sockets s = some sock' →
      (∃ sock, st.sockets s = some sock ∧ sock.userdata = sock'.userdata) ∨
        ∃ addr, Names _ addr sock'.userdata ∧ HistEvent.install addr s ∈ u.hist)
      (fun hs => Or.inl ⟨sock', hs, rfl⟩) fun s₀ sock₀ hl hs₀ hs => ?_
    rcases update_cases hs with ⟨rfl, heq⟩ | ⟨-, hold⟩
    · cases heq
      exact Or.inr ⟨peerAddr, Or.inr rfl, hinst.current peerAddr s hl⟩
    · exact Or.inl ⟨sock', hold, rfl⟩
  | onCloseSocket peerAddr connectID =>
    left
    revert hs
    exact onCloseSocket_rule (P := fun u => u.sockets s = some sock' → _)
      (fun hs => ⟨sock', hs, rfl⟩) hclose
  | enqueue peerAddr buf o => exact Or.inl ⟨sock', hs, rfl⟩
  | processLoop o => exact Or.inl ⟨sock', hs, rfl⟩
  | accept peerAddr connid o hcolon hfree =>
    rcases update_cases hs with ⟨rfl, heq⟩ | ⟨-, hold⟩
    · -- An accepted socket starts with the user data 0.
      cases heq
      exact absurd rfl hne
    · exact Or.inl ⟨sock', hold, rfl⟩
  | connect s₀ sock₀ o hs₀ hstate => exact Or.inl (hset hs₀ hs rfl)
  | writable s₀ sock₀ o hs₀ hstate => exact Or.inl (hset hs₀ hs rfl)
  | read s₀ sock₀ buf o hs₀ hstate => exact Or.inl ⟨sock', hs, rfl⟩
  | eof s₀ sock₀ o hs₀ hstate => exact Or.inl (hset hs₀ hs rfl)
  | error s₀ sock₀ o hs₀ => exact Or.inl (hset hs₀ hs sock₀.fail_userdata)
  | expire s₀ sock₀ o hs₀ hstate => exact Or.inl (hset hs₀ hs sock₀.expire_userdata)
  | destroying s₀ sock₀ o hs₀ hstate =>
    rcases update_cases hs with ⟨-, heq⟩ | ⟨-, hold⟩
    · cases heq
    · exact Or.inl ⟨sock', hold, rfl⟩
  | sendto peerAddr pkt o => exact Or.inl ⟨sock', hs, rfl⟩

/-- Where the user data of a socket comes from, for a whole step. -/
theorem step_userdata (hinst : Installed st) (h : st.step a = some st') {s : SockId}
    {sock' : UTPSocket} (hs : st'.sockets s = some sock') (hne : sock'.userdata ≠ 0) :
    (∃ sock, st.sockets s = some sock ∧ sock.userdata = sock'.userdata) ∨
      ∃ addr, Names a addr sock'.userdata ∧ HistEvent.install addr s ∈ st'.hist := by
  obtain ⟨mid, hmid, rfl⟩ := step_base h
  have hw := endStep_wrote mid a
  obtain ⟨es, hes, -⟩ := hw.hist
  obtain ⟨sock₁, hs₁, hud⟩ : ∃ sock₁, mid.sockets s = some sock₁ ∧
      sock₁.userdata = sock'.userdata := by
    rcases hw.sockets s with heq | ⟨sock₁, hs₁, -, hs'⟩
    · exact ⟨sock', heq ▸ hs, rfl⟩
    · rw [hs'] at hs
      cases hs
      exact ⟨sock₁, hs₁, rfl⟩
  rw [← hud] at hne ⊢
  rcases hmid.userdata hinst hs₁ hne with hold | ⟨addr, hnames, hi⟩
  · exact Or.inl hold
  · rw [hes]
    exact Or.inr ⟨addr, hnames, List.mem_append_left _ hi⟩

end UtpHandle

/-! ### Every id has an owner -/

open UTPManager UtpHandle

/-- The ids in the requests, on the sockets, in the history and in the signals belong to
negotiated channels, and a socket carries the id of a channel whose address it was installed
for. -/
structure IdsOwned (y : System) : Prop where
  registry : Registry y.main
  installed : Installed y.utp
  reqs : ∀ r ∈ y.main.outbox, OwnedReq y.main r
  socks : ∀ s sock, y.utp.sockets s = some sock → sock.userdata ≠ 0 →
    ∃ a, Owner y.main sock.userdata a ∧ HistEvent.install a s ∈ y.utp.hist
  tagged : ∀ s id buf, HistEvent.read s id buf ∈ y.utp.hist → id ≠ 0 →
    ∃ a, Owner y.main id a ∧ HistEvent.install a s ∈ y.utp.hist
  signalled : ∀ id buf, UtpSignal.utpRecv id buf ∈ y.utp.outbox → id ≠ 0 →
    ∃ a, Owner y.main id a

namespace IdsOwned

variable {y : System} {m' : UTPManager}

/-- A step of the main thread that keeps the owners and queues owned requests. -/
theorem main (h : IdsOwned y) (hreg : Registry m')
    (hmono : ∀ id a, Owner y.main id a → Owner m' id a)
    (hout : ∃ reqs, m'.outbox = y.main.outbox ++ reqs ∧ ∀ r ∈ reqs, OwnedReq m' r) :
    IdsOwned { y with main := m' } where
  registry := hreg
  installed := h.installed
  reqs r hr := by
    obtain ⟨reqs, hreqs, howned⟩ := hout
    rw [hreqs] at hr
    rcases List.mem_append.mp hr with hold | hnew
    · exact (h.reqs r hold).mono hmono
    · exact howned r hnew
  socks s sock hs hne := by
    obtain ⟨a, ho, hi⟩ := h.socks s sock hs hne
    exact ⟨a, hmono _ a ho, hi⟩
  tagged s id buf hr hne := by
    obtain ⟨a, ho, hi⟩ := h.tagged s id buf hr hne
    exact ⟨a, hmono id a ho, hi⟩
  signalled id buf hs hne := by
    obtain ⟨a, ho⟩ := h.signalled id buf hs hne
    exact ⟨a, hmono id a ho⟩

/-- A step of the main thread that keeps the registered channels and requests under their
ids. -/
theorem kept (h : IdsOwned y) (hk : Kept y.main m')
    (hout : ∃ reqs, m'.outbox = y.main.outbox ++ reqs ∧ ∀ r ∈ reqs, OwnedReq y.main r) :
    IdsOwned { y with main := m' } := by
  have hmono : ∀ id a, Owner y.main id a → Owner m' id a := fun _ _ ho => ho.kept hk
  obtain ⟨reqs, hreqs, howned⟩ := hout
  exact h.main (h.registry.kept hk) hmono ⟨reqs, hreqs, fun r hr => (howned r hr).mono hmono⟩

/-- Taking a signal out of the queue. -/
theorem popSignal (h : IdsOwned y) {sig : UtpSignal} {rest : List UtpSignal}
    (hout : y.utp.outbox = sig :: rest) :
    IdsOwned { y with utp := { y.utp with outbox := rest } } :=
  { h with
    installed := { h.installed with }
    signalled := fun id buf hs => h.signalled id buf (hout ▸ List.mem_cons_of_mem _ hs) }

/-- Taking a request out of the queue. -/
theorem popRequest (h : IdsOwned y) {r : UtpRequest} {rest : List UtpRequest}
    (hout : y.main.outbox = r :: rest) :
    IdsOwned { y with main := { y.main with outbox := rest } } :=
  { h with
    registry := { h.registry with }
    reqs := fun r' hr => h.reqs r' (hout ▸ List.mem_cons_of_mem _ hr) }

/-- A step of the uTP thread whose id, if it carries one, is owned. -/
theorem utp (h : IdsOwned y) {a : UtpAction} {u : UtpHandle} (hu : y.utp.step a = some u)
    (hnames : ∀ addr id, Names a addr id → Owner y.main id addr) :
    IdsOwned { y with utp := u } := by
  obtain ⟨es, sigs, hr⟩ := step_readStep hu
  have hforth : ∀ e, e ∈ y.utp.hist → e ∈ u.hist := fun e he => by
    rw [hr.hist]
    exact List.mem_append_left _ he
  have htagged : ∀ s id buf, HistEvent.read s id buf ∈ es → id ≠ 0 →
      ∃ a, Owner y.main id a ∧ HistEvent.install a s ∈ u.hist := by
    intro s id buf he hne
    -- The block carries the user data that its socket had when it was read.
    obtain ⟨sock, hs, rfl⟩ := hr.tagged s id buf he
    obtain ⟨a, ho, hi⟩ := h.socks s sock hs hne
    exact ⟨a, ho, hforth _ hi⟩
  refine
    { registry := h.registry
      installed := step_rule Installed.closed hu fun _ hmid => h.installed.base hmid
      reqs := h.reqs
      socks := fun s sock' hs hne => ?_
      tagged := fun s id buf he hne => ?_
      signalled := fun id buf hs hne => ?_ }
  · rcases step_userdata h.installed hu hs hne with ⟨sock, hs₀, hud⟩ | ⟨addr, hn, hi⟩
    · rw [← hud] at hne ⊢
      obtain ⟨a, ho, hi⟩ := h.socks s sock hs₀ hne
      exact ⟨a, ho, hforth _ hi⟩
    · exact ⟨addr, hnames addr _ hn, hi⟩
  · change HistEvent.read s id buf ∈ u.hist at he
    rw [hr.hist] at he
    rcases List.mem_append.mp he with hold | hnew
    · obtain ⟨a, ho, hi⟩ := h.tagged s id buf hold hne
      exact ⟨a, ho, hforth _ hi⟩
    · exact htagged s id buf hnew hne
  · change UtpSignal.utpRecv id buf ∈ u.outbox at hs
    rw [hr.outbox] at hs
    rcases List.mem_append.mp hs with hold | hnew
    · exact h.signalled id buf hold hne
    · obtain ⟨s, he⟩ := hr.signalled id buf hnew
      obtain ⟨a, ho, -⟩ := htagged s id buf he hne
      exact ⟨a, ho⟩

/-- The step lemma. -/
theorem step {y' : System} {a : SysAction} (h : IdsOwned y) (hstep : y.step a = some y') :
    IdsOwned y' := by
  have hnil : ∀ {m' : UTPManager}, m'.outbox = y.main.outbox →
      ∃ reqs, m'.outbox = y.main.outbox ++ reqs ∧ ∀ r ∈ reqs, OwnedReq y.main r :=
    fun hout => ⟨[], by rw [hout, List.append_nil], by simp⟩
  cases System.step_cases hstep with
  | onICENego c isSuccess isRelay address =>
    rcases onICENego_cases y.main c isSuccess isRelay address with
      ⟨hn, rfl⟩ | hsame | ⟨hn, hfail⟩
    · refine h.main (h.registry.nego hn) (fun _ _ ho => ho.nego hn) ?_
      rw [onICENego_success hn]
      by_cases hctl : (y.main.channels c).isControl = true
      · refine ⟨[.connectToPeer address (y.main.connID + 1)], by simp [hctl], fun r hr => ?_⟩
        rw [List.mem_singleton.mp hr, ← onICENego_success hn]
        exact owner_nego hn
      · exact ⟨[], by simp [hctl], by simp⟩
    · rw [hsame]
      exact h
    · rw [hfail]
      exact h.kept (Kept.negoFailed hn) (hnil rfl)
  | onICEReadPkt pkt peerAddr =>
    exact h.kept (Kept.request _ _) ⟨[_], rfl, by simp [OwnedReq]⟩
  | write c data =>
    refine h.kept (Kept.write _ c data) ?_
    simp only [UTPManager.write]
    split
    · exact hnil rfl
    · exact ⟨[_], rfl, by simp [OwnedReq]⟩
  | close c =>
    refine h.kept (Kept.close _ c) ?_
    simp only [UTPManager.close]
    split
    · exact hnil rfl
    · exact ⟨[_], rfl, by simp [OwnedReq]⟩
  | connectSuccess peerAddr c hc =>
    obtain ⟨reqs, hreqs, hpack⟩ := connectSuccess_outbox y.main c peerAddr
    refine h.kept (Kept.connectSuccess h.registry (Or.inr hc)) ⟨reqs, hreqs, fun r hr => ?_⟩
    rw [hpack r hr]
    trivial
  | mainSlot sig rest hout =>
    exact (h.popSignal hout).kept (Kept.slot h.registry sig) (slot_outbox h.registry sig)
  | utpSlot req rest seed o u hout hu =>
    have howned := h.reqs req (hout ▸ List.mem_cons_self)
    refine (h.popRequest hout).utp hu fun addr id hn => ?_
    -- The two requests that carry an id are those that `OwnedReq` is about.
    rcases hn with ⟨seed', heq⟩ | heq <;> cases req <;> cases heq <;> exact howned
  | utpEvent e o u hu =>
    refine h.utp hu fun addr id hn => ?_
    rcases hn with ⟨seed, heq⟩ | heq <;> cases heq

/-- No id is given out at first. -/
theorem init {channels : ChanId → TransportChannel}
    (hnew : ∀ c, (channels c).iceNego = false) : IdsOwned (System.init channels) where
  registry := Registry.init hnew
  installed := Installed.init
  reqs _ hr := by cases hr
  socks _ _ hs := by cases hs
  tagged _ _ _ hr := by cases hr
  signalled _ _ hs := by cases hs

end IdsOwned

/-! ### The accounting of received data -/

/-- A channel that keeps its received bytes. -/
theorem UTPManager.setChannel_received {m : UTPManager} {c : ChanId} {ch : TransportChannel}
    (h : ch.received = (m.channels c).received) (c' : ChanId) :
    ((m.setChannel c ch).channels c').received = (m.channels c').received := by
  by_cases heq : c' = c
  · subst heq
    simpa [UTPManager.setChannel] using h
  · simp [UTPManager.setChannel, Function.update_of_ne heq]

/-- `connectSuccess` hands no byte to a channel. -/
theorem UTPManager.connectSuccess_received (m : UTPManager) (c : ChanId) (a : QString)
    (c' : ChanId) : ((m.connectSuccess c a).channels c').received = (m.channels c').received := by
  simp only [UTPManager.connectSuccess]
  split
  · exact setChannel_received (by rfl) c'
  · split <;> exact setChannel_received (by rfl) c'

/-- Only `utpRecv` hands data to a channel. -/
theorem UTPManager.slot_received (m : UTPManager) {sig : UtpSignal}
    (hsig : ∀ id buf, sig ≠ .utpRecv id buf) (c' : ChanId) :
    ((m.slot sig).channels c').received = (m.channels c').received := by
  generalize hm : m.slot sig = m'
  cases slot_cases hm with
  | utpRecv id buf c hl => exact absurd rfl (hsig id buf)
  | utpAccept peerAddr c hl => exact connectSuccess_received _ c peerAddr c'
  | utpConnected connectID c hl => exact connectSuccess_received _ c _ c'
  | utpError peerAddr connectID c hl => exact setChannel_received (by rfl) c'
  | _ => rfl

/-- A registered channel has received, or will receive from the queue, what was read under
its id; a channel that has not negotiated has received nothing. -/
structure Delivery (y : System) : Prop where
  owned : IdsOwned y
  fresh : ∀ c, (y.main.channels c).iceNego = false → (y.main.channels c).received = []
  account : ∀ id c, y.main.hashIDChannels.lookup id = some c →
    (y.main.channels c).received ++ recvs id y.utp.outbox = readsWith id y.utp.hist

namespace Delivery

variable {y y' : System}

/-- A step of the main thread that registers and delivers nothing. -/
theorem kept (h : Delivery y) {m' : UTPManager} (howned : IdsOwned { y with main := m' })
    (hk : Kept y.main m')
    (hrecv : ∀ c, (m'.channels c).received = (y.main.channels c).received) :
    Delivery { y with main := m' } where
  owned := howned
  fresh c hn := (hrecv c).trans (h.fresh c (hk.iceNego c ▸ hn))
  account id c hl := by
    rw [hrecv c]
    exact h.account id c (hk.hashIDChannels id c hl)

/-- A negotiation registers a fresh id, under which nothing has been read. -/
theorem nego (h : Delivery y) {c : ChanId} {isRelay : Bool} {address : QString}
    (hn : (y.main.channels c).iceNego = false)
    (howned : IdsOwned { y with main := y.main.onICENego c true isRelay address }) :
    Delivery { y with main := y.main.onICENego c true isRelay address } := by
  have hother : ∀ c', ((y.main.onICENego c true isRelay address).channels c').received
      = (y.main.channels c').received := by
    intro c'
    by_cases heq : c' = c
    · subst heq
      rw [onICENego_channels_self hn]
    · rw [onICENego_channels_ne hn heq]
  have hid := h.owned.registry.connID
  -- `createUtpSocket` counts upwards, so no socket or signal can carry the new id.
  have hunused : ∀ a, ¬ Owner y.main (y.main.connID + 1) a := fun a ho => by
    have := ho.le h.owned.registry
    omega
  refine ⟨howned, fun c' hn' => ?_, fun id c' hl => ?_⟩
  · rw [hother c']
    refine h.fresh c' ?_
    by_cases heq : c' = c
    · rw [heq]
      exact hn
    · rwa [onICENego_channels_ne hn heq] at hn'
  · rw [hother c']
    rw [onICENego_success hn] at hl
    rcases QHash.lookup_of_insert hl with ⟨rfl, rfl⟩ | ⟨-, hold⟩
    · have hrecvs : recvs (y.main.connID + 1) y.utp.outbox = [] := by
        refine recvs_eq_nil fun buf hs => ?_
        obtain ⟨a, ho⟩ := h.owned.signalled _ buf hs (by omega)
        exact hunused a ho
      have hreads : readsWith (y.main.connID + 1) y.utp.hist = [] := by
        refine reads_eq_nil fun s id buf he => ?_
        by_contra hne
        have hid' : id = y.main.connID + 1 := by simpa using hne
        obtain ⟨a, ho, -⟩ := h.owned.tagged s id buf he (by omega)
        exact hunused a (hid' ▸ ho)
      rw [h.fresh c' hn, hrecvs, hreads]
      rfl
    · exact h.account id c' hold

/-- `onUtpRecv` moves a block from the queue to the channel of its id. -/
theorem deliver (h : Delivery y) {id₀ : Int} {buf : QByteArray} {rest : List UtpSignal}
    (hout : y.utp.outbox = .utpRecv id₀ buf :: rest)
    (howned : IdsOwned { main := y.main.slot (.utpRecv id₀ buf)
                         utp := { y.utp with outbox := rest } }) :
    Delivery { main := y.main.slot (.utpRecv id₀ buf)
               utp := { y.utp with outbox := rest } } := by
  have hk := Kept.slot h.owned.registry (.utpRecv id₀ buf)
  have hrecvs : ∀ id, recvs id (.utpRecv id₀ buf :: rest)
      = (if id₀ = id then buf else []) ++ recvs id rest := fun _ => rfl
  have hslot : ∀ c, ((y.main.slot (.utpRecv id₀ buf)).channels c).received
      = (y.main.channels c).received ++
        if y.main.hashIDChannels.lookup id₀ = some c then buf else [] := by
    intro c
    simp only [slot, onUtpRecv]
    cases hl : y.main.hashIDChannels.lookup id₀ with
    | none => simp
    | some c₀ =>
      by_cases heq : c = c₀
      · subst heq
        simp [UTPManager.setChannel]
      · have hne : ¬ c₀ = c := fun hc => heq hc.symm
        simp [UTPManager.setChannel, Function.update_of_ne heq, hne]
  refine ⟨howned, fun c hn => ?_, fun id c hl => ?_⟩
  · have hn' : (y.main.channels c).iceNego = false := hk.iceNego c ▸ hn
    have hnot : y.main.hashIDChannels.lookup id₀ ≠ some c := by
      intro hl
      rw [(h.owned.registry.byID id₀ c hl).1] at hn'
      cases hn'
    show ((y.main.slot (.utpRecv id₀ buf)).channels c).received = []
    rw [hslot, if_neg hnot, h.fresh c hn', List.append_nil]
  · have hl' := hk.hashIDChannels id c hl
    have hacc := h.account id c hl'
    rw [hout, hrecvs] at hacc
    show ((y.main.slot (.utpRecv id₀ buf)).channels c).received ++ recvs id rest = _
    rw [hslot, ← hacc, List.append_assoc]
    -- The block is for this channel exactly when it has this id.
    congr 2
    by_cases hid : id₀ = id
    · rw [if_pos hid, if_pos (hid ▸ hl')]
    · have hnot : y.main.hashIDChannels.lookup id₀ ≠ some c := by
        intro hl₀
        exact hid ((h.owned.registry.byID id₀ c hl₀).2.symm.trans
          (h.owned.registry.byID id c hl').2)
      rw [if_neg hid, if_neg hnot]

/-- What the uTP thread reads it also signals. -/
theorem account_utp (h : Delivery y) {a : UtpAction} {u : UtpHandle}
    (hu : y.utp.step a = some u) (id : Int) (c : ChanId)
    (hl : y.main.hashIDChannels.lookup id = some c) :
    (y.main.channels c).received ++ recvs id u.outbox = readsWith id u.hist := by
  obtain ⟨es, sigs, hr⟩ := step_readStep hu
  rw [hr.outbox, hr.hist, recvs_append, readsWith_append, hr.recvs_eq, ← List.append_assoc,
    h.account id c hl]

/-- The step lemma. -/
theorem step {a : SysAction} (h : Delivery y) (hstep : y.step a = some y') : Delivery y' := by
  have howned := h.owned.step hstep
  cases System.step_cases hstep with
  | onICENego c isSuccess isRelay address =>
    rcases onICENego_cases y.main c isSuccess isRelay address with
      ⟨hn, rfl⟩ | hsame | ⟨hn, hfail⟩
    · exact h.nego hn howned
    · rw [hsame]
      exact h
    · rw [hfail] at howned ⊢
      exact h.kept howned (Kept.negoFailed hn) (setChannel_received rfl)
  | onICEReadPkt pkt peerAddr => exact h.kept howned (Kept.request _ _) fun _ => rfl
  | write c data =>
    refine h.kept howned (Kept.write _ c data) fun c' => ?_
    simp only [UTPManager.write]
    split <;> exact setChannel_received (by rfl) c'
  | close c =>
    refine h.kept howned (Kept.close _ c) fun c' => ?_
    simp only [UTPManager.close]
    split
    · rfl
    · exact setChannel_received (by rfl) c'
  | connectSuccess peerAddr c hc =>
    exact h.kept howned (Kept.connectSuccess h.owned.registry (Or.inr hc))
      (connectSuccess_received _ c peerAddr)
  | mainSlot sig rest hout =>
    -- Every other signal leaves both the received data and the queued blocks alone.
    have hk := Kept.slot h.owned.registry sig
    by_cases hsig : ∃ id buf, sig = .utpRecv id buf
    · obtain ⟨id, buf, rfl⟩ := hsig
      exact h.deliver hout howned
    · have hsame := slot_received y.main fun id buf heq => hsig ⟨id, buf, heq⟩
      refine ⟨howned, fun c hn => (hsame c).trans (h.fresh c (hk.iceNego c ▸ hn)),
        fun id c hl => ?_⟩
      have hacc := h.account id c (hk.hashIDChannels id c hl)
      have hskip : recvs id (sig :: rest) = recvs id rest := by
        cases sig with
        | utpRecv id' buf => exact absurd ⟨id', buf, rfl⟩ hsig
        | _ => rfl
      rw [hout, hskip] at hacc
      rw [hsame c]
      exact hacc
  | utpSlot req rest seed o u hout hu => exact ⟨howned, h.fresh, h.account_utp hu⟩
  | utpEvent e o u hu => exact ⟨howned, h.fresh, h.account_utp hu⟩

/-- Nothing is read at first. -/
theorem init (channels : ChanId → TransportChannel)
    (hnew : ∀ c, (channels c).iceNego = false ∧ (channels c).received = []) :
    Delivery (System.init channels) where
  owned := IdsOwned.init fun c => (hnew c).1
  fresh c _ := (hnew c).2
  account _ _ hl := by cases hl

end Delivery

/-! ### The main result -/

namespace System

/-- A block is read under the user data that its socket has before the step. -/
theorem step_read {y y' : System} {a : SysAction} (h : y.step a = some y') {s : SockId}
    {id : Int} {buf : QByteArray} (he : HistEvent.read s id buf ∈ y'.utp.hist) :
    HistEvent.read s id buf ∈ y.utp.hist ∨
      ∃ sock, y.utp.sockets s = some sock ∧ sock.userdata = id := by
  have hutp : ∀ {b : UtpAction} {u : UtpHandle}, y.utp.step b = some u →
      HistEvent.read s id buf ∈ u.hist → HistEvent.read s id buf ∈ y.utp.hist ∨
        ∃ sock, y.utp.sockets s = some sock ∧ sock.userdata = id := by
    intro b u hu he
    obtain ⟨es, sigs, hr⟩ := step_readStep hu
    rw [hr.hist] at he
    rcases List.mem_append.mp he with hold | hnew
    · exact Or.inl hold
    · exact Or.inr (hr.tagged s id buf hnew)
  cases System.step_cases h with
  | utpSlot req rest seed o u hout hu => exact hutp hu he
  | utpEvent e o u hu => exact hutp hu he
  | _ => exact Or.inl he

/-- What a run reads on a socket is read under a value that the user data of the socket has. -/
theorem mem_userdataIn_of_read {s : SockId} {id : Int} {buf : QByteArray} :
    ∀ (as : List SysAction) (y u : System), run step y as = some u →
      HistEvent.read s id buf ∈ u.utp.hist →
      HistEvent.read s id buf ∈ y.utp.hist ∨ id ∈ userdataIn s y as := by
  intro as
  induction as with
  | nil =>
    intro y u hrun he
    cases hrun
    exact Or.inl he
  | cons a as ih =>
    intro y u hrun he
    obtain ⟨y', hst, hrest⟩ := run_cons hrun
    rw [userdataIn, hst]
    rcases ih y' u hrest he with hread | hlater
    · rcases step_read hst hread with hold | ⟨sock, hs, rfl⟩
      · exact Or.inl hold
      · exact Or.inr (List.mem_append_left _ (by simp [hs]))
    · exact Or.inr (List.mem_append_right _ hlater)

/-- `createUtpSocket` has registered the channel at the address, and `onUtpError` has not
removed it. -/
def Registered (y : System) (c : ChanId) (a : QString) : Prop :=
  y.main.hashChannels.lookup a = some c ∧
    y.main.hashIDChannels.lookup (y.main.channels c).utpConnectID = some c

end System

end EChannel.LibTrans
