import EChannel.Proofs.LibTrans.IceSteps
import EChannel.Proofs.LibTrans.SdpRoundTrip

/-!
# `EChannel.Proofs.LibTrans.IceLifetime`: transports, the pointers to them and their count

`cbOnIceComplete` destroys a transport on every failure. Two books are kept about it elsewhere.
`ICE_Session::icest` is cleared by `iceNegoResult`, that is for a failed negotiation only, so a
failed initialisation or keep-alive leaves a pointer to a destroyed transport.
`iceCfg.ref` goes down in `destoryIceApp`, that is for a transport stopped by the destructor
only, so every transport that fails stays counted, and the runtime is not torn down.

`noDangling_iff` and `countExact_iff` are the exact conditions.
-/

set_option autoImplicit false

namespace EChannel.LibTrans

namespace IceApp

variable {pj : PjSock} {s s' mid : IceApp} {k : IceSockId} {sock : PjIceSocket}

/-! ### Pointers to transports -/

/-- No socket points to a destroyed transport, and every transport that was handed to pjnath
was live then. -/
structure NoDangling (s : IceApp) : Prop where
  icest : ∀ k sock t, s.sockets k = some sock → sock.icest = some t → s.isLive (some t) = true
  handed : ∀ fn icest live, IceEvent.handed fn icest live ∈ s.log → live = true

/-- The step is no failure of an initialisation or a keep-alive of a transport whose socket is
there. -/
def SparesPointer (s : IceApp) : IceAction → Prop
  | .onIceComplete t op false _ _ =>
    op = .negotiation ∨ ∀ strans, s.transports t = some strans → s.sockets strans.userData = none
  | _ => True

/-- Sockets and live transports point at each other, and a negotiated socket has its
transport. -/
structure Held (s : IceApp) : Prop where
  bound : ∀ t strans, s.transports t = some strans → t < s.nextTrans
  fresh : ∀ k sock, s.sockets k = some sock → k < s.nextSocket
  known : ∀ t strans, s.transports t = some strans → strans.userData < s.nextSocket
  held : ∀ k sock t, s.sockets k = some sock → sock.icest = some t →
    ∃ strans, s.transports t = some strans ∧ strans.userData = k
  owned : ∀ t strans sock, s.transports t = some strans →
    s.sockets strans.userData = some sock → sock.icest = some t
  sNego : ∀ k sock, s.sockets k = some sock → sock.sNego = true → sock.icest ≠ none
  log : ∀ fn icest live, IceEvent.handed fn icest live ∈ s.log → live = true

namespace Held

/-- There is no socket and no transport at first. -/
theorem init : Held IceApp.init where
  bound _ _ h := by cases h
  fresh _ _ h := by cases h
  known _ _ h := by cases h
  held _ _ _ h := by cases h
  owned _ _ _ h := by cases h
  sNego _ _ h := by cases h
  log _ _ _ h := by cases h

/-- The invariant gives the property. -/
theorem noDangling (h : Held s) : NoDangling s where
  icest k sock t hs hicest := by
    obtain ⟨strans, ht, -⟩ := h.held k sock t hs hicest
    simp [IceApp.isLive, ht]
  handed := h.log

/-- The pointer of a socket is live when it is not null. -/
theorem isLive_icest (h : Held s) (hs : s.sockets k = some sock) (hne : sock.icest ≠ none) :
    s.isLive sock.icest = true := by
  obtain ⟨t, ht⟩ := Option.ne_none_iff_exists'.mp hne
  rw [ht]
  exact h.noDangling.icest k sock t hs ht

/-- The log of a frame step. -/
theorem log_frame (h : Held s) (hf : Frame s s') :
    ∀ fn icest live, IceEvent.handed fn icest live ∈ s'.log → live = true := by
  intro fn icest live hmem
  obtain ⟨es, hes, hby⟩ := hf.log
  rw [hes] at hmem
  rcases List.mem_append.mp hmem with hold | hnew
  · exact h.log fn icest live hold
  · obtain ⟨hlive, k, sock, hs, rfl, hnego⟩ := hby _ hnew
    rw [hlive]
    refine h.isLive_icest hs fun hnone => ?_
    exact h.sNego k sock hs (hnego hnone) hnone

/-- A frame step keeps the invariant. -/
theorem frame (h : Held s) (hf : Frame s s') : Held s' where
  bound t strans ht := by
    obtain ⟨strans₀, ht₀, -⟩ := hf.transport ht
    rw [hf.nextTrans]
    exact h.bound t strans₀ ht₀
  fresh k sock hs := by
    obtain ⟨sock₀, hs₀, -⟩ := hf.socket hs
    rw [hf.nextSocket]
    exact h.fresh k sock₀ hs₀
  known t strans ht := by
    obtain ⟨strans₀, ht₀, hud⟩ := hf.transport ht
    rw [hf.nextSocket, ← hud]
    exact h.known t strans₀ ht₀
  held k sock t hs hicest := by
    obtain ⟨sock₀, hs₀, hicest₀, -⟩ := hf.socket hs
    obtain ⟨strans₀, ht₀, hud₀⟩ := h.held k sock₀ t hs₀ (hicest₀.trans hicest)
    -- A frame step may change the session of a transport, but not its user data.
    have hud := hf.userData t
    rw [ht₀, Option.map_some] at hud
    obtain ⟨strans, ht, heq⟩ := Option.map_eq_some_iff.mp hud
    exact ⟨strans, ht, heq.trans hud₀⟩
  owned t strans sock ht hs := by
    obtain ⟨strans₀, ht₀, hud⟩ := hf.transport ht
    obtain ⟨sock₀, hs₀, hicest₀, -⟩ := hf.socket hs
    rw [← hud] at hs₀
    exact hicest₀ ▸ h.owned t strans₀ sock₀ ht₀ hs₀
  sNego k sock hs hnego := by
    obtain ⟨sock₀, hs₀, hicest₀, hnego₀⟩ := hf.socket hs
    exact hicest₀ ▸ h.sNego k sock₀ hs₀ (hnego₀.trans hnego)
  log := h.log_frame hf

/-- A step that works on the runtime. -/
theorem prepared (h : Held s) (hp : Prepared s mid) : Held mid where
  bound := by
    rw [hp.transports, hp.nextTrans]
    exact h.bound
  fresh := by
    rw [hp.sockets, hp.nextSocket]
    exact h.fresh
  known := by
    rw [hp.transports, hp.nextSocket]
    exact h.known
  held := by
    rw [hp.sockets, hp.transports]
    exact h.held
  owned := by
    rw [hp.sockets, hp.transports]
    exact h.owned
  sNego := by
    rw [hp.sockets]
    exact h.sNego
  log fn icest live hmem := by
    obtain ⟨es, hes, hrt⟩ := hp.log
    rw [hes] at hmem
    rcases List.mem_append.mp hmem with hold | hnew
    · exact h.log fn icest live hold
    · cases hrt _ hnew

/-- A new socket has no transport. -/
theorem newSocket (h : Held s) : Held s.newSocket where
  bound := h.bound
  fresh k sock hs := by
    rcases update_cases hs with ⟨rfl, -⟩ | ⟨-, hs⟩
    · exact Nat.lt_succ_self _
    · exact Nat.lt_succ_of_lt (h.fresh k sock hs)
  known t strans ht := Nat.lt_succ_of_lt (h.known t strans ht)
  held k sock t hs hicest := by
    rcases update_cases hs with ⟨-, heq⟩ | ⟨-, hs⟩
    · cases heq
      cases hicest
    · exact h.held k sock t hs hicest
  owned t strans sock ht hs := by
    rcases update_cases hs with ⟨heq, -⟩ | ⟨-, hs⟩
    · exact absurd heq (Nat.ne_of_lt (h.known t strans ht))
    · exact h.owned t strans sock ht hs
  sNego k sock hs hnego := by
    rcases update_cases hs with ⟨-, heq⟩ | ⟨-, hs⟩
    · cases heq
      cases hnego
    · exact h.sNego k sock hs hnego
  log := h.log

/-- A transport is made for a socket that has none. -/
theorem addTrans (h : Held s) (hs : s.sockets k = some sock) (hnone : sock.icest = none) :
    Held (s.addTrans k sock) where
  bound t strans ht := by
    rcases update_cases ht with ⟨rfl, -⟩ | ⟨-, ht⟩
    · exact Nat.lt_succ_self _
    · exact Nat.lt_succ_of_lt (h.bound t strans ht)
  fresh k' sock' hs' := by
    rcases update_cases hs' with ⟨rfl, -⟩ | ⟨-, hs'⟩
    · exact h.fresh k' sock hs
    · exact h.fresh k' sock' hs'
  known t strans ht := by
    rcases update_cases ht with ⟨-, heq⟩ | ⟨-, ht⟩
    · cases heq
      exact h.fresh k sock hs
    · exact h.known t strans ht
  held k' sock' t hs' hicest := by
    rcases update_cases hs' with ⟨rfl, heq⟩ | ⟨hne, hs'⟩
    · cases heq
      cases hicest
      exact ⟨_, Function.update_self _ _ _, rfl⟩
    · obtain ⟨strans, ht, hud⟩ := h.held k' sock' t hs' hicest
      -- The number of the new transport is above those in use.
      have hne' : t ≠ s.nextTrans := Nat.ne_of_lt (h.bound t strans ht)
      exact ⟨strans, (Function.update_of_ne hne' _ _).trans ht, hud⟩
  owned t strans sock' ht hs' := by
    rcases update_cases ht with ⟨rfl, heq⟩ | ⟨-, ht⟩
    · cases heq
      rcases update_cases hs' with ⟨-, heq⟩ | ⟨hne, -⟩
      · cases heq
        rfl
      · exact absurd rfl hne
    · rcases update_cases hs' with ⟨hud, -⟩ | ⟨-, hs'⟩
      · -- The socket would already point to this transport.
        have := h.owned t strans sock ht (hud ▸ hs)
        rw [hnone] at this
        cases this
      · exact h.owned t strans sock' ht hs'
  sNego k' sock' hs' hnego := by
    rcases update_cases hs' with ⟨-, heq⟩ | ⟨-, hs'⟩
    · cases heq
      simp
    · exact h.sNego k' sock' hs' hnego
  log := h.log

/-- The negotiation of a transport is reported to its socket. -/
theorem negotiated (h : Held s) {t : StransId} {strans : Strans}
    (ht : s.transports t = some strans) (hs : s.sockets strans.userData = some sock) :
    Held (s.setSocket strans.userData { sock with sNego := true }) where
  bound := h.bound
  fresh k' sock' hs' := by
    rcases update_cases hs' with ⟨rfl, -⟩ | ⟨-, hs'⟩
    · exact h.fresh _ sock hs
    · exact h.fresh k' sock' hs'
  known := h.known
  held k' sock' t' hs' hicest := by
    rcases update_cases hs' with ⟨rfl, heq⟩ | ⟨-, hs'⟩
    · cases heq
      exact h.held _ sock t' hs hicest
    · exact h.held k' sock' t' hs' hicest
  owned t' strans' sock' ht' hs' := by
    rcases update_cases hs' with ⟨hud, heq⟩ | ⟨-, hs'⟩
    · cases heq
      exact h.owned t' strans' sock ht' (hud ▸ hs)
    · exact h.owned t' strans' sock' ht' hs'
  sNego k' sock' hs' hnego := by
    rcases update_cases hs' with ⟨-, heq⟩ | ⟨-, hs'⟩
    · cases heq
      have := h.owned t strans sock ht hs
      simp [this]
    · exact h.sNego k' sock' hs' hnego
  log := h.log

/-- A transport goes away together with the pointer of its socket, if the socket is there. -/
theorem destroy (h : Held s) {t : StransId} {strans : Strans} {entry : Option PjIceSocket}
    (ht : s.transports t = some strans)
    (hentry : ∀ sock', entry = some sock' →
      sock'.icest = none ∧ sock'.sNego = false ∧ ∃ sock, s.sockets strans.userData = some sock)
    {s' : IceApp} (htr : s'.transports = Function.update s.transports t none)
    (hsk : s'.sockets = Function.update s.sockets strans.userData entry)
    (hnt : s'.nextTrans = s.nextTrans) (hns : s'.nextSocket = s.nextSocket)
    (hlog : ∀ fn icest live, IceEvent.handed fn icest live ∈ s'.log → live = true) :
    Held s' where
  bound t' strans' ht' := by
    rw [htr] at ht'
    rw [hnt]
    rcases update_cases ht' with ⟨-, heq⟩ | ⟨-, ht'⟩
    · cases heq
    · exact h.bound t' strans' ht'
  fresh k' sock' hs' := by
    rw [hsk] at hs'
    rw [hns]
    rcases update_cases hs' with ⟨rfl, heq⟩ | ⟨-, hs'⟩
    · obtain ⟨-, -, sock, hs⟩ := hentry sock' heq
      exact h.fresh _ sock hs
    · exact h.fresh k' sock' hs'
  known t' strans' ht' := by
    rw [htr] at ht'
    rw [hns]
    rcases update_cases ht' with ⟨-, heq⟩ | ⟨-, ht'⟩
    · cases heq
    · exact h.known t' strans' ht'
  held k' sock' t' hs' hicest := by
    rw [hsk] at hs'
    rw [htr]
    rcases update_cases hs' with ⟨rfl, heq⟩ | ⟨hne, hs'⟩
    · obtain ⟨hnone, -⟩ := hentry sock' heq
      rw [hnone] at hicest
      cases hicest
    · -- Another socket holds a transport of its own, which is not the destroyed one.
      obtain ⟨strans', ht', hud⟩ := h.held k' sock' t' hs' hicest
      have hne' : t' ≠ t := by
        rintro rfl
        rw [ht] at ht'
        cases ht'
        exact hne hud.symm
      exact ⟨strans', (Function.update_of_ne hne' _ _).trans ht', hud⟩
  owned t' strans' sock' ht' hs' := by
    rw [htr] at ht'
    rw [hsk] at hs'
    rcases update_cases ht' with ⟨-, heq⟩ | ⟨hne, ht'⟩
    · cases heq
    · rcases update_cases hs' with ⟨hud, heq⟩ | ⟨-, hs'⟩
      · -- Two live transports of one socket are the same.
        obtain ⟨-, -, sock, hs⟩ := hentry sock' heq
        have hold := h.owned t strans sock ht hs
        rw [h.owned t' strans' sock ht' (hud ▸ hs)] at hold
        exact absurd (Option.some.inj hold) hne
      · exact h.owned t' strans' sock' ht' hs'
  sNego k' sock' hs' hnego := by
    rw [hsk] at hs'
    rcases update_cases hs' with ⟨-, heq⟩ | ⟨-, hs'⟩
    · obtain ⟨-, hfalse, -⟩ := hentry sock' heq
      rw [hfalse] at hnego
      cases hnego
    · exact h.sNego k' sock' hs' hnego
  log := hlog

/-- A socket goes away and its transport, if it has one, stays. -/
theorem dropSocket (h : Held s) (k : IceSockId) : Held (s.dropSocket k) where
  bound := h.bound
  fresh k' sock' hs' := by
    rcases update_cases hs' with ⟨-, heq⟩ | ⟨-, hs'⟩
    · cases heq
    · exact h.fresh k' sock' hs'
  known := h.known
  held k' sock' t hs' hicest := by
    rcases update_cases hs' with ⟨-, heq⟩ | ⟨-, hs'⟩
    · cases heq
    · exact h.held k' sock' t hs' hicest
  owned t strans sock' ht hs' := by
    rcases update_cases hs' with ⟨-, heq⟩ | ⟨-, hs'⟩
    · cases heq
    · exact h.owned t strans sock' ht hs'
  sNego k' sock' hs' hnego := by
    rcases update_cases hs' with ⟨-, heq⟩ | ⟨-, hs'⟩
    · cases heq
    · exact h.sNego k' sock' hs' hnego
  log := h.log

/-- `destoryIceApp` works on the runtime and on nothing else. -/
theorem destoryIceApp (h : Held s) : Held s.destoryIceApp := by
  unfold IceApp.destoryIceApp
  dsimp only
  split
  · exact ⟨h.bound, h.fresh, h.known, h.held, h.owned, h.sNego, h.log⟩
  · exact ⟨h.bound, h.fresh, h.known, h.held, h.owned, h.sNego, h.log⟩

/-- The step lemma: a step that spares the pointers keeps the invariant. -/
theorem step {a : IceAction} (h : Held s) (hst : IceApp.step pj s a = some s')
    (hc : s.SparesPointer a) : Held s' := by
  cases step_cases hst with
  | newSocket => exact h.newSocket
  | created k sock r hs hcr =>
    have hmid : Prepared s (s.prepare r).1.recordCreate := (prepare_prepared s r).record rfl
    exact (h.prepared hmid).addTrans (hmid.sockets ▸ hs) hcr.1
  | notCreated k sock r s₁ hs hcr hnot =>
    exact (h.prepared hnot.prepared).frame (Frame.emit _ _ _)
  | quiet _ _ _ _ hf => exact h.frame hf
  | negotiated t strans sock isRelay connIp ht hs =>
    exact (h.negotiated ht hs).frame (Frame.emit _ _ _)
  | negoFailed t strans sock isRelay connIp ht hs =>
    -- The transport goes, and `iceNegoResult` clears the pointer in the same step.
    have hdest : Held ((s.stransDestroy t).setSocket strans.userData
        { sock with sNego := false, icest := none }) := by
      refine h.destroy ht ?_ rfl rfl rfl rfl h.log
      intro sock' heq
      cases heq
      exact ⟨rfl, rfl, sock, hs⟩
    exact hdest.frame (Frame.emit _ _ _)
  | dropped t strans op isRelay connIp _ ht hop hf =>
    -- Nothing clears the pointer, and the condition says that there is none.
    have hgone : s.sockets strans.userData = none := by
      rcases hop with hop | hgone
      · rcases hc with hneg | hgone
        · exact absurd hneg hop
        · exact hgone strans ht
      · exact hgone
    have hsk : s.sockets = Function.update s.sockets strans.userData none := by
      rw [← hgone, Function.update_eq_self]
    have hdest : Held (s.stransDestroy t) := by
      refine h.destroy ht ?_ rfl hsk rfl rfl h.log
      intro sock' heq
      cases heq
    exact hdest.frame hf
  | deleted k sock s₁ hs hsess hf => exact (h.frame hf).dropSocket k
  | stopped k sock t strans hs hicest ht =>
    have hhand : Frame s (s.hand .stopSession sock.icest) :=
      Frame.hand hs .stopSession fun hnone => by rw [hicest] at hnone; cases hnone
    have hud : strans.userData = k := by
      obtain ⟨strans', ht', hud⟩ := h.held k sock t hs hicest
      cases ht.symm.trans ht'
      exact hud
    subst hud
    have hdest : Held (((s.hand .stopSession sock.icest).stransDestroy t).dropSocket
        strans.userData) := by
      refine (h.frame hhand).destroy ht ?_ rfl rfl rfl rfl (h.frame hhand).log
      intro sock' heq
      cases heq
    rw [dropSocket_destoryIceApp]
    exact hdest.destoryIceApp

/-- A failure that the socket does not note leaves the pointer behind. -/
theorem dangles {a : IceAction} (h : Held s) (hst : IceApp.step pj s a = some s')
    (hP : NoDangling s') : s.SparesPointer a := by
  cases step_cases hst with
  | dropped t strans op isRelay connIp _ ht hop hf =>
    -- If the socket is there, it points to the transport, before the step and after it.
    refine Or.inr fun strans' ht' => ?_
    cases ht.symm.trans ht'
    by_contra hsome
    obtain ⟨sock, hs⟩ := Option.ne_none_iff_exists'.mp hsome
    have hicest := h.owned t strans sock ht hs
    have hkey := hf.key strans.userData
    have hs₁ : (s.stransDestroy t).sockets strans.userData = some sock := hs
    rw [hs₁, Option.map_some] at hkey
    obtain ⟨sock', hs', heq⟩ := Option.map_eq_some_iff.mp hkey
    have hicest' : sock'.icest = some t := (congrArg Prod.fst heq).trans hicest
    have hlive := hP.icest _ sock' t hs' hicest'
    rw [hf.isLive] at hlive
    simp [IceApp.isLive, stransDestroy] at hlive
  | negoFailed t strans sock isRelay connIp ht hs => exact Or.inl rfl
  | newSocket => trivial
  | created => trivial
  | notCreated => trivial
  | negotiated => trivial
  | deleted => trivial
  | stopped => trivial
  | quiet _ _ hstart hcb hf =>
    cases a with
    | onIceComplete t op success isRelay connIp =>
      cases success with
      | true => trivial
      | false => exact absurd rfl (hcb t op isRelay connIp)
    | _ => trivial

end Held

/-- Along a run, no socket ever points to a destroyed transport and none is handed to pjnath,
exactly when pjnath reports no failed initialisation and no failed keep-alive for a transport
whose socket is there. -/
theorem noDangling_iff (pj : PjSock) (as : List IceAction) (u : IceApp)
    (hrun : run (step pj) init as = some u) :
    Always (step pj) NoDangling init as ↔ AllSteps (step pj) SparesPointer init as :=
  always_iff_allSteps (fun _ _ _ h hst hc => h.step hst hc) (fun _ h => h.noDangling)
    (fun _ _ _ h hst hP => h.dangles hst hP) as init u Held.init hrun

/-- A session from the start of its socket to the destructor. -/
theorem noDangling_iff_session :
    Always (step inetSock) NoDangling init
      [.newSocket, .startICESocket 0 ⟨true, true, true, true⟩, .onIceComplete 0 .init true false [],
        .localSdp 0 true, .onIceComplete 0 .negotiation true false ['a', ':'], .iceSentTo 0,
        .deleteSocket 0] :=
  (noDangling_iff inetSock _ _ rfl).mpr
    ⟨trivial, fun _ _ => ⟨trivial, fun _ _ => ⟨trivial, fun _ _ => ⟨trivial, fun _ _ =>
      ⟨trivial, fun _ _ => ⟨trivial, fun _ _ => ⟨trivial, fun _ _ => trivial⟩⟩⟩⟩⟩⟩⟩

/-- The initialisation of the only transport fails. The transport is destroyed, the socket
points to it, and the destructor hands it to pjnath. -/
theorem not_noDangling_initFailed :
    ∃ s u, run (step inetSock) init
        [.newSocket, .startICESocket 0 ⟨true, true, true, true⟩,
          .onIceComplete 0 .init false false []] = some s ∧
      step inetSock s (.deleteSocket 0) = some u ∧ ¬ NoDangling s ∧
      IceEvent.handed .stopSession (some 0) false ∈ u.log := by
  refine ⟨_, _, rfl, rfl, fun h => ?_, ?_⟩
  · have hlive := h.icest 0 _ 0 rfl rfl
    cases hlive
  · exact List.mem_cons_of_mem _ (List.mem_cons_of_mem _ List.mem_cons_self)

/-! ### The count of transports -/

/-- What the reference count has to do in one step: it is the number of live transports
afterwards, it does not wrap below zero, and the runtime is torn down when the last transport
goes and not otherwise. -/
structure CountExact (s s' : IceApp) : Prop where
  ref : s'.cfg.ref = s'.liveSet.card
  noUnderflow : s'.cfg.ref ≤ s.cfg.ref + 1
  teardown : s'.teardowns =
    if s.liveSet.card = 1 ∧ s'.liveSet.card = 0 then s.teardowns + 1 else s.teardowns

/-- The step is no failure of a transport, and it makes no transport when the count is at the
largest `unsigned`. -/
def KeepsCount (s : IceApp) : IceAction → Prop
  | .onIceComplete _ _ success _ _ => success = true
  | .startICESocket k r =>
    ∀ sock, s.sockets k = some sock → s.Creates sock r → s.cfg.ref ≠ 4294967295
  | _ => True

/-- The transports that count are those that are live. -/
theorem mem_liveSet {t : StransId} (hbound : ∀ t strans, s.transports t = some strans →
    t < s.nextTrans) : t ∈ s.liveSet ↔ (s.transports t).isSome = true := by
  unfold liveSet
  rw [Finset.mem_filter, Finset.mem_range]
  refine ⟨fun h => h.2, fun h => ⟨?_, h⟩⟩
  obtain ⟨strans, ht⟩ := Option.isSome_iff_exists.mp h
  exact hbound t strans ht

/-- Two states with the same live transports count alike. -/
theorem liveSet_congr (hnext : s'.nextTrans = s.nextTrans)
    (hlive : ∀ t, (s'.transports t).isSome = (s.transports t).isSome) :
    s'.liveSet = s.liveSet := by
  unfold liveSet
  rw [hnext]
  exact Finset.filter_congr fun t _ => by rw [hlive t]

/-- A frame step keeps the live transports. -/
theorem Frame.liveSet (h : Frame s s') : s'.liveSet = s.liveSet :=
  liveSet_congr h.nextTrans h.isSome

/-- The work on the runtime keeps the live transports. -/
theorem Prepared.liveSet (h : Prepared s mid) : mid.liveSet = s.liveSet :=
  liveSet_congr h.nextTrans fun t => by rw [h.transports]

/-- A new transport is one more. -/
theorem liveSet_addTrans (hbound : ∀ t strans, s.transports t = some strans → t < s.nextTrans)
    (k : IceSockId) (sock : PjIceSocket) :
    (s.addTrans k sock).liveSet = insert s.nextTrans s.liveSet := by
  have hbound' : ∀ t strans, (s.addTrans k sock).transports t = some strans →
      t < (s.addTrans k sock).nextTrans := by
    intro t strans ht
    rcases update_cases ht with ⟨rfl, -⟩ | ⟨-, ht⟩
    · exact Nat.lt_succ_self _
    · exact Nat.lt_succ_of_lt (hbound t strans ht)
  ext t
  rw [mem_liveSet hbound', Finset.mem_insert, mem_liveSet hbound]
  by_cases heq : t = s.nextTrans
  · subst heq
    simp [addTrans]
  · simp [addTrans, heq]

/-- A transport that is destroyed is one less. -/
theorem liveSet_stransDestroy
    (hbound : ∀ t strans, s.transports t = some strans → t < s.nextTrans) (t : StransId) :
    (s.stransDestroy t).liveSet = s.liveSet.erase t := by
  have hbound' : ∀ t' strans, (s.stransDestroy t).transports t' = some strans →
      t' < (s.stransDestroy t).nextTrans := by
    intro t' strans ht'
    rcases update_cases ht' with ⟨-, heq⟩ | ⟨-, ht'⟩
    · cases heq
    · exact hbound t' strans ht'
  ext t'
  rw [mem_liveSet hbound', Finset.mem_erase, mem_liveSet hbound]
  by_cases heq : t' = t
  · subst heq
    simp [stransDestroy]
  · simp [stransDestroy, heq]

/-- What a step does to the count, one constructor for each change. -/
inductive CountStep (s : IceApp) : IceAction → IceApp → Prop
  | same (a : IceAction) (s' : IceApp)
    (hcb : ∀ t op isRelay connIp, a ≠ .onIceComplete t op false isRelay connIp)
    (hcr : ∀ k r sock, a = .startICESocket k r → s.sockets k = some sock → ¬ s.Creates sock r)
    (hlive : s'.liveSet = s.liveSet) (href : s'.cfg.ref = s.cfg.ref)
    (htd : s'.teardowns = s.teardowns) : CountStep s a s'
  | created (k : IceSockId) (sock : PjIceSocket) (r : StartResult) (s' : IceApp)
    (hs : s.sockets k = some sock) (hcr : s.Creates sock r)
    (hlive : s'.liveSet.card = s.liveSet.card + 1)
    (href : s'.cfg.ref = incUnsigned s.cfg.ref) (htd : s'.teardowns = s.teardowns) :
    CountStep s (.startICESocket k r) s'
  | failed (t : StransId) (op : StransOp) (isRelay : Bool) (connIp : QString) (s' : IceApp)
    (hlive : s'.liveSet.card + 1 = s.liveSet.card) (href : s'.cfg.ref = s.cfg.ref) :
    CountStep s (.onIceComplete t op false isRelay connIp) s'
  | stopped (k : IceSockId) (s' : IceApp) (hlive : s'.liveSet.card + 1 = s.liveSet.card)
    (href : s'.cfg.ref = decUnsigned s.cfg.ref)
    (htd : s'.teardowns = if decUnsigned s.cfg.ref = 0 then s.teardowns + 1 else s.teardowns) :
    CountStep s (.deleteSocket k) s'

/-- A live transport that is destroyed is one less. -/
theorem card_stransDestroy
    (hbound : ∀ t strans, s.transports t = some strans → t < s.nextTrans) {t : StransId}
    {strans : Strans} (ht : s.transports t = some strans) :
    (s.stransDestroy t).liveSet.card + 1 = s.liveSet.card := by
  rw [liveSet_stransDestroy hbound]
  exact Finset.card_erase_add_one ((mem_liveSet hbound).mpr (by simp [ht]))

/-- `destoryIceApp` counts down. -/
theorem destoryIceApp_ref (s : IceApp) : s.destoryIceApp.cfg.ref = decUnsigned s.cfg.ref := by
  unfold destoryIceApp
  dsimp only
  split <;> rfl

/-- `destoryIceApp` tears the runtime down when the count reaches 0. -/
theorem destoryIceApp_teardowns (s : IceApp) : s.destoryIceApp.teardowns =
    if decUnsigned s.cfg.ref = 0 then s.teardowns + 1 else s.teardowns := by
  unfold destoryIceApp
  dsimp only
  split <;> rfl

/-- `destoryIceApp` destroys no transport. -/
theorem destoryIceApp_liveSet (s : IceApp) : s.destoryIceApp.liveSet = s.liveSet := by
  unfold destoryIceApp
  dsimp only
  split <;> rfl

/-- What a step does to the count, one constructor for each kind. -/
theorem step_count {a : IceAction} (h : Held s) (hst : step pj s a = some s') :
    CountStep s a s' := by
  have hbound := h.bound
  cases step_cases hst with
  | newSocket => exact .same _ _ (by simp) (by simp) rfl rfl rfl
  | created k sock r hs hcr =>
    have hmid : Prepared s (s.prepare r).1.recordCreate := (prepare_prepared s r).record rfl
    have hbound' : ∀ t strans, (s.prepare r).1.recordCreate.transports t = some strans →
        t < (s.prepare r).1.recordCreate.nextTrans := by
      rw [hmid.transports, hmid.nextTrans]
      exact hbound
    -- The new transport is not live yet, so that the set grows by one.
    have hnew : (s.prepare r).1.recordCreate.nextTrans ∉ (s.prepare r).1.recordCreate.liveSet := by
      rw [mem_liveSet hbound', Option.isSome_iff_exists]
      rintro ⟨strans, ht⟩
      exact Nat.lt_irrefl _ (hbound' _ strans ht)
    refine .created k sock r _ hs hcr ?_ ?_ hmid.teardowns
    · rw [liveSet_addTrans hbound', Finset.card_insert_of_notMem hnew, hmid.liveSet]
    · exact congrArg incUnsigned hmid.ref
  | notCreated k sock r s₁ hs hcr hnot =>
    have hprep : Prepared s s₁ := hnot.prepared
    refine .same _ _ (by simp) ?_ (hprep.emit _ _).liveSet hprep.ref hprep.teardowns
    -- A call that creates nothing says so: its socket and result are these.
    intro k' r' sock' heq' hs'
    cases heq'
    cases hs.symm.trans hs'
    exact hcr
  | quiet _ _ hstart hcb hf =>
    exact .same _ _ hcb (fun k r _ heq => absurd heq (hstart k r)) hf.liveSet
      (by rw [hf.cfg]) hf.teardowns
  | negotiated t strans sock isRelay connIp ht hs => exact .same _ _ (by simp) (by simp) rfl rfl rfl
  | negoFailed t strans sock isRelay connIp ht hs =>
    exact .failed t _ _ _ _ (card_stransDestroy hbound ht) rfl
  | dropped t strans op isRelay connIp _ ht hop hf =>
    refine .failed t _ _ _ _ ?_ (by rw [hf.cfg]; rfl)
    rw [hf.liveSet]
    exact card_stransDestroy hbound ht
  | deleted k sock s₁ hs hsess hf =>
    exact .same _ _ (by simp) (by simp) hf.liveSet (congrArg IceAppCfg.ref hf.cfg) hf.teardowns
  | stopped k sock t strans hs hicest ht =>
    refine .stopped k _ ?_ (destoryIceApp_ref _) (destoryIceApp_teardowns _)
    have hlive := destoryIceApp_liveSet ((s.hand .stopSession sock.icest).stransDestroy t)
    have hcard := card_stransDestroy hbound ht
    exact (congrArg (fun l => Finset.card l + 1) hlive).trans hcard

/-- A run that keeps the count spares the pointers too. -/
theorem KeepsCount.sparesPointer {a : IceAction} (h : s.KeepsCount a) : s.SparesPointer a := by
  cases a with
  | onIceComplete t op success isRelay connIp =>
    cases success with
    | true => trivial
    | false => cases h
  | _ => trivial

/-- One step from a state whose count is right. -/
theorem countExact_step_iff {a : IceAction} (h : Held s) (hcount : s.cfg.ref = s.liveSet.card)
    (hst : step pj s a = some s') : CountExact s s' ↔ s.KeepsCount a := by
  cases step_count h hst with
  | same _ _ hcb hcr hlive href htd =>
    constructor
    · intro _
      cases a with
      | onIceComplete t op success isRelay connIp =>
        cases success with
        | true => rfl
        | false => exact absurd rfl (hcb t op isRelay connIp)
      | startICESocket k r => exact fun sock hs hc => absurd hc (hcr k r sock rfl hs)
      | _ => trivial
    · intro _
      refine ⟨by rw [href, hlive, hcount], by omega, ?_⟩
      rw [htd, hlive, if_neg]
      omega
  | created k sock r _ hs hcr hlive href htd =>
    constructor
    · intro hexact sock' _ _ hmax
      have hwrap : s'.cfg.ref = 0 := by rw [href, incUnsigned, if_pos hmax]
      have := hexact.ref
      omega
    · intro hkeep
      have hmax : s.cfg.ref ≠ 4294967295 := hkeep sock hs hcr
      have hinc : s'.cfg.ref = s.cfg.ref + 1 := by rw [href, incUnsigned, if_neg hmax]
      refine ⟨by omega, by omega, ?_⟩
      rw [htd, if_neg]
      omega
  | failed t op isRelay connIp _ hlive href =>
    -- One transport less, and the count stays.
    constructor
    · intro hexact
      have := hexact.ref
      omega
    · intro hkeep
      cases hkeep
  | stopped k _ hlive href htd =>
    refine ⟨fun _ => trivial, fun _ => ?_⟩
    -- The transport that is stopped is counted, so the count does not wrap.
    have hdec : decUnsigned s.cfg.ref = s.cfg.ref - 1 := if_neg (by omega)
    rw [hdec] at href htd
    refine ⟨by omega, by omega, ?_⟩
    rw [htd]
    congr 1
    apply propext
    omega

/-- Along a run, `iceCfg.ref` is the number of live transports, never wraps below zero, and the
runtime is torn down exactly when the last transport goes, exactly when pjnath reports no
failure and no transport is made at the largest count. -/
theorem countExact_iff (pj : PjSock) (as : List IceAction) (u : IceApp)
    (hrun : run (step pj) init as = some u) :
    AllSteps (step pj) (fun s a => ∀ s', step pj s a = some s' → CountExact s s') init as ↔
      AllSteps (step pj) KeepsCount init as := by
  have hiff : ∀ s a s', (Held s ∧ s.cfg.ref = s.liveSet.card) → True →
      step pj s a = some s' →
      ((∀ s', step pj s a = some s' → CountExact s s') ↔ s.KeepsCount a) := by
    intro s a s' h _ hst
    rw [← countExact_step_iff h.1 h.2 hst]
    constructor
    · exact fun hall => hall s' hst
    · intro hexact s'' hst'
      rw [hst] at hst'
      cases hst'
      exact hexact
  refine allSteps_iff ?_ hiff as init u ⟨Held.init, rfl⟩ (allSteps_true as init) hrun
  intro s a s' h _ hst hkeep
  exact ⟨h.1.step hst hkeep.sparesPointer, ((countExact_step_iff h.1 h.2 hst).mpr hkeep).ref⟩

/-- Two sockets, each stopped with its session. -/
theorem countExact_iff_twoSockets :
    AllSteps (step inetSock) (fun s a => ∀ s', step inetSock s a = some s' → CountExact s s') init
      [.newSocket, .newSocket, .startICESocket 0 ⟨true, true, true, true⟩,
        .startICESocket 1 ⟨true, true, true, true⟩, .onIceComplete 0 .init true false [],
        .localSdp 0 true, .deleteSocket 0] := by
  refine (countExact_iff inetSock _ _ rfl).mpr ⟨trivial, fun _ h₁ => ⟨trivial, fun _ h₂ => ?_⟩⟩
  cases h₁
  cases h₂
  refine ⟨fun _ _ _ => by decide, fun _ h₃ => ?_⟩
  cases h₃
  refine ⟨fun _ _ _ => by decide, fun _ _ => ?_⟩
  exact ⟨rfl, fun _ _ => ⟨trivial, fun _ _ => ⟨trivial, fun _ _ => trivial⟩⟩⟩

/-- The negotiation of the only transport fails. No transport is live, the count is 1, and the
destructor of the socket does not tear the runtime down. -/
theorem not_countExact_negoFailed :
    ∃ s u, run (step inetSock) init
        [.newSocket,
          .startICESocket 0 ⟨true, true, true, true⟩, .onIceComplete 0 .init true false [],
          .localSdp 0 true, .onIceComplete 0 .negotiation false false []] = some s ∧
      s.liveSet = ∅ ∧ s.cfg.ref = 1 ∧ step inetSock s (.deleteSocket 0) = some u ∧
      u.cfg.ref = 1 ∧ u.teardowns = 0 :=
  ⟨_, _, rfl, rfl, rfl, rfl, rfl, rfl⟩

end IceApp

end EChannel.LibTrans
