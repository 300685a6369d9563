import EChannel.LibTrans.PjIceSocket

/-!
# `EChannel.Proofs.LibTrans.IceSteps`: what one step does to the ICE transports

Most steps leave the transports and the pointers to them alone: they read `icest`, hand it to
pjnath and note results (`Frame`). What is left makes a transport (`created`), destroys one in
the callback of pjnath (`dropped`, `negoFailed`) or in the destructor of its socket
(`stopped`), or removes a socket without its transport (`deleted`). `step_cases` says that
there is nothing else.

`startICESocket` works on the runtime before it makes a transport. `Prepared` is what this part
leaves alone.
-/

set_option autoImplicit false

namespace EChannel.LibTrans

/-- The event is one of the runtime. -/
def IceEvent.isRuntime : IceEvent → Bool
  | .handed _ _ _ => false
  | _ => true

/-- The members of a socket that say where its transport is. -/
def PjIceSocket.key (sock : PjIceSocket) : Option StransId × Bool := (sock.icest, sock.sNego)

namespace IceApp

variable {pj : PjSock} {s s' mid : IceApp} {k : IceSockId} {sock : PjIceSocket}

/-! ### Steps that leave the transports alone -/

/-- A pointer that a step hands to pjnath is the one of a socket. A null pointer can only come
from `iceAppSendTo`, which asks `_sNego` instead of the pointer. -/
def HandedBy (s : IceApp) : IceEvent → Prop
  | .handed _ icest live => live = s.isLive icest ∧
    ∃ k sock, s.sockets k = some sock ∧ sock.icest = icest ∧ (icest = none → sock.sNego = true)
  | _ => False

/-- The step leaves the transports, the pointers to them and the runtime alone. -/
structure Frame (s s' : IceApp) : Prop where
  cfg : s'.cfg = s.cfg
  teardowns : s'.teardowns = s.teardowns
  nextSocket : s'.nextSocket = s.nextSocket
  nextTrans : s'.nextTrans = s.nextTrans
  userData : ∀ t, (s'.transports t).map Strans.userData = (s.transports t).map Strans.userData
  key : ∀ k, (s'.sockets k).map PjIceSocket.key = (s.sockets k).map PjIceSocket.key
  log : ∃ es, s'.log = s.log ++ es ∧ ∀ e ∈ es, s.HandedBy e

namespace Frame

/-- A frame keeps which transports are live. -/
theorem isSome (h : Frame s s') (t : StransId) :
    (s'.transports t).isSome = (s.transports t).isSome := by
  have := congrArg Option.isSome (h.userData t)
  simpa using this

/-- A frame keeps whether a pointer is live. -/
theorem isLive (h : Frame s s') (icest : Option StransId) : s'.isLive icest = s.isLive icest := by
  cases icest with
  | none => rfl
  | some t => exact h.isSome t

/-- A socket after a frame step was there before, with the same pointer. -/
theorem socket (h : Frame s s') (hs : s'.sockets k = some sock) :
    ∃ sock₀, s.sockets k = some sock₀ ∧ sock₀.icest = sock.icest ∧ sock₀.sNego = sock.sNego := by
  have hkey := h.key k
  rw [hs, Option.map_some] at hkey
  obtain ⟨sock₀, hs₀, heq⟩ := Option.map_eq_some_iff.mp hkey.symm
  exact ⟨sock₀, hs₀, congrArg Prod.fst heq, congrArg Prod.snd heq⟩

/-- A transport after a frame step was there before, with the same user data. -/
theorem transport (h : Frame s s') {t : StransId} {strans : Strans}
    (ht : s'.transports t = some strans) :
    ∃ strans₀, s.transports t = some strans₀ ∧ strans₀.userData = strans.userData := by
  have hud := h.userData t
  rw [ht, Option.map_some] at hud
  obtain ⟨strans₀, ht₀, heq⟩ := Option.map_eq_some_iff.mp hud.symm
  exact ⟨strans₀, ht₀, heq⟩

/-- What is handed to pjnath behind a frame step could be handed before it. -/
theorem handedBy (h : Frame s s') {e : IceEvent} (he : s'.HandedBy e) : s.HandedBy e := by
  cases e with
  | handed fn icest live =>
    obtain ⟨hlive, k, sock, hs, hicest, hnego⟩ := he
    obtain ⟨sock₀, hs₀, hicest₀, hnego₀⟩ := h.socket hs
    refine ⟨hlive.trans (h.isLive icest), k, sock₀, hs₀, hicest₀.trans hicest, fun hnone => ?_⟩
    rw [hnego₀]
    exact hnego hnone
  | _ => exact he.elim

/-- A state that does not change. -/
theorem refl (s : IceApp) : Frame s s :=
  ⟨rfl, rfl, rfl, rfl, fun _ => rfl, fun _ => rfl, [], by simp, by simp⟩

/-- Two frame steps in a row. -/
theorem trans {s'' : IceApp} (h : Frame s s') (h' : Frame s' s'') : Frame s s'' where
  cfg := h'.cfg.trans h.cfg
  teardowns := h'.teardowns.trans h.teardowns
  nextSocket := h'.nextSocket.trans h.nextSocket
  nextTrans := h'.nextTrans.trans h.nextTrans
  userData t := (h'.userData t).trans (h.userData t)
  key k := (h'.key k).trans (h.key k)
  log := by
    obtain ⟨es, hes, hby⟩ := h.log
    obtain ⟨es', hes', hby'⟩ := h'.log
    refine ⟨es ++ es', by rw [hes', hes, List.append_assoc], fun e he => ?_⟩
    rcases List.mem_append.mp he with he | he
    · exact hby e he
    · exact h.handedBy (hby' e he)

/-- A signal is emitted. -/
theorem emit (s : IceApp) (k : IceSockId) (sig : IceSignal) : Frame s (s.emit k sig) :=
  ⟨rfl, rfl, rfl, rfl, fun _ => rfl, fun _ => rfl, [], by simp [IceApp.emit], by simp⟩

/-- Other members of a socket change. -/
theorem setSocket {sock' : PjIceSocket} (hs : s.sockets k = some sock)
    (hkey : sock'.key = sock.key) : Frame s (s.setSocket k sock') where
  cfg := rfl
  teardowns := rfl
  nextSocket := rfl
  nextTrans := rfl
  userData _ := rfl
  key k' := by
    by_cases heq : k' = k
    · subst heq
      simp [IceApp.setSocket, hs, hkey]
    · simp [IceApp.setSocket, heq]
  log := ⟨[], by simp [IceApp.setSocket], by simp⟩

/-- A socket hands its pointer to pjnath. -/
theorem hand (hs : s.sockets k = some sock) (fn : IceFn)
    (hnego : sock.icest = none → sock.sNego = true) : Frame s (s.hand fn sock.icest) where
  cfg := rfl
  teardowns := rfl
  nextSocket := rfl
  nextTrans := rfl
  userData _ := rfl
  key _ := rfl
  log := by
    refine ⟨[.handed fn sock.icest (s.isLive sock.icest)], rfl, fun e he => ?_⟩
    cases List.mem_singleton.mp he
    exact ⟨rfl, k, sock, hs, rfl, hnego⟩

/-- The session of a transport comes or goes, and the transport stays. -/
theorem setSess (s : IceApp) (t : StransId) (hasSess : Bool) : Frame s (s.setSess t hasSess) := by
  unfold IceApp.setSess
  split
  · rename_i strans ht
    refine ⟨rfl, rfl, rfl, rfl, fun t' => ?_, fun _ => rfl, [], by simp, by simp⟩
    by_cases heq : t' = t
    · subst heq
      simp [ht]
    · simp [heq]
  · exact refl s

/-- `iceAppInitSession` makes a session and forgets the candidates of the peer. -/
theorem iceAppInitSession (hs : s.sockets k = some sock) (ok : Bool) :
    Frame s (s.iceAppInitSession k sock ok) := by
  unfold IceApp.iceAppInitSession
  split
  · exact refl s
  · rename_i t ht
    have hhand : Frame s (s.hand .initSession sock.icest) :=
      hand hs .initSession fun hnone => by rw [ht] at hnone; cases hnone
    have hinit : ∀ s₁, Frame s s₁ →
        Frame s (s₁.setSocket k { sock with rem := resetRemoteInfo }) := by
      intro s₁ h₁
      have hs₁ := h₁.key k
      rw [hs, Option.map_some] at hs₁
      obtain ⟨sock₁, hsock₁, hkey₁⟩ := Option.map_eq_some_iff.mp hs₁
      exact h₁.trans (setSocket hsock₁ hkey₁.symm)
    split
    · exact hhand
    · split
      · exact hinit _ (hhand.trans (setSess _ t true))
      · exact hinit _ hhand

/-- `encodeSession` reads the transport. -/
theorem encodeIce (hs : s.sockets k = some sock) : Frame s (s.encodeIce sock) := by
  unfold IceApp.encodeIce
  split
  · exact refl s
  · rename_i t ht
    exact hand hs .encodeSession fun hnone => by rw [ht] at hnone; cases hnone

/-- `localSdp` makes the session and reads the transport. -/
theorem localSdp (hs : s.sockets k = some sock) (ok : Bool) :
    Frame s (s.localSdp k sock ok) := by
  unfold IceApp.localSdp
  split
  · have hinit := iceAppInitSession hs ok
    -- `encodeSession` reads the pointer behind `iceAppInitSession`, which keeps it.
    have hs₁ := hinit.key k
    rw [hs, Option.map_some] at hs₁
    obtain ⟨sock₁, hsock₁, hkey₁⟩ := Option.map_eq_some_iff.mp hs₁
    have hicest : sock₁.icest = sock.icest := congrArg Prod.fst hkey₁
    have henc : (s.iceAppInitSession k sock ok).encodeIce sock =
        (s.iceAppInitSession k sock ok).encodeIce sock₁ := by
      simp only [IceApp.encodeIce, hicest]
    rw [henc]
    exact hinit.trans (encodeIce hsock₁)
  · exact refl s

/-- `iceAppStartNego` starts or stops a session, and the transport stays. -/
theorem iceAppStartNego (hs : s.sockets k = some sock) (stopped : Bool) :
    Frame s (s.iceAppStartNego sock stopped) := by
  unfold IceApp.iceAppStartNego
  split
  · exact refl s
  · rename_i t ht
    have hhand : Frame s (s.hand .startNego sock.icest) :=
      hand hs .startNego fun hnone => by rw [ht] at hnone; cases hnone
    dsimp only
    split
    · exact hhand
    · split
      · exact hhand.trans (setSess _ t false)
      · exact hhand

/-- `negoWith` stores the candidates of the peer and starts, or reports a failure. -/
theorem negoWith {remoteSdp : QString} {stopped : Bool} (hs : s.sockets k = some sock)
    (h : s.negoWith pj k sock remoteSdp stopped = some s') : Frame s s' := by
  unfold IceApp.negoWith at h
  split at h
  · split at h
    · cases h
    · rename_i rem _
      cases h
      have hset : Frame s (s.setSocket k { sock with rem }) := setSocket hs rfl
      exact hset.trans (iceAppStartNego (Function.update_self k _ _) stopped)
    · rename_i rem _
      cases h
      have hset : Frame s (s.setSocket k { sock with rem }) := setSocket hs rfl
      exact hset.trans (emit _ _ _)
  · cases h
    exact emit _ _ _

/-- `iceInitResult` notes the result and emits it. -/
theorem iceInitResult (hs : s.sockets k = some sock) (success : Bool) :
    Frame s (s.iceInitResult k sock success) := by
  have hset : Frame s (s.setSocket k { sock with sInit := success }) := setSocket hs rfl
  exact hset.trans (emit _ _ _)

/-- `iceSentTo` hands the pointer to pjnath when the negotiation has succeeded. -/
theorem iceSentTo (hs : s.sockets k = some sock) : Frame s (s.iceSentTo sock) := by
  unfold IceApp.iceSentTo
  split
  · rename_i hnego
    exact hand hs .sendTo fun _ => hnego
  · exact refl s

end Frame

/-! ### Starting a transport -/

/-- What the part of `createSession` that works on the runtime leaves alone. -/
structure Prepared (s mid : IceApp) : Prop where
  ref : mid.cfg.ref = s.cfg.ref
  teardowns : mid.teardowns = s.teardowns
  sockets : mid.sockets = s.sockets
  nextSocket : mid.nextSocket = s.nextSocket
  transports : mid.transports = s.transports
  nextTrans : mid.nextTrans = s.nextTrans
  log : ∃ es, mid.log = s.log ++ es ∧ ∀ e ∈ es, e.isRuntime = true

namespace Prepared

/-- A state that does not change. -/
theorem refl (s : IceApp) : Prepared s s :=
  ⟨rfl, rfl, rfl, rfl, rfl, rfl, [], by simp, by simp⟩

/-- An event of the runtime is recorded. -/
theorem record (h : Prepared s mid) {e : IceEvent} (he : e.isRuntime = true) :
    Prepared s (mid.record e) := by
  obtain ⟨es, hes, hrt⟩ := h.log
  refine ⟨h.ref, h.teardowns, h.sockets, h.nextSocket, h.transports, h.nextTrans, es ++ [e],
    by rw [IceApp.record, hes, List.append_assoc], fun e' he' => ?_⟩
  rcases List.mem_append.mp he' with he' | he'
  · exact hrt e' he'
  · exact List.mem_singleton.mp he' ▸ he

/-- A signal is emitted. -/
theorem emit (h : Prepared s mid) (k : IceSockId) (sig : IceSignal) :
    Prepared s (mid.emit k sig) :=
  ⟨h.ref, h.teardowns, h.sockets, h.nextSocket, h.transports, h.nextTrans, h.log⟩

end Prepared

/-- The parts of the runtime are made without a change of the count. -/
@[simp] theorem initRuntime_ref (cfg : IceAppCfg) (n : Nat) (r : StartResult) :
    (initRuntime cfg n r).1.ref = cfg.ref := by
  unfold initRuntime
  repeat (first | rfl | split)

/-- `iceAppInit` works on the runtime only. -/
theorem iceAppInit_prepared (s : IceApp) (r : StartResult) : Prepared s (s.iceAppInit r).1 := by
  unfold iceAppInit
  split
  · exact Prepared.refl s
  · have hcfg : Prepared s { s with
        cfg := (initRuntime { s.cfg with threadQuitFlag := false, pool := true }
          s.teardowns r).1 } :=
      ⟨initRuntime_ref _ _ _, rfl, rfl, rfl, rfl, rfl, [], by simp, by simp⟩
    exact hcfg.record rfl

/-- The state in which `createSession` calls `pj_ice_strans_create`, and whether it does. -/
def prepare (s : IceApp) (r : StartResult) : IceApp × Bool :=
  if s.cfg.pool then (s, true) else s.iceAppInit r

/-- The part of `createSession` before `pj_ice_strans_create` works on the runtime only. -/
theorem prepare_prepared (s : IceApp) (r : StartResult) : Prepared s (s.prepare r).1 := by
  unfold prepare
  split
  · exact Prepared.refl s
  · exact iceAppInit_prepared s r

/-- The record of the call of `pj_ice_strans_create`. -/
def recordCreate (s : IceApp) : IceApp :=
  s.record (.stransCreate s.cfg.timerHeap s.cfg.ioqueue s.cfg.thread s.teardowns)

/-- The transport that `pj_ice_strans_create` makes for the socket `k`. -/
def addTrans (s : IceApp) (k : IceSockId) (sock : PjIceSocket) : IceApp :=
  { s with
      nextTrans := s.nextTrans + 1
      transports := Function.update s.transports s.nextTrans
        (some { userData := k, hasSess := false })
      sockets := Function.update s.sockets k (some { sock with icest := some s.nextTrans })
      cfg := { s.cfg with ref := incUnsigned s.cfg.ref } }

/-- `createSession` succeeds: the socket has no transport, the runtime is up or comes up, and
pjnath makes the transport. -/
def Creates (s : IceApp) (sock : PjIceSocket) (r : StartResult) : Prop :=
  sock.icest = none ∧ (s.prepare r).2 = true ∧ r.strans = true ∧
    (s.prepare r).1.cfg.timerHeap.isSome = true ∧ (s.prepare r).1.cfg.ioqueue.isSome = true

/-- Where `createSession` gives up: the socket has a transport, `iceAppInit` fails, or
`pj_ice_strans_create` fails. -/
def NotCreated (s : IceApp) (sock : PjIceSocket) (r : StartResult) (s' : IceApp) : Prop :=
  sock.icest ≠ none ∧ s' = s ∨
    sock.icest = none ∧ (s.prepare r).2 = false ∧ s' = (s.prepare r).1 ∨
    sock.icest = none ∧ (s.prepare r).2 = true ∧ s' = (s.prepare r).1.recordCreate

/-- A `createSession` that fails has worked on the runtime only. -/
theorem NotCreated.prepared {r : StartResult} (h : s.NotCreated sock r s') : Prepared s s' := by
  rcases h with ⟨-, rfl⟩ | ⟨-, -, rfl⟩ | ⟨-, -, rfl⟩
  · exact Prepared.refl _
  · exact prepare_prepared s r
  · exact (prepare_prepared s r).record rfl

/-- `createSession` makes a transport and returns true, or it works on the runtime at most and
returns false. -/
theorem createSession_cases (s : IceApp) (k : IceSockId) (sock : PjIceSocket)
    (r : StartResult) :
    s.Creates sock r ∧
      s.createSession k sock r = ((s.prepare r).1.recordCreate.addTrans k sock, true) ∨
    ¬ s.Creates sock r ∧ (s.createSession k sock r).2 = false ∧
      s.NotCreated sock r (s.createSession k sock r).1 := by
  -- `prepare` is the part before `pj_ice_strans_create`.
  have hprep : s.createSession k sock r = if sock.icest.isSome then (s, false)
      else if (s.prepare r).2 then (s.prepare r).1.stransCreate k sock r.strans
      else ((s.prepare r).1, false) := rfl
  rw [hprep]
  cases hicest : sock.icest with
  | some t =>
    right
    refine ⟨fun h => ?_, rfl, Or.inl ⟨by simp [hicest], rfl⟩⟩
    cases hicest.symm.trans h.1
  | none =>
    simp only [Option.isSome_none, Bool.false_eq_true, if_false]
    cases hok : (s.prepare r).2 with
    | false =>
      right
      refine ⟨fun h => ?_, rfl, Or.inr (Or.inl ⟨hicest, hok, rfl⟩)⟩
      cases hok.symm.trans h.2.1
    | true =>
      simp only [if_true, stransCreate]
      split
      · rename_i hall
        exact Or.inl ⟨⟨hicest, hok, hall⟩, rfl⟩
      · rename_i hall
        exact Or.inr ⟨fun h => hall h.2.2, rfl, Or.inr (Or.inr ⟨hicest, hok, rfl⟩)⟩

/-! ### The steps -/

/-- The end of the destructor of a socket. -/
def dropSocket (s : IceApp) (k : IceSockId) : IceApp :=
  { s with sockets := Function.update s.sockets k none }

/-- The runtime does not depend on the sockets. -/
theorem dropSocket_destoryIceApp (s : IceApp) (k : IceSockId) :
    s.destoryIceApp.dropSocket k = (s.dropSocket k).destoryIceApp := by
  unfold destoryIceApp dropSocket
  dsimp only
  split <;> rfl

/-- The members of a socket that is dropped do not matter. -/
theorem destoryIceApp_dropSocket (s : IceApp) (k : IceSockId) (sock : PjIceSocket) :
    (s.setSocket k sock).destoryIceApp.dropSocket k = s.destoryIceApp.dropSocket k := by
  unfold destoryIceApp dropSocket setSocket
  dsimp only
  split <;> simp

/-- What a step does, one constructor for each way to treat a transport. -/
inductive IceStep (s : IceApp) : IceAction → IceApp → Prop
  | newSocket : IceStep s .newSocket s.newSocket
  | created (k : IceSockId) (sock : PjIceSocket) (r : StartResult)
    (hs : s.sockets k = some sock) (hc : s.Creates sock r) :
    IceStep s (.startICESocket k r) ((s.prepare r).1.recordCreate.addTrans k sock)
  | notCreated (k : IceSockId) (sock : PjIceSocket) (r : StartResult) (s' : IceApp)
    (hs : s.sockets k = some sock) (hc : ¬ s.Creates sock r) (hnot : s.NotCreated sock r s') :
    IceStep s (.startICESocket k r) (s'.emit k (.cbInitResult false))
  | quiet (a : IceAction) (s' : IceApp) (hstart : ∀ k r, a ≠ .startICESocket k r)
    (hcb : ∀ t op isRelay connIp, a ≠ .onIceComplete t op false isRelay connIp)
    (hframe : Frame s s') : IceStep s a s'
  | negotiated (t : StransId) (strans : Strans) (sock : PjIceSocket) (isRelay : Bool)
    (connIp : QString) (ht : s.transports t = some strans)
    (hs : s.sockets strans.userData = some sock) :
    IceStep s (.onIceComplete t .negotiation true isRelay connIp)
      ((s.setSocket strans.userData { sock with sNego := true }).emit strans.userData
        (.cbNegoResult true isRelay connIp))
  | negoFailed (t : StransId) (strans : Strans) (sock : PjIceSocket) (isRelay : Bool)
    (connIp : QString) (ht : s.transports t = some strans)
    (hs : s.sockets strans.userData = some sock) :
    IceStep s (.onIceComplete t .negotiation false isRelay connIp)
      (((s.stransDestroy t).setSocket strans.userData
        { sock with sNego := false, icest := none }).emit strans.userData
          (.cbNegoResult false false []))
  | dropped (t : StransId) (strans : Strans) (op : StransOp) (isRelay : Bool)
    (connIp : QString) (s' : IceApp) (ht : s.transports t = some strans)
    (hop : op ≠ .negotiation ∨ s.sockets strans.userData = none)
    (hframe : Frame (s.stransDestroy t) s') :
    IceStep s (.onIceComplete t op false isRelay connIp) s'
  | deleted (k : IceSockId) (sock : PjIceSocket) (s' : IceApp) (hs : s.sockets k = some sock)
    (hsess : ∀ t, sock.icest = some t → s.hasSess t = false) (hframe : Frame s s') :
    IceStep s (.deleteSocket k) (s'.dropSocket k)
  | stopped (k : IceSockId) (sock : PjIceSocket) (t : StransId) (strans : Strans)
    (hs : s.sockets k = some sock) (hicest : sock.icest = some t)
    (ht : s.transports t = some strans) :
    IceStep s (.deleteSocket k)
      (((s.hand .stopSession sock.icest).stransDestroy t).destoryIceApp.dropSocket k)

/-- `hasSess` is only true of a live transport. -/
theorem exists_of_hasSess {t : StransId} (h : s.hasSess t = true) :
    ∃ strans, s.transports t = some strans := by
  unfold hasSess at h
  split at h
  · rename_i strans ht
    exact ⟨strans, ht⟩
  · cases h

/-- The callback with a success. -/
theorem step_success {t : StransId} {strans : Strans} {op : StransOp} {isRelay : Bool}
    {connIp : QString} (ht : s.transports t = some strans) :
    IceStep s (.onIceComplete t op true isRelay connIp)
      (s.cbOnIceComplete t strans op true isRelay connIp) := by
  simp only [cbOnIceComplete, if_true]
  cases hs : s.sockets strans.userData with
  | none => exact .quiet _ _ (by simp) (by simp) (Frame.refl s)
  | some sock =>
    cases op with
    | init => exact .quiet _ _ (by simp) (by simp) (Frame.iceInitResult hs true)
    | negotiation => exact .negotiated t strans sock isRelay connIp ht hs
    | keepAlive => exact .quiet _ _ (by simp) (by simp) (Frame.refl s)

/-- The callback with a failure. -/
theorem step_failure {t : StransId} {strans : Strans} {op : StransOp} {isRelay : Bool}
    {connIp : QString} (ht : s.transports t = some strans) :
    IceStep s (.onIceComplete t op false isRelay connIp)
      (s.cbOnIceComplete t strans op false isRelay connIp) := by
  simp only [cbOnIceComplete, Bool.false_eq_true, if_false]
  cases hs : s.sockets strans.userData with
  | none =>
    simp only [stransDestroy, hs]
    exact .dropped t strans op isRelay connIp _ ht (Or.inr hs) (Frame.refl _)
  | some sock =>
    have hs' : (s.stransDestroy t).sockets strans.userData = some sock := hs
    simp only [hs']
    cases op with
    | init =>
      exact .dropped t strans .init isRelay connIp _ ht (Or.inl (by decide))
        (Frame.iceInitResult hs' false)
    | negotiation => exact .negoFailed t strans sock isRelay connIp ht hs
    | keepAlive =>
      exact .dropped t strans .keepAlive isRelay connIp _ ht (Or.inl (by decide)) (Frame.refl _)

/-- The destructor of a socket. -/
theorem step_delete (hs : s.sockets k = some sock) :
    IceStep s (.deleteSocket k) (s.deleteSocket k sock) := by
  unfold deleteSocket iceAppStopSession
  cases hicest : sock.icest with
  | none => exact .deleted k sock s hs (by simp [hicest]) (Frame.refl s)
  | some t =>
    dsimp only
    split
    · rename_i hsess
      obtain ⟨strans, ht⟩ := exists_of_hasSess hsess
      have hstep := IceStep.stopped k sock t strans hs hicest ht
      rw [hicest, ← destoryIceApp_dropSocket _ k
        { sock with icest := none, rem := resetRemoteInfo }] at hstep
      exact hstep
    · rename_i hsess
      have hhand : Frame s (s.hand .stopSession sock.icest) :=
        Frame.hand hs .stopSession fun hnone => by rw [hicest] at hnone; cases hnone
      rw [hicest] at hhand
      refine .deleted k sock _ hs (fun t' ht' => ?_) hhand
      cases hicest.symm.trans ht'
      simpa using hsess

/-- The inversion of the step function: there are no other steps than these. -/
theorem step_cases {a : IceAction} (h : step pj s a = some s') : IceStep s a s' := by
  cases a with
  | newSocket =>
    cases h
    exact .newSocket
  | startICESocket k r =>
    obtain ⟨sock, hs, rfl⟩ := Option.map_eq_some_iff.mp h
    unfold startICESocket
    rcases createSession_cases s k sock r with ⟨hc, heq⟩ | ⟨hc, hfalse, hnot⟩
    · rw [heq]
      exact .created k sock r hs hc
    · simp only [hfalse, Bool.false_eq_true, if_false]
      exact .notCreated k sock r _ hs hc hnot
  | onIceComplete t op success isRelay connIp =>
    obtain ⟨strans, ht, rfl⟩ := Option.map_eq_some_iff.mp h
    cases success with
    | true => exact step_success ht
    | false => exact step_failure ht
  | localSdp k ok =>
    obtain ⟨sock, hs, rfl⟩ := Option.map_eq_some_iff.mp h
    exact .quiet _ _ (by simp) (by simp) (Frame.localSdp hs ok)
  | negoWith k remoteSdp stopped =>
    obtain ⟨sock, hs, hnego⟩ := Option.bind_eq_some_iff.mp h
    exact .quiet _ _ (by simp) (by simp) (Frame.negoWith hs hnego)
  | iceSentTo k =>
    obtain ⟨sock, hs, rfl⟩ := Option.map_eq_some_iff.mp h
    exact .quiet _ _ (by simp) (by simp) (Frame.iceSentTo hs)
  | deleteSocket k =>
    obtain ⟨sock, hs, rfl⟩ := Option.map_eq_some_iff.mp h
    exact step_delete hs

end IceApp

end EChannel.LibTrans
