import EChannel.Proofs.LibTrans.IceSteps
import EChannel.Proofs.LibTrans.SdpRoundTrip

/-!
# `EChannel.Proofs.LibTrans.IceStartup`: a runtime that did not come up

`iceCfg.pool` says whether the runtime is up: `createSession` calls `iceAppInit` only when it
is null. But `iceAppInit` sets it before it makes the timer heap, the ioqueue and the thread,
and a failure behind it does not clear it. The next `createSession` then takes the runtime as
it is, without the part that failed, or with the part of a runtime that was torn down, since
a teardown clears the pool only.

`startsWhole_iff` is the exact condition: no `iceAppInit` of the run fails.
-/

set_option autoImplicit false

namespace EChannel.LibTrans

namespace IceApp

variable {pj : PjSock} {s s' mid : IceApp} {k : IceSockId} {sock : PjIceSocket}

/-- Every call of `pj_ice_strans_create` came with a timer heap, an ioqueue and a thread made
after the last teardown, and every `iceAppInit` that failed left the pool null, so that the
next `createSession` calls it again. -/
structure StartsWhole (s : IceApp) : Prop where
  create : ∀ timerHeap ioqueue thread n,
    IceEvent.stransCreate timerHeap ioqueue thread n ∈ s.log →
      timerHeap = some n ∧ ioqueue = some n ∧ thread = some n
  retry : ∀ pool, IceEvent.iceAppInit false pool ∈ s.log → pool = false

/-- When the step calls `iceAppInit` on a runtime that is down, all three parts come up. -/
def InitSucceeds (s : IceApp) : IceAction → Prop
  | .startICESocket k r => ∀ sock, s.sockets k = some sock → sock.icest = none →
    s.cfg.pool = false → r.timerHeap = true ∧ r.ioqueue = true ∧ r.thread = true
  | _ => True

/-- A runtime with a pool has all its parts, made after the last teardown. -/
structure Whole (s : IceApp) : Prop where
  parts : s.cfg.pool = true → s.cfg.timerHeap = some s.teardowns ∧
    s.cfg.ioqueue = some s.teardowns ∧ s.cfg.thread = some s.teardowns
  starts : StartsWhole s

namespace Whole

/-- There is no runtime at first. -/
theorem init : Whole IceApp.init where
  parts h := by cases h
  starts :=
    { create := fun _ _ _ _ h => by cases h
      retry := fun _ h => by cases h }

/-- The log grows by events that are about a whole runtime, or about no runtime. -/
theorem starts_append (h : StartsWhole s) {es : List IceEvent} (hlog : s'.log = s.log ++ es)
    (hcreate : ∀ timerHeap ioqueue thread n,
      IceEvent.stransCreate timerHeap ioqueue thread n ∈ es →
        timerHeap = some n ∧ ioqueue = some n ∧ thread = some n)
    (hretry : ∀ pool, IceEvent.iceAppInit false pool ∉ es) : StartsWhole s' where
  create timerHeap ioqueue thread n hmem := by
    rw [hlog] at hmem
    rcases List.mem_append.mp hmem with hold | hnew
    · exact h.create _ _ _ _ hold
    · exact hcreate _ _ _ _ hnew
  retry pool hmem := by
    rw [hlog] at hmem
    rcases List.mem_append.mp hmem with hold | hnew
    · exact h.retry pool hold
    · exact absurd hnew (hretry pool)

/-- A frame step hands pointers to pjnath and does nothing to the runtime. -/
theorem frame (h : Whole s) (hf : Frame s s') : Whole s' where
  parts hpool := by
    rw [hf.cfg, hf.teardowns]
    rw [hf.cfg] at hpool
    exact h.parts hpool
  starts := by
    obtain ⟨es, hes, hby⟩ := hf.log
    exact starts_append h.starts hes (fun _ _ _ _ hmem => (hby _ hmem).elim)
      fun _ hmem => (hby _ hmem).elim

/-- `iceAppInit` on a runtime that is down, when everything succeeds. -/
theorem iceAppInit (h : Whole s) {r : StartResult} (hpool : s.cfg.pool = false)
    (hr : r.timerHeap = true ∧ r.ioqueue = true ∧ r.thread = true) :
    Whole (s.iceAppInit r).1 ∧ (s.iceAppInit r).1.cfg.pool = true := by
  obtain ⟨htimer, hio, hthread⟩ := hr
  simp only [IceApp.iceAppInit, initRuntime, hpool, htimer, hio, hthread, if_true,
    Bool.false_eq_true, if_false]
  refine ⟨⟨fun _ => ⟨rfl, rfl, rfl⟩, ?_⟩, rfl⟩
  exact starts_append h.starts rfl (by simp) (by simp)

/-- The part of `createSession` before `pj_ice_strans_create`. -/
theorem prepare (h : Whole s) {r : StartResult}
    (hr : s.cfg.pool = false → r.timerHeap = true ∧ r.ioqueue = true ∧ r.thread = true) :
    Whole (s.prepare r).1 ∧ (s.prepare r).1.cfg.pool = true := by
  unfold IceApp.prepare
  split
  · rename_i hpool
    exact ⟨h, hpool⟩
  · rename_i hpool
    have hdown : s.cfg.pool = false := by simpa using hpool
    exact h.iceAppInit hdown (hr hdown)

/-- `pj_ice_strans_create` is called on a whole runtime. -/
theorem recordCreate (h : Whole s) (hpool : s.cfg.pool = true) : Whole s.recordCreate where
  parts := h.parts
  starts := by
    refine starts_append h.starts rfl ?_ (by simp)
    intro timerHeap ioqueue thread n hmem
    cases List.mem_singleton.mp hmem
    exact h.parts hpool

/-- A change of the transports and the count. -/
theorem congr (h : Whole s) (hpool : s'.cfg.pool = s.cfg.pool)
    (htimer : s'.cfg.timerHeap = s.cfg.timerHeap) (hio : s'.cfg.ioqueue = s.cfg.ioqueue)
    (hthread : s'.cfg.thread = s.cfg.thread) (htd : s'.teardowns = s.teardowns)
    (hlog : s'.log = s.log) : Whole s' where
  parts hp := by
    rw [htimer, hio, hthread, htd]
    exact h.parts (hpool ▸ hp)
  starts := starts_append h.starts (hlog.trans (List.append_nil _).symm) (by simp) (by simp)

/-- A teardown clears the pool, so that nothing is claimed of the parts. -/
theorem destoryIceApp (h : Whole s) : Whole s.destoryIceApp := by
  unfold IceApp.destoryIceApp
  dsimp only
  split
  · -- A teardown: the pool is null.
    refine ⟨fun hp => ?_, ⟨h.starts.create, h.starts.retry⟩⟩
    cases hp
  · exact h.congr rfl rfl rfl rfl rfl rfl

/-- The step lemma: a step in which no start-up fails keeps the invariant. -/
theorem step {a : IceAction} (h : Whole s) (hst : IceApp.step pj s a = some s')
    (hc : s.InitSucceeds a) : Whole s' := by
  cases step_cases hst with
  | newSocket => exact h.congr rfl rfl rfl rfl rfl rfl
  | created k sock r hs hcr =>
    obtain ⟨hprep, hpool⟩ := h.prepare (hc sock hs hcr.1)
    exact (hprep.recordCreate hpool).congr rfl rfl rfl rfl rfl rfl
  | notCreated k sock r s₁ hs hcr hnot =>
    suffices hw : Whole s₁ from hw.frame (Frame.emit _ _ _)
    rcases hnot with ⟨-, rfl⟩ | ⟨hnone, -, rfl⟩ | ⟨hnone, -, rfl⟩
    · exact h
    · exact (h.prepare (hc sock hs hnone)).1
    · obtain ⟨hprep, hpool⟩ := h.prepare (hc sock hs hnone)
      exact hprep.recordCreate hpool
  | quiet _ _ _ _ hf => exact h.frame hf
  | negotiated t strans sock isRelay connIp ht hs => exact h.congr rfl rfl rfl rfl rfl rfl
  | negoFailed t strans sock isRelay connIp ht hs => exact h.congr rfl rfl rfl rfl rfl rfl
  | dropped t strans op isRelay connIp _ ht hop hf =>
    have hd : Whole (s.stransDestroy t) := h.congr rfl rfl rfl rfl rfl rfl
    exact hd.frame hf
  | deleted k sock s₁ hs hsess hf => exact (h.frame hf).congr rfl rfl rfl rfl rfl rfl
  | stopped k sock t strans hs hicest ht =>
    have hhand : Frame s (s.hand .stopSession sock.icest) :=
      Frame.hand hs .stopSession fun hnone => by rw [hicest] at hnone; cases hnone
    have hd : Whole ((s.hand .stopSession sock.icest).stransDestroy t) :=
      (h.frame hhand).congr rfl rfl rfl rfl rfl rfl
    exact hd.destoryIceApp.congr rfl rfl rfl rfl rfl rfl

end Whole

/-- A runtime that is down comes up when all three parts do, and a failure is noted with a
pool that is set. -/
theorem prepare_down {r : StartResult} (hpool : s.cfg.pool = false) :
    (s.prepare r).2 = true ∧ (r.timerHeap = true ∧ r.ioqueue = true ∧ r.thread = true) ∨
      (s.prepare r).2 = false ∧ IceEvent.iceAppInit false true ∈ (s.prepare r).1.log := by
  simp only [prepare, iceAppInit, initRuntime, hpool, Bool.false_eq_true, if_false]
  cases r.timerHeap <;> cases r.ioqueue <;> cases r.thread <;> simp [record]

/-- A start in which a part of the runtime does not come up keeps the pool. -/
theorem initSucceeds_of_startsWhole {a : IceAction} (hst : step pj s a = some s')
    (hP : StartsWhole s') : s.InitSucceeds a := by
  -- A start-up that fails is noted with the pool still set.
  have hnoted : IceEvent.iceAppInit false true ∉ s'.log := fun hmem => by
    cases hP.retry true hmem
  cases step_cases hst with
  | created k sock r hs hcr =>
    intro _ _ _ hpool
    rcases prepare_down hpool with ⟨-, hr⟩ | ⟨hfalse, -⟩
    · exact hr
    · cases hfalse.symm.trans hcr.2.1
  | notCreated k sock r s₁ hs hcr hnot =>
    intro sock' hs' hnone hpool
    cases hs.symm.trans hs'
    rcases prepare_down hpool with ⟨-, hr⟩ | ⟨hfalse, hmem⟩
    · exact hr
    · rcases hnot with ⟨hsome, -⟩ | ⟨-, -, rfl⟩ | ⟨-, htrue, -⟩
      · exact absurd hnone hsome
      · exact absurd hmem hnoted
      · cases hfalse.symm.trans htrue
  | quiet _ _ hstart hcb hf =>
    cases a with
    | startICESocket k r => exact absurd rfl (hstart k r)
    | _ => trivial
  | newSocket => trivial
  | negotiated => trivial
  | negoFailed => trivial
  | dropped => trivial
  | deleted => trivial
  | stopped => trivial

/-- Along a run, every transport is made on a whole runtime and a start-up that failed is
tried again, exactly when no start-up fails. -/
theorem startsWhole_iff (pj : PjSock) (as : List IceAction) (u : IceApp)
    (hrun : run (step pj) init as = some u) :
    Always (step pj) StartsWhole init as ↔ AllSteps (step pj) InitSucceeds init as :=
  always_iff_allSteps (fun _ _ _ h hst hc => h.step hst hc) (fun _ h => h.starts)
    (fun _ _ _ _ hst hP => initSucceeds_of_startsWhole hst hP) as init u Whole.init hrun

/-- A session, its teardown, and a second session on a new runtime. -/
theorem startsWhole_iff_twice :
    Always (step inetSock) StartsWhole init
      [.newSocket, .startICESocket 0 ⟨true, true, true, true⟩, .onIceComplete 0 .init true false [],
        .localSdp 0 true, .deleteSocket 0, .newSocket,
        .startICESocket 1 ⟨true, true, true, true⟩] :=
  (startsWhole_iff inetSock _ _ rfl).mpr
    ⟨trivial, fun _ _ => ⟨fun _ _ _ _ => ⟨rfl, rfl, rfl⟩, fun _ _ => ⟨trivial, fun _ _ =>
      ⟨trivial, fun _ _ => ⟨trivial, fun _ _ => ⟨trivial, fun _ _ =>
        ⟨fun _ _ _ _ => ⟨rfl, rfl, rfl⟩, fun _ _ => trivial⟩⟩⟩⟩⟩⟩⟩

/-- The thread of the first start-up cannot be made. The second `createSession` does not call
`iceAppInit` and makes a transport that nothing polls. -/
theorem not_startsWhole_noThread :
    ∃ u, run (step inetSock) init
        [.newSocket, .startICESocket 0 ⟨true, true, false, true⟩,
          .startICESocket 0 ⟨true, true, true, true⟩] = some u ∧
      IceEvent.iceAppInit false true ∈ u.log ∧
      IceEvent.stransCreate (some 0) (some 0) none 0 ∈ u.log ∧ u.cfg.ref = 1 ∧
      ¬ StartsWhole u := by
  refine ⟨_, rfl, List.mem_cons_self, List.mem_cons_of_mem _ List.mem_cons_self, rfl,
    fun h => ?_⟩
  cases h.retry true List.mem_cons_self

end IceApp

end EChannel.LibTrans
