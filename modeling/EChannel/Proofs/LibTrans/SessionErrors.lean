import EChannel.LibTrans.SessionMgr
import EChannel.Proofs.LibTrans.SdpRoundTrip

/-!
# `EChannel.Proofs.LibTrans.SessionErrors`: sessions whose channel has reported an error

Three places emit `error`. `conncetError` also emits `sigClose`, and the session and its entry in
`m_hashSession` go. `onICEInit` and `onICENego` emit `error` only: the session stays where it
is, `createSession` returns it again for its id, and nothing comes out of its channel any more.

`errorRetires_iff`: an error retires the session in every state of a run exactly when no ICE
start, initialisation or negotiation fails in it. A step of a run leaves the entries alone
(`Quiet`), reports an error and leaves them alone (`Reports`), makes a session, or closes one.
-/

set_option autoImplicit false

namespace EChannel.LibTrans

namespace SessionMgr

variable {m m' m'' : SessionMgr} {k : SessId} {sess : Session} {ch : IceChannel} {pj : PjSock}

/-! ### The property -/

/-- The session is there and has a channel. -/
def HasChannel (m : SessionMgr) (k : SessId) : Prop :=
  ∃ sess ch, m.sessions k = some sess ∧ sess.channel = some ch

/-- A session whose channel has reported an error is not stored. So `initSession` with its id
leads to another one, a new one unless one was made meanwhile. Every stored session has a
channel that has reported nothing. -/
structure ErrorRetires (m : SessionMgr) : Prop where
  gone : ∀ r ∈ m.errors, ∀ id, m.hashSession.lookup id ≠ some r.sess
  retry : ∀ r ∈ m.errors, ∀ uuid started,
    ∃ k, (m.initSession r.sessionId uuid started).hashSession.lookup r.sessionId = some k ∧
      k ≠ r.sess ∧ (m.initSession r.sessionId uuid started).HasChannel k ∧
      (m.hashSession.lookup r.sessionId = none → k = m.nextSess)
  healthy : ∀ id k, m.hashSession.lookup id = some k →
    m.HasChannel k ∧ ∀ r ∈ m.errors, r.sess ≠ k

/-! ### The condition -/

/-- The id that `initSession` uses. -/
def usedId (sessionId uuid : QString) : QString := if sessionId = [] then uuid else sessionId

/-- `negoWith` starts a negotiation with the remote SDP. -/
def NegoStarts (pj : PjSock) (ch : IceChannel) (sdp : QString) : Prop :=
  ch.sInit = true ∧ ∃ rem, icedemoInputRemote pj sdp = .ok (true, rem)

/-- The signal reports no failure, and the negotiation that follows an initialisation starts.
After a negotiation, failures are ignored. -/
def SlotStarts (pj : PjSock) (ch : IceChannel) : IceSignal → Prop
  | .cbInitResult success => success = true ∧
    (ch.remoteSDP = [] ∨ ch.iceNego = true ∨ NegoStarts pj ch ch.remoteSDP)
  | .cbNegoResult success _ _ => success = true ∨ ch.iceNego = true

/-- The step is no failure of ICE: no failed start of a new session, no failed initialisation,
no negotiation that fails or does not start. -/
def IceStarts (pj : PjSock) (m : SessionMgr) : SessAction → Prop
  | .initSession sessionId uuid started =>
    m.hashSession.lookup (usedId sessionId uuid) = none → started = true
  | .updateRemoteSDP sessionId sdp => ∀ k sess ch, m.hashSession.lookup sessionId = some k →
    m.channelOf k = some (sess, ch) → ch.isInitialized = true →
    ch.iceNego = true ∨ NegoStarts pj ch sdp
  | .slot => ∀ k sig rest sess ch, m.pending = (k, sig) :: rest →
    m.channelOf k = some (sess, ch) → SlotStarts pj ch sig
  | _ => True

/-! ### What a step does to the sessions -/

/-- The id of a session, and whether it has a channel. -/
def view (m : SessionMgr) (k : SessId) : Option (QString × Bool) :=
  (m.sessions k).map fun sess => (sess.sessionId, sess.channel.isSome)

/-- The same sessions are stored, and have channels. -/
structure Same (m m' : SessionMgr) : Prop where
  hashSession : m'.hashSession = m.hashSession
  nextSess : m'.nextSess = m.nextSess
  view : m'.view = m.view

/-- No error is reported. -/
structure Quiet (m m' : SessionMgr) : Prop extends Same m m' where
  errors : m'.errors = m.errors

/-- The channel of the session reports an error. -/
structure Reports (m m' : SessionMgr) (k : SessId) : Prop extends Same m m' where
  errors : ∃ r, m'.errors = m.errors ++ [r] ∧ r.sess = k

/-- The session and the channel that `channelOf` finds. -/
theorem channelOf_eq_some (h : m.channelOf k = some (sess, ch)) :
    m.sessions k = some sess ∧ sess.channel = some ch := by
  unfold channelOf at h
  obtain ⟨sess', hs, hch⟩ := Option.bind_eq_some_iff.mp h
  obtain ⟨ch', hc, heq⟩ := Option.map_eq_some_iff.mp hch
  cases heq
  exact ⟨hs, hc⟩

/-- What is seen of a session with a channel. -/
theorem view_of_channelOf (h : m.channelOf k = some (sess, ch)) :
    m.view k = some (sess.sessionId, true) := by
  obtain ⟨hs, hc⟩ := channelOf_eq_some h
  rw [view, hs, Option.map_some, hc]
  rfl

/-- A session that is seen with a channel has one. -/
theorem hasChannel_of_view {id : QString} (h : m.view k = some (id, true)) : m.HasChannel k := by
  unfold view at h
  obtain ⟨sess, hs, heq⟩ := Option.map_eq_some_iff.mp h
  cases heq' : sess.channel with
  | none =>
    rw [heq'] at heq
    cases heq
  | some ch => exact ⟨sess, ch, hs, heq'⟩

/-- A session is replaced, and so is what is seen of it. -/
theorem view_of_update {entry : Option Session}
    (h : m'.sessions = Function.update m.sessions k entry) :
    m'.view = Function.update m.view k
      (entry.map fun sess => (sess.sessionId, sess.channel.isSome)) := by
  funext j
  unfold view
  rw [h]
  exact Function.apply_update (fun _ => Option.map _) m.sessions k entry j

/-- A channel gets new members. -/
theorem view_setChannel (h : m.view k = some (sess.sessionId, true)) (ch' : IceChannel) :
    (m.setChannel k sess ch').view = m.view := by
  have hsess : (m.setChannel k sess ch').sessions =
      Function.update m.sessions k (some { sess with channel := some ch' }) := rfl
  rw [view_of_update hsess]
  show Function.update m.view k (some (sess.sessionId, true)) = m.view
  rw [← h, Function.update_eq_self]

/-- A change of the channel of a session is not seen. -/
theorem Same.setChannel (h : m.view k = some (sess.sessionId, true)) (ch' : IceChannel) :
    Same m (m.setChannel k sess ch') :=
  ⟨rfl, rfl, view_setChannel h ch'⟩

/-- A change of the channel of a session is quiet. -/
theorem Quiet.setChannel (h : m.view k = some (sess.sessionId, true)) (ch' : IceChannel) :
    Quiet m (m.setChannel k sess ch') :=
  ⟨Same.setChannel h ch', rfl⟩

/-- Two quiet steps in a row. -/
theorem Quiet.trans (h : Quiet m m') (h' : Quiet m' m'') : Quiet m m'' where
  hashSession := h'.hashSession.trans h.hashSession
  nextSess := h'.nextSess.trans h.nextSess
  view := h'.view.trans h.view
  errors := h'.errors.trans h.errors

/-- A report that follows quiet work. -/
theorem Quiet.reports (h : Quiet m m') (h' : Reports m' m'' k) : Reports m m'' k where
  hashSession := h'.hashSession.trans h.hashSession
  nextSess := h'.nextSess.trans h.nextSess
  view := h'.view.trans h.view
  errors := by
    obtain ⟨r, hr, hk⟩ := h'.errors
    exact ⟨r, by rw [hr, h.errors], hk⟩

/-- An error signal after quiet work. -/
theorem Quiet.error (h : Quiet m m') (code : ErrorCode) (msg : QString) :
    Reports m (m'.error k sess code msg) k where
  hashSession := h.hashSession
  nextSess := h.nextSess
  view := h.view
  errors := ⟨_, by rw [← h.errors]; rfl, rfl⟩

/-- A negotiation that is reported as failed reports an error, unless one has succeeded. -/
theorem onICENego_cases (ch : IceChannel) (h : m.view k = some (sess.sessionId, true))
    (isSuccess isRelay : Bool) (address : QString) :
    (isSuccess = true ∨ ch.iceNego = true) ∧
        Quiet m (m.onICENego k sess ch isSuccess isRelay address) ∨
      ¬ (isSuccess = true ∨ ch.iceNego = true) ∧
        Reports m (m.onICENego k sess ch isSuccess isRelay address) k := by
  cases hn : ch.iceNego with
  | true =>
    refine Or.inl ⟨Or.inr rfl, ?_⟩
    simp only [onICENego, hn, if_true]
    exact ⟨⟨rfl, rfl, rfl⟩, rfl⟩
  | false =>
    cases isSuccess with
    | true =>
      refine Or.inl ⟨Or.inl rfl, ?_⟩
      simp only [onICENego, hn, if_true, Bool.false_eq_true, if_false]
      exact Quiet.setChannel h _
    | false =>
      refine Or.inr ⟨by simp, ?_⟩
      simp only [onICENego, hn, Bool.false_eq_true, if_false]
      exact (Quiet.setChannel h _).error _ _

/-- `negoWith` is quiet when the channel has negotiated or the negotiation starts, and reports
an error otherwise. -/
theorem negoWith_cases {sdp : QString} (h : m.view k = some (sess.sessionId, true))
    (hst : m.negoWith pj k sess ch sdp = some m') :
    (ch.iceNego = true ∨ NegoStarts pj ch sdp) ∧ Quiet m m' ∨
      ¬ (ch.iceNego = true ∨ NegoStarts pj ch sdp) ∧ Reports m m' k := by
  -- Without a start, the channel handles a failed negotiation.
  have hfail : ¬ NegoStarts pj ch sdp → m' = m.onICENego k sess ch false false [] →
      (ch.iceNego = true ∨ NegoStarts pj ch sdp) ∧ Quiet m m' ∨
        ¬ (ch.iceNego = true ∨ NegoStarts pj ch sdp) ∧ Reports m m' k := by
    rintro hno rfl
    rcases onICENego_cases ch h false false [] with ⟨hn, hq⟩ | ⟨hn, hr⟩
    · exact Or.inl ⟨Or.inl (hn.resolve_left (by simp)), hq⟩
    · refine Or.inr ⟨?_, hr⟩
      rintro (hnego | hstart)
      · exact hn (Or.inr hnego)
      · exact hno hstart
  unfold negoWith at hst
  cases hi : ch.sInit with
  | false =>
    simp only [hi, Bool.false_eq_true, if_false, Option.some.injEq] at hst
    refine hfail (fun hstart => ?_) hst.symm
    cases hi.symm.trans hstart.1
  | true =>
    simp only [hi, if_true] at hst
    split at hst
    · cases hst
    · rename_i rem hin
      cases hst
      exact Or.inl ⟨Or.inr ⟨hi, rem, hin⟩, ⟨rfl, rfl, rfl⟩, rfl⟩
    · rename_i rem hin
      cases hst
      refine hfail ?_ rfl
      rintro ⟨-, rem', hin'⟩
      cases hin.symm.trans hin'

/-- `onICEInit` is quiet when ICE starts, and reports an error otherwise. -/
theorem onICEInit_cases {isSuccess : Bool} (h : m.view k = some (sess.sessionId, true))
    (hst : m.onICEInit pj k sess ch isSuccess = some m') :
    SlotStarts pj ch (.cbInitResult isSuccess) ∧ Quiet m m' ∨
      ¬ SlotStarts pj ch (.cbInitResult isSuccess) ∧ Reports m m' k := by
  have hset := Quiet.setChannel h { ch with isInitialized := isSuccess }
  unfold onICEInit at hst
  cases isSuccess with
  | false =>
    simp only [Bool.false_eq_true, if_false, Option.some.injEq] at hst
    subst hst
    refine Or.inr ⟨fun hs => ?_, hset.error _ _⟩
    cases hs.1
  | true =>
    simp only [if_true] at hst
    split at hst
    · rename_i hnil
      cases hst
      exact Or.inl ⟨⟨rfl, Or.inl hnil⟩, hset⟩
    · rename_i hsdp
      have hview : (m.setChannel k sess { ch with isInitialized := true }).view k =
          some (sess.sessionId, true) := by rw [view_setChannel h]; exact h
      rcases negoWith_cases hview hst with ⟨hok, hq⟩ | ⟨hno, hr⟩
      · exact Or.inl ⟨⟨rfl, Or.inr hok⟩, hset.trans hq⟩
      · exact Or.inr ⟨fun hs => hno (hs.2.resolve_left hsdp), hset.reports hr⟩

/-- The steps: quiet ones, those that report an error and leave the session, a new session, and
the end of one. -/
inductive SessStep (pj : PjSock) (m : SessionMgr) : SessAction → SessionMgr → Prop
  | quiet (a : SessAction) (m' : SessionMgr) (hok : IceStarts pj m a) (hq : Quiet m m') :
    SessStep pj m a m'
  | reports (a : SessAction) (m' : SessionMgr) (k : SessId) (sess : Session) (ch : IceChannel)
    (hno : ¬ IceStarts pj m a) (hk : m.channelOf k = some (sess, ch)) (hr : Reports m m' k) :
    SessStep pj m a m'
  | create (sessionId uuid : QString) (isControl started : Bool) (hne : usedId sessionId uuid ≠ [])
    (hnone : m.hashSession.lookup (usedId sessionId uuid) = none) :
    SessStep pj m (.initSession sessionId uuid started)
      (m.createSession (usedId sessionId uuid) isControl started)
  | close (k : SessId) (sess : Session) (ch : IceChannel) (errMsg : QString)
    (hk : m.channelOf k = some (sess, ch)) :
    SessStep pj m (.conncetError k errMsg) (m.conncetError k sess ch errMsg)

/-- `initSession` creates a session under the id that is used. -/
theorem initSession_cases (sessionId uuid : QString) (started : Bool) :
    m.initSession sessionId uuid started = m.createSession (usedId sessionId uuid)
      (decide (sessionId ≠ [])) started := by
  unfold initSession usedId
  split <;> simp [*]

/-- The step that `initSession` makes. -/
theorem step_initSession {sessionId uuid : QString} {started : Bool}
    (h : m.step pj (.initSession sessionId uuid started) = some m') :
    SessStep pj m (.initSession sessionId uuid started) m' := by
  simp only [step] at h
  split at h
  · cases h
  · rename_i huuid
    cases h
    rw [initSession_cases]
    have hne : usedId sessionId uuid ≠ [] := by
      unfold usedId
      split <;> assumption
    cases hl : m.hashSession.lookup (usedId sessionId uuid) with
    | none => exact .create sessionId uuid _ started hne hl
    | some k =>
      -- `createSession` returns the session that is stored.
      refine .quiet _ _ (fun hnone => ?_) ?_
      · change m.hashSession.lookup (usedId sessionId uuid) = none at hnone
        rw [hl] at hnone
        cases hnone
      · simp only [createSession, hl]
        exact ⟨⟨rfl, rfl, rfl⟩, rfl⟩

/-- The step that `updateRemoteSDP` makes. -/
theorem step_updateRemoteSDP {sessionId sdp : QString}
    (h : m.step pj (.updateRemoteSDP sessionId sdp) = some m') :
    SessStep pj m (.updateRemoteSDP sessionId sdp) m' := by
  simp only [step] at h
  split at h
  · cases h
  · rename_i k hl
    split at h
    · cases h
    · rename_i sess ch hk
      have hview := view_of_channelOf hk
      have hset := Quiet.setChannel hview { ch with remoteSDP := sdp }
      simp only [updateRemoteSDP] at h
      split at h
      · rename_i hinit
        have hview' : (m.setChannel k sess { ch with remoteSDP := sdp }).view k =
            some (sess.sessionId, true) := by rw [view_setChannel hview]; exact hview
        -- The text is stored first, and then negotiated with.
        rcases negoWith_cases hview' h with ⟨hok, hq⟩ | ⟨hno, hr⟩
        · refine .quiet _ _ (fun k' sess' ch' hl' hk' _ => ?_) (hset.trans hq)
          cases hl.symm.trans hl'
          cases hk.symm.trans hk'
          exact hok
        · exact .reports _ _ k sess ch (fun hc => hno (hc k sess ch hl hk hinit)) hk
            (hset.reports hr)
      · -- Before the initialisation, the text is kept for `onICEInit`.
        rename_i hinit
        cases h
        refine .quiet _ _ (fun k' sess' ch' hl' hk' hinit' => ?_) hset
        cases hl.symm.trans hl'
        cases hk.symm.trans hk'
        exact absurd hinit' hinit

/-- A queued signal is quiet when ICE starts, and reports an error otherwise. -/
theorem iceSlot_cases {sig : IceSignal} (h : m.view k = some (sess.sessionId, true))
    (hst : m.iceSlot pj k sess ch sig = some m') :
    SlotStarts pj ch sig ∧ Quiet m m' ∨ ¬ SlotStarts pj ch sig ∧ Reports m m' k := by
  cases sig with
  | cbInitResult success => exact onICEInit_cases h hst
  | cbNegoResult success isRelay connIp =>
    cases hst
    exact onICENego_cases ch h success isRelay connIp

/-- The step that a queued signal makes. -/
theorem step_slot (h : m.step pj .slot = some m') : SessStep pj m .slot m' := by
  simp only [step] at h
  split at h
  · cases h
  · rename_i k sig rest hpend
    have hpop : Quiet m { m with pending := rest } := ⟨⟨rfl, rfl, rfl⟩, rfl⟩
    split at h
    · -- The channel is gone, and Qt drops its signals.
      rename_i hk
      cases h
      refine .quiet _ _ (fun k' sig' rest' sess' ch' hpend' hk' => ?_) hpop
      cases hpend.symm.trans hpend'
      cases hk.symm.trans hk'
    · rename_i sess ch hk
      have hview : ({ m with pending := rest } : SessionMgr).view k =
          some (sess.sessionId, true) := view_of_channelOf (m := m) hk
      rcases iceSlot_cases hview h with ⟨hok, hq⟩ | ⟨hno, hr⟩
      · refine .quiet _ _ (fun k' sig' rest' sess' ch' hpend' hk' => ?_) (hpop.trans hq)
        cases hpend.symm.trans hpend'
        cases hk.symm.trans hk'
        exact hok
      · exact .reports _ _ k sess ch (fun hc => hno (hc k sig rest sess ch hpend hk)) hk
          (hpop.reports hr)

/-- The inversion of the step function. -/
theorem step_cases {a : SessAction} (h : m.step pj a = some m') : SessStep pj m a m' := by
  cases a with
  | initSession sessionId uuid started => exact step_initSession h
  | updateRemoteSDP sessionId sdp => exact step_updateRemoteSDP h
  | iceInitResult k success =>
    simp only [step] at h
    split at h
    · cases h
    · rename_i sess ch hk
      split at h
      · cases h
        exact .quiet _ _ trivial ⟨⟨rfl, rfl, view_setChannel (view_of_channelOf hk) _⟩, rfl⟩
      · cases h
  | iceNegoResult k success isRelay connIp =>
    simp only [step] at h
    split at h
    · cases h
    · split at h
      · cases h
        exact .quiet _ _ trivial ⟨⟨rfl, rfl, rfl⟩, rfl⟩
      · cases h
  | slot => exact step_slot h
  | conncetError k errMsg =>
    simp only [step] at h
    split at h
    · cases h
    · rename_i sess ch hk
      cases h
      exact .close k sess ch errMsg hk

/-! ### The invariant -/

/-- The stored sessions are the sessions that are there, each under its id, and those that have
reported an error are not there. -/
structure Tidy (m : SessionMgr) : Prop where
  stored : ∀ id k, m.hashSession.lookup id = some k → m.view k = some (id, true)
  there : ∀ k id b, m.view k = some (id, b) → m.hashSession.lookup id = some k ∧ id ≠ []
  fresh : ∀ k, m.nextSess ≤ k → m.view k = none
  retired : ∀ r ∈ m.errors, m.view r.sess = none ∧ r.sess < m.nextSess ∧ r.sessionId ≠ []

/-- There is no session at first. -/
theorem Tidy.init : Tidy init where
  stored _ _ hl := by cases hl
  there _ _ _ hv := by cases hv
  fresh _ _ := rfl
  retired _ hr := by cases hr

/-- The sessions are stored under their ids. -/
theorem Tidy.files (h : Tidy m) : m.hashSession.Files m.view Prod.fst where
  stored id k hl := ⟨(id, true), h.stored id k hl, rfl⟩
  there k p hv := (h.there k p.1 p.2 hv).1

/-- The sessions that are there have an id and a channel. -/
theorem Tidy.named (h : Tidy m) (p : QString × Bool) (hv : m.view k = some p) :
    p.1 ≠ [] ∧ p.2 = true := by
  obtain ⟨hl, hne⟩ := h.there k p.1 p.2 hv
  have hstored := h.stored p.1 k hl
  rw [hv] at hstored
  exact ⟨hne, congrArg Prod.snd (Option.some.inj hstored)⟩

/-- The invariant from what is seen of the sessions. -/
theorem Tidy.of_files (hfiles : m.hashSession.Files m.view Prod.fst)
    (hnamed : ∀ k p, m.view k = some p → p.1 ≠ [] ∧ p.2 = true)
    (hfresh : ∀ k, m.nextSess ≤ k → m.view k = none)
    (hretired : ∀ r ∈ m.errors,
      m.view r.sess = none ∧ r.sess < m.nextSess ∧ r.sessionId ≠ []) : Tidy m where
  stored id k hl := by
    obtain ⟨⟨id', b⟩, hv, rfl⟩ := hfiles.stored id k hl
    obtain ⟨-, rfl⟩ := hnamed k _ hv
    exact hv
  there k id b hv := ⟨hfiles.there k _ hv, (hnamed k _ hv).1⟩
  fresh := hfresh
  retired := hretired

/-- A quiet step keeps the invariant. -/
theorem Tidy.quiet (h : Tidy m) (hq : Quiet m m') : Tidy m' where
  stored := by rw [hq.hashSession, hq.view]; exact h.stored
  there := by rw [hq.hashSession, hq.view]; exact h.there
  fresh := by rw [hq.nextSess, hq.view]; exact h.fresh
  retired := by rw [hq.errors, hq.nextSess, hq.view]; exact h.retired

/-- What `createSession` does for a new id. -/
theorem createSession_new {uuid : QString} (hnone : m.hashSession.lookup uuid = none)
    (isControl started : Bool) :
    (m.createSession uuid isControl started).hashSession =
        m.hashSession.insert uuid m.nextSess ∧
      (m.createSession uuid isControl started).nextSess = m.nextSess + 1 ∧
      (m.createSession uuid isControl started).sessions =
        Function.update m.sessions m.nextSess
          (some { sessionId := uuid, isControl, channel := some (newChannel started) }) := by
  simp only [createSession, hnone, sessionInit]
  cases started with
  | true => exact ⟨rfl, rfl, rfl⟩
  | false => exact ⟨rfl, rfl, rfl⟩

/-- A session that is filed is returned as it is. -/
theorem createSession_old {uuid : QString} (hl : m.hashSession.lookup uuid = some k)
    (isControl started : Bool) : m.createSession uuid isControl started = m := by
  simp only [createSession, hl]

/-- A new session is seen under its id. -/
theorem createSession_view {uuid : QString} (hnone : m.hashSession.lookup uuid = none)
    (isControl started : Bool) :
    (m.createSession uuid isControl started).view =
      Function.update m.view m.nextSess (some (uuid, true)) :=
  view_of_update (createSession_new hnone isControl started).2.2

/-- A new session reports an error when its ICE socket does not start, and none when it does. -/
theorem createSession_errors {uuid : QString} (hnone : m.hashSession.lookup uuid = none)
    (isControl : Bool) :
    (m.createSession uuid isControl true).errors = m.errors ∧
      ∃ r ∈ (m.createSession uuid isControl false).errors, r.sess = m.nextSess := by
  simp only [createSession, hnone, sessionInit]
  exact ⟨rfl, _, List.mem_append_right _ List.mem_cons_self, rfl⟩

/-- A new session whose ICE socket starts keeps the invariant. -/
theorem Tidy.create (h : Tidy m) {uuid : QString} (hne : uuid ≠ [])
    (hnone : m.hashSession.lookup uuid = none) (isControl : Bool) :
    Tidy (m.createSession uuid isControl true) := by
  obtain ⟨hhash, hnext, -⟩ := createSession_new hnone isControl true
  have hview := createSession_view hnone isControl true
  obtain ⟨herr, -⟩ := createSession_errors hnone isControl
  have hnew : m.view m.nextSess = none := h.fresh _ (Nat.le_refl _)
  refine Tidy.of_files ?_ (fun k p hv => ?_) (fun k hk => ?_) fun r hr => ?_
  · rw [hhash, hview]
    exact h.files.insert (a := (uuid, true)) hnew hnone
  · rw [hview] at hv
    rcases update_cases hv with ⟨-, heq⟩ | ⟨-, hold⟩
    · cases heq
      exact ⟨hne, rfl⟩
    · exact h.named p hold
  · rw [hnext] at hk
    rw [hview, Function.update_of_ne (Nat.ne_of_gt hk)]
    exact h.fresh k (Nat.le_of_lt hk)
  · rw [herr] at hr
    obtain ⟨hv, hlt, hid⟩ := h.retired r hr
    rw [hview, hnext, Function.update_of_ne (Nat.ne_of_lt hlt)]
    exact ⟨hv, Nat.lt_succ_of_lt hlt, hid⟩

/-- `conncetError` removes the session. -/
theorem conncetError_sessions (sess : Session) (ch : IceChannel) (errMsg : QString) :
    (m.conncetError k sess ch errMsg).sessions = Function.update m.sessions k none := by
  funext j
  by_cases hj : j = k
  · subst hj
    simp [conncetError, sessionOnClose, onClose]
  · simp [conncetError, sessionOnClose, onClose, setChannel, setSession, error,
      Function.update_of_ne hj]

/-- `SessionMgr::onClose` removes the key that `QHash::key` finds. -/
theorem conncetError_hashSession (sess : Session) (ch : IceChannel) (errMsg : QString) :
    (m.conncetError k sess ch errMsg).hashSession =
      m.hashSession.erase (m.hashSession.key k []) := rfl

/-- `conncetError` takes the session out of the map, and deletes it. -/
theorem Tidy.close (h : Tidy m) (hk : m.channelOf k = some (sess, ch)) (errMsg : QString) :
    Tidy (m.conncetError k sess ch errMsg) := by
  have hvk := view_of_channelOf hk
  have hidk := (h.named _ hvk).1
  -- The session is erased under the key that it is filed with, its own id.
  have hkey : m.hashSession.key k [] = sess.sessionId := h.files.key_eq hvk []
  have hview : (m.conncetError k sess ch errMsg).view = Function.update m.view k none :=
    view_of_update (conncetError_sessions sess ch errMsg)
  have hlt : k < m.nextSess := by
    by_contra hge
    rw [h.fresh k (Nat.le_of_not_lt hge)] at hvk
    cases hvk
  refine Tidy.of_files ?_ (fun j p hv => ?_) (fun j hj => ?_) fun r hr => ?_
  · rw [conncetError_hashSession, hkey, hview]
    exact h.files.erase hvk
  · rw [hview] at hv
    rcases update_cases hv with ⟨-, heq⟩ | ⟨-, hold⟩
    · cases heq
    · exact h.named p hold
  · rw [hview, Function.update_of_ne (Nat.ne_of_gt (Nat.lt_of_lt_of_le hlt hj))]
    exact h.fresh j hj
  · change r ∈ m.errors ++ [_] at hr
    rw [hview]
    rcases List.mem_append.mp hr with hold | hnew
    · -- A session that failed before stays without a channel.
      obtain ⟨hv, hlt', hid⟩ := h.retired r hold
      refine ⟨?_, hlt', hid⟩
      by_cases hj : r.sess = k
      · rw [hj, Function.update_self]
      · rw [Function.update_of_ne hj]
        exact hv
    · cases List.mem_singleton.mp hnew
      exact ⟨Function.update_self _ _ _, hlt, hidk⟩

/-- A run without failures of ICE keeps the invariant. -/
theorem Tidy.step {a : SessAction} (h : Tidy m) (hst : m.step pj a = some m')
    (hok : IceStarts pj m a) : Tidy m' := by
  cases step_cases hst with
  | quiet _ _ _ hq => exact h.quiet hq
  | reports _ _ _ _ _ hno => exact absurd hok hno
  | create sessionId uuid isControl started hne hnone =>
    have hstarted : started = true := hok hnone
    rw [hstarted]
    exact h.create hne hnone isControl
  | close k sess ch errMsg hk => exact h.close hk errMsg

/-! ### What the invariant gives -/

/-- The invariant gives the property. -/
theorem Tidy.errorRetires (h : Tidy m) : ErrorRetires m := by
  have hgone : ∀ r ∈ m.errors, ∀ id, m.hashSession.lookup id ≠ some r.sess := by
    intro r hr id hl
    have hv := h.stored id r.sess hl
    rw [(h.retired r hr).1] at hv
    cases hv
  refine ⟨hgone, fun r hr uuid started => ?_, fun id k hl => ?_⟩
  · have hid : usedId r.sessionId uuid = r.sessionId := if_neg (h.retired r hr).2.2
    rw [initSession_cases, hid]
    cases hl : m.hashSession.lookup r.sessionId with
    | some k =>
      -- Another session was made with the id meanwhile.
      rw [createSession_old hl]
      refine ⟨k, hl, fun heq => hgone r hr _ (heq ▸ hl), hasChannel_of_view (h.stored _ k hl), ?_⟩
      exact fun hnone => by cases hnone
    | none =>
      obtain ⟨hhash, -, -⟩ := createSession_new hl (decide (r.sessionId ≠ [])) started
      refine ⟨m.nextSess, ?_, Nat.ne_of_gt (h.retired r hr).2.1, ?_, fun _ => rfl⟩
      · rw [hhash]
        exact AList.lookup_insert _
      · have hnew : (m.createSession r.sessionId (decide (r.sessionId ≠ [])) started).view
            m.nextSess = some (r.sessionId, true) := by
          rw [createSession_view hl]
          exact Function.update_self _ _ _
        exact hasChannel_of_view hnew
  · exact ⟨hasChannel_of_view (h.stored id k hl), fun r hr heq => hgone r hr id (heq ▸ hl)⟩

/-- After a failure of ICE, the session that has reported it is stored. -/
theorem Tidy.iceStarts_of_errorRetires {a : SessAction} (h : Tidy m)
    (hst : m.step pj a = some m') (hret : ErrorRetires m') : IceStarts pj m a := by
  cases step_cases hst with
  | quiet _ _ hok _ => exact hok
  | reports _ _ k sess ch hno hk hr =>
    obtain ⟨r, herr, hrk⟩ := hr.errors
    have hl := (h.there k _ _ (view_of_channelOf hk)).1
    rw [← hr.hashSession, ← hrk] at hl
    exact absurd hl (hret.gone r (herr ▸ List.mem_append_right _ List.mem_cons_self) _)
  | create sessionId uuid isControl started hne hnone =>
    intro _
    cases started with
    | true => rfl
    | false =>
      obtain ⟨r, hr, hrk⟩ := (createSession_errors hnone isControl).2
      have hhash := (createSession_new hnone isControl false).1
      refine absurd ?_ (hret.gone r hr (usedId sessionId uuid))
      rw [hhash, hrk]
      exact AList.lookup_insert _
  | close k sess ch errMsg hk => trivial

/-! ### Runs -/

/-- Along a run, every error retires its session, exactly when ICE never fails to start, to
initialise, or to negotiate for a channel that has not negotiated. -/
theorem errorRetires_iff (pj : PjSock) (as : List SessAction) (u : SessionMgr)
    (hrun : run (step pj) init as = some u) :
    Always (step pj) ErrorRetires init as ↔ AllSteps (step pj) (IceStarts pj) init as :=
  always_iff_allSteps (fun _ _ _ (h : Tidy _) hst hok => h.step hst hok)
    (fun _ h => h.errorRetires) (fun _ _ _ h hst hret => h.iceStarts_of_errorRetires hst hret)
    as init u Tidy.init hrun

/-- A session is initialised and negotiates, its uTP socket is destroyed, and the session is
made again. -/
theorem errorRetires_iff_connectError :
    Always (step inetSock) ErrorRetires init
      [.initSession ['s'] ['u'] true, .iceInitResult 0 true, .slot,
        .iceNegoResult 0 true false ['a', ':'], .slot, .conncetError 0 [],
        .initSession ['s'] ['u'] true] := by
  refine (errorRetires_iff inetSock _ _ rfl).mpr ?_
  refine AllSteps.cons (fun _ => rfl) rfl ?_
  refine AllSteps.cons trivial rfl ?_
  refine AllSteps.cons (fun k sig rest sess ch hpend hk => ?_) rfl ?_
  · cases hpend
    cases hk
    exact ⟨rfl, Or.inl rfl⟩
  refine AllSteps.cons trivial rfl ?_
  refine AllSteps.cons (fun k sig rest sess ch hpend hk => ?_) rfl ?_
  · cases hpend
    exact Or.inl rfl
  refine AllSteps.cons trivial rfl ?_
  exact AllSteps.cons (fun _ => rfl) rfl trivial

/-- The negotiation fails. The channel reports it, nothing is pending, and the session is still
stored; `initSession` with its id gives it back. -/
theorem not_errorRetires_negoFailed :
    ∃ u, run (step inetSock) init
        [.initSession ['s'] ['u'] true, .iceInitResult 0 true, .slot,
          .iceNegoResult 0 false false [], .slot] = some u ∧
      u.pending = [] ∧ (∃ r ∈ u.errors, r.sess = 0 ∧ r.sessionId = ['s']) ∧
      u.hashSession.lookup ['s'] = some 0 ∧
      (u.initSession ['s'] ['u'] true).hashSession.lookup ['s'] = some 0 ∧
      ¬ ErrorRetires u := by
  refine ⟨_, rfl, rfl, ⟨_, List.mem_cons_self, rfl, rfl⟩, rfl, rfl, fun h => ?_⟩
  exact h.gone _ List.mem_cons_self ['s'] rfl

end SessionMgr

end EChannel.LibTrans
