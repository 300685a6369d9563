import EChannel.LibTrans.TurnAuth

/-!
# `EChannel.Proofs.LibTrans.TurnCredentials`: which credential reaches pjnath

`setTurnAuth` copies the user name into the arrays of the password and of the realm too.
`staticCred_short` is the credential for a user name that fits its array, `username_long` that
for one that does not: the array then has no NUL, and the string goes on in the next ones.

A start of a socket makes a configuration when it asks pjnath for a transport
(`config_isSome_iff`). The options change in `init` only (`opt_step`). So the credential is as
configured in every later session if and only if the password and the realm are the user name,
and this is a C string that fits (`credentials_reach_pjnath_iff`).
-/

set_option autoImplicit false

namespace EChannel.LibTrans

open CBytes

section
variable {uName passwd realm : QByteArray}

/-! ### The credential -/

/-- A user name that fits is read back from each array. -/
theorem staticCred_short (h : (cStr uName).length < maxTurncharlen) (behind : QByteArray) :
    staticCred (setTurnAuth uName passwd realm) behind =
      { username := cStr uName, realm := cStr uName, data := cStr uName, dataType := .hashed } := by
  have hlen : ∀ v : Vector UInt8 maxTurncharlen, v.toList.length = maxTurncharlen := fun v =>
    Vector.length_toList
  have hread : ∀ rest, cStr ((strncpy maxTurncharlen uName).toList ++ rest) = cStr uName :=
    fun rest => cStr_strncpy h rest
  have hdrop : ∀ rest, ((strncpy maxTurncharlen uName).toList ++ rest).drop maxTurncharlen = rest :=
    fun rest => List.drop_left' (hlen _)
  have htwice : ∀ m : QByteArray, m.drop (2 * maxTurncharlen) =
      (m.drop maxTurncharlen).drop maxTurncharlen := by
    intro m
    rw [List.drop_drop, Nat.two_mul]
  simp only [staticCred, IceOptions.memory, setTurnAuth, htwice, hdrop, hread]

/-- A user name that does not fit is read on through all three arrays. -/
theorem username_long (passwd realm : QByteArray) (h : maxTurncharlen ≤ (cStr uName).length)
    (behind : QByteArray) :
    3 * maxTurncharlen ≤
      (staticCred (setTurnAuth uName passwd realm) behind).username.length := by
  show 3 * maxTurncharlen ≤ (cStr ((strncpy maxTurncharlen uName).toList ++
    ((strncpy maxTurncharlen uName).toList ++
      ((strncpy maxTurncharlen uName).toList ++ behind)))).length
  rw [cStr_strncpy_of_le h, cStr_strncpy_of_le h, cStr_strncpy_of_le h]
  simp only [List.length_append, List.length_take]
  omega

end

/-- Another call than `TransferInstance::init`. -/
def TurnAction.Later : TurnAction → Prop
  | .init _ _ _ => False
  | _ => True

namespace TurnApp

/-- The credential of a configuration is the configured one. -/
def AsConfigured (uName passwd realm : QString) (cred : StaticCred) : Prop :=
  cred.username = toStdString uName ∧ cred.data = toStdString passwd ∧
    cred.realm = toStdString realm

/-- The static credential that a call puts into a configuration is the configured one. -/
def Credentials (uName passwd realm : QString) (s : TurnApp) (a : TurnAction) : Prop :=
  ∀ cfg, s.config a = some cfg → ∀ turn, cfg.turn = some turn →
    AsConfigured uName passwd realm turn.authCred

section
variable {uName passwd realm : QString}

/-- The condition on the triple: the password and the realm are the user name, which is a C string
and fits its array. -/
def SameCString (uName passwd realm : QString) : Prop :=
  (nul ∉ uName ∧ (toStdString uName).length < maxTurncharlen) ∧ passwd = uName ∧ realm = uName

/-- The credential is as configured if and only if the three strings are one C string that
fits. -/
theorem asConfigured_iff (hlen : utf16Length uName < maxTurncharlen) (behind : QByteArray) :
    AsConfigured uName passwd realm (staticCred (setIceTurnAuth uName passwd realm) behind) ↔
      SameCString uName passwd realm := by
  have hbytes := length_toStdString_le uName
  have hmax : maxTurncharlen = 16 := rfl
  by_cases hfits : (cStr (toStdString uName)).length < maxTurncharlen
  · rw [setIceTurnAuth, staticCred_short hfits]
    constructor
    · rintro ⟨husername, hdata, hrealm⟩
      have husername' : cStr (toStdString uName) = toStdString uName := husername
      refine ⟨⟨fun hnul => ?_, ?_⟩, ?_, ?_⟩
      · -- A C string ends at a NUL, so the user name has none.
        have hzero := zero_notMem_cStr (toStdString uName)
        rw [husername'] at hzero
        exact hzero (zero_mem_toStdString.mpr hnul)
      · rw [husername'] at hfits
        exact hfits
      · exact toStdString_injective (hdata.symm.trans husername)
      · exact toStdString_injective (hrealm.symm.trans husername)
    · rintro ⟨⟨hnul, -⟩, hpasswd, hrealm⟩
      rw [hpasswd, hrealm]
      have hself : cStr (toStdString uName) = toStdString uName :=
        cStr_eq_self fun h => hnul (zero_mem_toStdString.mp h)
      exact ⟨hself, hself, hself⟩
  · have hlong : maxTurncharlen ≤ (cStr (toStdString uName)).length := Nat.le_of_not_lt hfits
    refine iff_of_false ?_ ?_
    · -- Fifteen code units are 45 bytes at most, and three arrays are 48.
      rintro ⟨husername, -⟩
      have heq : (staticCred (setTurnAuth (toStdString uName) (toStdString passwd)
          (toStdString realm)) behind).username = toStdString uName := husername
      have h48 := username_long (toStdString passwd) (toStdString realm) hlong behind
      rw [heq] at h48
      omega
    · rintro ⟨⟨-, hshort⟩, -⟩
      exact hfits (Nat.lt_of_le_of_lt (length_cStr_le _) hshort)

/-! ### Sessions -/

variable {pj : PjSock} {s t : TurnApp} {a : TurnAction}

/-- The calls on the sockets keep the options. -/
theorem opt_stepApp {b : IceApp.IceAction} (h : s.stepApp pj b = some t) : t.opt = s.opt := by
  obtain ⟨app, -, rfl⟩ := Option.map_eq_some_iff.mp h
  rfl

/-- A later step leaves the options alone. -/
theorem opt_step (ha : a.Later) (h : step pj s a = some t) : t.opt = s.opt := by
  cases a with
  | init uName passwd realm => exact ha.elim
  | startICESocket k turnsrv soSndSize soRecvSize behind r => exact opt_stepApp h
  | other b =>
    cases b with
    | startICESocket k r => cases h
    | newSocket => exact opt_stepApp h
    | onIceComplete t op success isRelay connIp => exact opt_stepApp h
    | localSdp k ok => exact opt_stepApp h
    | negoWith k remoteSdp => exact opt_stepApp h
    | iceSentTo k => exact opt_stepApp h
    | deleteSocket k => exact opt_stepApp h

/-- A call has asked pjnath for a transport: this is in what it appends to the log. -/
def AsksFor (before after : IceApp) : Prop :=
  ∃ timerHeap ioqueue thread n,
    IceEvent.stransCreate timerHeap ioqueue thread n ∈ after.log.drop before.log.length

/-- The call of `pj_ice_strans_create` is in what a start appends to the log. -/
theorem asksFor_stransCreate {before after : IceApp} {events : List IceEvent}
    (hlog : after.log = before.log ++ events) (k : IceSockId) (sock : PjIceSocket) (ok : Bool) :
    AsksFor before (after.stransCreate k sock ok).1 := by
  have hrecord : (after.stransCreate k sock ok).1.log = before.log ++ (events ++
      [.stransCreate after.cfg.timerHeap after.cfg.ioqueue after.cfg.thread after.teardowns]) := by
    rw [← List.append_assoc, ← hlog]
    unfold IceApp.stransCreate
    dsimp only
    split <;> rfl
  rw [AsksFor, hrecord, List.drop_left]
  exact ⟨_, _, _, _, List.mem_append_right events List.mem_cons_self⟩

/-- `createSession` makes a configuration if and only if it asks pjnath for a transport. -/
theorem createSessionCfg_isSome_iff (s : TurnApp) (k : IceSockId) (sock : PjIceSocket)
    (turnsrv : QString) (soSndSize soRecvSize : UInt32) (behind : QByteArray) (r : StartResult) :
    (s.createSessionCfg sock turnsrv soSndSize soRecvSize behind r).isSome = true ↔
      AsksFor s.app (s.app.createSession k sock r).1 := by
  unfold createSessionCfg IceApp.createSession
  by_cases hice : sock.icest.isSome = true
  · rw [if_pos hice, if_pos hice]
    refine iff_of_false (by simp) ?_
    rintro ⟨_, _, _, _, hmem⟩
    simp at hmem
  · rw [if_neg hice, if_neg hice]
    by_cases hpool : s.app.cfg.pool = true
    · simp only [hpool, if_true, Bool.true_eq_false, false_and, if_false]
      exact iff_of_true rfl (asksFor_stransCreate (List.append_nil _).symm k sock r.strans)
    · have hlog : ∃ ok pool, (s.app.iceAppInit r).1.log = s.app.log ++ [.iceAppInit ok pool] := by
        rw [IceApp.iceAppInit, if_neg hpool]
        exact ⟨_, _, rfl⟩
      obtain ⟨ok, pool, hlog⟩ := hlog
      cases hinit : (s.app.iceAppInit r).2 with
      | true =>
        simp only [hpool, hinit, Bool.true_eq_false, Bool.false_eq_true, and_false, if_true,
          if_false]
        exact iff_of_true rfl (asksFor_stransCreate hlog k sock r.strans)
      | false =>
        -- The start-up has failed, and the log has its result only.
        simp only [hpool, hinit, Bool.false_eq_true, and_self, if_true, if_false]
        refine iff_of_false (by simp) ?_
        rintro ⟨_, _, _, _, hmem⟩
        simp [hlog] at hmem

/-- A start of a socket makes a configuration if and only if it asks pjnath for a transport. -/
theorem config_isSome_iff {k : IceSockId} {turnsrv : QString} {soSndSize soRecvSize : UInt32}
    {behind : QByteArray} {r : StartResult}
    (h : step pj s (.startICESocket k turnsrv soSndSize soRecvSize behind r) = some t) :
    (s.config (.startICESocket k turnsrv soSndSize soRecvSize behind r)).isSome = true ↔
      AsksFor s.app t.app := by
  obtain ⟨app, happ, rfl⟩ := Option.map_eq_some_iff.mp h
  obtain ⟨sock, hsock, rfl⟩ := Option.map_eq_some_iff.mp happ
  have hlog : (s.app.startICESocket k sock r).log = (s.app.createSession k sock r).1.log := by
    unfold IceApp.startICESocket
    dsimp only
    split <;> rfl
  show ((s.app.sockets k).bind _).isSome = true ↔
    AsksFor s.app (s.app.startICESocket k sock r)
  rw [hsock, Option.bind_some, AsksFor, hlog]
  exact createSessionCfg_isSome_iff s k sock turnsrv soSndSize soRecvSize behind r

/-- A configuration with a TURN server has the credential of the options. -/
theorem authCred_of_config {cfg : PjIceStransCfg} {turn : TurnCfg} (h : s.config a = some cfg)
    (hturn : cfg.turn = some turn) : ∃ behind, turn.authCred = staticCred s.opt behind := by
  cases a with
  | init uName passwd realm => cases h
  | other b => cases h
  | startICESocket k turnsrv soSndSize soRecvSize behind r =>
    obtain ⟨sock, -, hcfg⟩ := Option.bind_eq_some_iff.mp h
    unfold createSessionCfg at hcfg
    split at hcfg
    · cases hcfg
    · split at hcfg
      · cases hcfg
      · cases hcfg
        unfold initIceStransCfg at hturn
        dsimp only at hturn
        split at hturn
        · cases hturn
        · cases hturn
          exact ⟨behind, rfl⟩

/-- Two calls that make a session with a server. -/
def newSession (s : TurnApp) : List TurnAction :=
  [.other .newSocket, .startICESocket s.app.nextSocket ['x'] 0 0 [] ⟨true, true, true, true⟩]

/-- In every state, a new socket makes a configuration with a TURN server. -/
theorem config_newSession (pj : PjSock) (s : TurnApp) :
    ∃ t cfg turn, step pj s (.other .newSocket) = some t ∧
      t.config (.startICESocket s.app.nextSocket ['x'] 0 0 [] ⟨true, true, true, true⟩) =
        some cfg ∧ cfg.turn = some turn ∧ turn.authCred = staticCred s.opt [] := by
  refine ⟨_, initIceStransCfg s.opt [] (toStdString ['x']) 0 0, _, rfl, ?_, rfl, rfl⟩
  show ((Function.update s.app.sockets s.app.nextSocket _) s.app.nextSocket).bind _ = _
  rw [Function.update_self, Option.bind_some]
  -- The socket has no transport, and the runtime is there or can be made.
  unfold createSessionCfg
  rw [if_neg (show ¬ (none : Option StransId).isSome = true by decide)]
  cases hpool : s.app.newSocket.cfg.pool with
  | true => exact if_neg fun h => absurd h.1 (by decide)
  | false =>
    have hinit : (s.app.newSocket.iceAppInit ⟨true, true, true, true⟩).2 = true := by
      rw [IceApp.iceAppInit, if_neg (by rw [hpool]; decide)]
      rfl
    exact if_neg fun h => by cases hinit.symm.trans h.2

/-- After `TransferInstance::init`, every later session of every run has the credential as
configured if and only if the three strings are one C string that fits. -/
theorem credentials_reach_pjnath_iff (pj : PjSock) (s : TurnApp) (uName passwd realm : QString)
    (hlen : utf16Length uName < maxTurncharlen) :
    (∀ as : List TurnAction, (∀ a ∈ as, a.Later) →
      AllSteps (step pj) (Credentials uName passwd realm) (s.init uName passwd realm) as) ↔
      SameCString uName passwd realm := by
  constructor
  · intro h
    -- Forth: a new session shows what is in the options.
    obtain ⟨t, cfg, turn, hstep, hcfg, hturn, hcred⟩ :=
      config_newSession pj (s.init uName passwd realm)
    have hlater : ∀ a ∈ newSession (s.init uName passwd realm), a.Later := by
      simp [newSession, TurnAction.Later]
    have hall := h _ hlater
    have hconf := (hall.2 t hstep).1 cfg hcfg turn hturn
    rw [hcred] at hconf
    exact (asConfigured_iff hlen []).mp hconf
  · intro hsame as hlater
    -- Back: the invariant is that the options are those of `init`.
    have hkeep : ∀ (u : TurnApp) (a : TurnAction) (v : TurnApp),
        u.opt = setIceTurnAuth uName passwd realm → a.Later → step pj u a = some v →
        v.opt = setIceTurnAuth uName passwd realm := fun u a v hu ha hstep =>
      (opt_step ha hstep).trans hu
    have hcred : ∀ (u : TurnApp) (a : TurnAction),
        u.opt = setIceTurnAuth uName passwd realm → a.Later →
        Credentials uName passwd realm u a := by
      intro u a hu ha cfg hcfg turn hturn
      obtain ⟨behind, hauth⟩ := authCred_of_config hcfg hturn
      rw [hauth, hu]
      exact (asConfigured_iff hlen behind).mpr hsame
    exact allSteps_of_invariant hkeep hcred as _ rfl (allSteps_of_forall as _ hlater)

end

/-- The state before `TransferInstance::init`. -/
def start : TurnApp := { app := IceApp.init, opt := IceOptions.init }

/-- A triple of equal strings reaches pjnath. -/
theorem credentials_reach_pjnath_same :
    AllSteps (step ⟨fun _ => [], fun _ _ => none⟩)
      (Credentials "test".toList "test".toList "test".toList)
      (start.init "test".toList "test".toList "test".toList)
      (newSession (start.init "test".toList "test".toList "test".toList)) :=
  (credentials_reach_pjnath_iff ⟨fun _ => [], fun _ _ => none⟩ start "test".toList "test".toList
    "test".toList (by decide)).mpr ⟨⟨by decide, by decide⟩, rfl, rfl⟩ _
    (by simp [newSession, TurnAction.Later])

/-- The defaults of `TransferInstance::init` do not reach pjnath: the realm is the user name. -/
theorem credentials_default_realm :
    ¬ ∀ (pj : PjSock) (s : TurnApp) (uName passwd realm : QString),
      utf16Length uName < maxTurncharlen → utf16Length passwd < maxTurncharlen →
      utf16Length realm < maxTurncharlen → ∀ as : List TurnAction, (∀ a ∈ as, a.Later) →
        AllSteps (step pj) (Credentials uName passwd realm) (s.init uName passwd realm) as := by
  intro h
  obtain ⟨t, cfg, turn, hstep, hcfg, hturn, hcred⟩ :=
    config_newSession ⟨fun _ => [], fun _ _ => none⟩
      (start.init "test".toList "test".toList "www.vemic.com".toList)
  have hall := h ⟨fun _ => [], fun _ _ => none⟩ start "test".toList "test".toList
    "www.vemic.com".toList (by decide) (by decide) (by decide)
    (newSession (start.init "test".toList "test".toList "www.vemic.com".toList))
    (by simp [newSession, TurnAction.Later])
  have hconf := (hall.2 t hstep).1 cfg hcfg turn hturn
  have hname : turn.authCred.realm = toStdString "test".toList := by
    rw [hcred]
    rfl
  exact absurd (hname.symm.trans hconf.2.2) (by decide)

end TurnApp

end EChannel.LibTrans
