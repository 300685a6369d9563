import EChannel.App.Calls
import EChannel.Proofs.LibTrans.SessionErrors

/-!
# `EChannel.Proofs.App.CallRoles`: the sessions of calls and the connecting side

`initSession` infers the role of a client from `m_uuid`: who calls with an empty id creates one and
does not connect, who hands on an id connects. `m_uuid` is overwritten by received invites and
kept by a second call, so the two can come apart.

`Proper` is what every call should have. The condition for it is about the sender alone
(`OwnCall`): the id that goes out was created by this client, and the client has sent it to no one
else. That no other client has used the id, and that the invitee connects, follows for all clients
together. `proper_iff_ownCalls` has this, and that an invite may not arrive where it came from.
-/

set_option autoImplicit false

namespace EChannel

namespace LibTrans.SessionMgr

variable {m : SessionMgr} {k : SessId} {sess : Session} {ch : IceChannel}

/-! ### The roles of the sessions of a process -/

/-- `m_isControl` of the session that is stored under an id. -/
def role (m : SessionMgr) (id : QString) : Option Bool :=
  (m.hashSession.lookup id).bind fun k => (m.sessions k).map (·.isControl)

/-- The stored sessions are those that are there, each under its id, which is not empty. -/
structure Filed (m : SessionMgr) : Prop where
  files : m.hashSession.Files m.sessions Session.sessionId
  named : ∀ k sess, m.sessions k = some sess → sess.sessionId ≠ []
  fresh : ∀ k, m.nextSess ≤ k → m.sessions k = none

/-- The manager without a session. -/
theorem Filed.init : Filed init where
  files := QHash.Files.empty _
  named _ _ hs := by cases hs
  fresh _ _ := rfl

/-- A session that is there is not a new one. -/
theorem Filed.lt_nextSess (h : Filed m) (hs : m.sessions k = some sess) : k < m.nextSess := by
  by_contra hge
  rw [h.fresh k (Nat.le_of_not_lt hge)] at hs
  cases hs

/-- An id without a role is not in `m_hashSession`. -/
theorem Filed.role_eq_none (h : Filed m) {id : QString} (hr : m.role id = none) :
    m.hashSession.lookup id = none := by
  cases hl : m.hashSession.lookup id with
  | none => rfl
  | some k =>
    obtain ⟨sess, hs, -⟩ := h.files.stored id k hl
    unfold role at hr
    rw [hl, Option.bind_some, hs] at hr
    cases hr

/-- No session has the empty id. -/
theorem Filed.lookup_nil (h : Filed m) : m.hashSession.lookup [] = none := by
  cases hl : m.hashSession.lookup [] with
  | none => rfl
  | some k =>
    obtain ⟨sess, hs, hid⟩ := h.files.stored [] k hl
    exact absurd hid (h.named k sess hs)

/-- `createSession` files a session under the id that it is given. -/
theorem Filed.create (h : Filed m) {uuid : QString} (hne : uuid ≠ []) (isControl started : Bool) :
    Filed (m.createSession uuid isControl started) := by
  cases hl : m.hashSession.lookup uuid with
  | some k =>
    rw [createSession_old hl]
    exact h
  | none =>
    obtain ⟨hhash, hnext, hsess⟩ := createSession_new hl isControl started
    have hnew : m.sessions m.nextSess = none := h.fresh _ (Nat.le_refl _)
    refine ⟨?_, fun k sess hs => ?_, fun k hk => ?_⟩
    · rw [hhash, hsess]
      let sess : Session := { sessionId := uuid, isControl, channel := some (newChannel started) }
      exact h.files.insert (a := sess) hnew hl
    · rw [hsess] at hs
      rcases update_cases hs with ⟨-, heq⟩ | ⟨-, hold⟩
      · cases heq
        exact hne
      · exact h.named k sess hold
    · rw [hnext] at hk
      rw [hsess, Function.update_of_ne (Nat.ne_of_gt hk)]
      exact h.fresh k (Nat.le_of_lt hk)

/-- A new id gets the role that was asked for, and a stored one keeps its role. -/
theorem Filed.role_create (h : Filed m) (uuid : QString) (isControl started : Bool)
    (id : QString) :
    (m.createSession uuid isControl started).role id =
      if id = uuid ∧ m.role uuid = none then some isControl else m.role id := by
  cases hl : m.hashSession.lookup uuid with
  | some k =>
    obtain ⟨sess, hs, -⟩ := h.files.stored uuid k hl
    -- A session that is stored is returned, and keeps its role.
    have hsome : m.role uuid = some sess.isControl := by
      unfold role
      rw [hl, Option.bind_some, hs]
      rfl
    rw [createSession_old hl, hsome, if_neg (fun hboth => nomatch hboth.2)]
  | none =>
    obtain ⟨hhash, -, hsess⟩ := createSession_new hl isControl started
    have hnone : m.role uuid = none := by
      unfold role
      rw [hl]
      rfl
    unfold role at hnone ⊢
    rw [hhash, hsess, QHash.lookup_insert_eq]
    by_cases hid : id = uuid
    · rw [if_pos hid, if_pos ⟨hid, hnone⟩, Option.bind_some, Function.update_self]
      rfl
    · rw [if_neg hid, if_neg (fun hboth => hid hboth.1)]
      cases hold : m.hashSession.lookup id with
      | none => rfl
      | some k =>
        obtain ⟨sess, hs, -⟩ := h.files.stored id k hold
        -- The other sessions are below the new one.
        have hk : k ≠ m.nextSess := Nat.ne_of_lt (h.lt_nextSess hs)
        rw [Option.bind_some, Option.bind_some, Function.update_of_ne hk]

/-- The members of a channel are not in the way of the sessions. -/
theorem Filed.setChannel (h : Filed m) (hk : m.sessions k = some sess) (ch : IceChannel) :
    Filed (m.setChannel k sess ch) ∧ (m.setChannel k sess ch).role = m.role := by
  have hsess : (m.setChannel k sess ch).sessions =
      Function.update m.sessions k (some { sess with channel := some ch }) := rfl
  refine ⟨⟨h.files.update hk rfl, fun j sess' hs => ?_, fun j hj => ?_⟩, ?_⟩
  · rw [hsess] at hs
    rcases update_cases hs with ⟨-, heq⟩ | ⟨-, hold⟩
    · cases heq
      exact h.named k sess hk
    · exact h.named j sess' hold
  · rw [hsess, Function.update_of_ne (Nat.ne_of_gt (Nat.lt_of_lt_of_le (h.lt_nextSess hk) hj))]
    exact h.fresh j hj
  · funext id
    unfold role
    rw [hsess]
    show (m.hashSession.lookup id).bind _ = _
    cases m.hashSession.lookup id with
    | none => rfl
    | some j =>
      by_cases hj : j = k
      · subst hj
        rw [Option.bind_some, Option.bind_some, Function.update_self, hk]
        rfl
      · rw [Option.bind_some, Option.bind_some, Function.update_of_ne hj]

/-- `conncetError` takes the session out of the map, and leaves the others. -/
theorem Filed.close (h : Filed m) (hk : m.sessions k = some sess) (ch : IceChannel)
    (errMsg : QString) :
    Filed (m.conncetError k sess ch errMsg) ∧
      ∀ id b, (m.conncetError k sess ch errMsg).role id = some b → m.role id = some b := by
  have hhash : (m.conncetError k sess ch errMsg).hashSession =
      m.hashSession.erase sess.sessionId := by
    rw [conncetError_hashSession, h.files.key_eq hk []]
  have hsess := conncetError_sessions (m := m) (k := k) sess ch errMsg
  refine ⟨⟨?_, fun j sess' hs => ?_, fun j hj => ?_⟩, fun id b hr => ?_⟩
  · rw [hhash, hsess]
    exact h.files.erase hk
  · rw [hsess] at hs
    rcases update_cases hs with ⟨-, heq⟩ | ⟨-, hold⟩
    · cases heq
    · exact h.named j sess' hold
  · rw [hsess, Function.update_of_ne (Nat.ne_of_gt (Nat.lt_of_lt_of_le (h.lt_nextSess hk) hj))]
    exact h.fresh j hj
  · unfold role at hr ⊢
    obtain ⟨j, hl, hb⟩ := Option.bind_eq_some_iff.mp hr
    rw [hhash] at hl
    obtain ⟨hold, hj⟩ := h.files.lookup_erase hk hl
    rw [hsess, Function.update_of_ne hj] at hb
    rw [hold, Option.bind_some]
    exact hb

end LibTrans.SessionMgr

namespace App.Calls

open LibTrans

variable {s t : Calls} {user : QString}

/-! ### The property and the condition -/

/-- Two invites are between the same users. -/
def SameUsers (i j : Invite) : Prop :=
  i.fromUser = j.fromUser ∧ i.toUser = j.toUser ∨ i.fromUser = j.toUser ∧ i.toUser = j.fromUser

/-- Every call has its own session and one connecting side: an id is not used again between other
users, the channel of the inviter does not connect, the channel of the invitee does. -/
structure Proper (s : Calls) : Prop where
  own : s.invites.Pairwise fun i j => i.uuid = j.uuid → SameUsers i j
  inviter : ∀ i ∈ s.invites, ∀ b, s.isControl i.fromUser i.uuid = some b → b = false
  invitee : ∀ i ∈ s.received, ∀ b, s.isControl i.toUser i.uuid = some b → b = true
  connects : ∀ i ∈ s.received, ∀ a b, s.isControl i.fromUser i.uuid = some a →
    s.isControl i.toUser i.uuid = some b → (a ^^ b) = true

/-- The client has created the id it would send, and has sent it to this user only. -/
def OwnCall (s : Calls) (user touser : QString) : Prop :=
  (user, (s.clients user).uuid) ∈ s.created ∧
    ∀ i ∈ s.invites, i.fromUser = user → i.uuid = (s.clients user).uuid → i.toUser = touser

/-- An invite that goes out is a call of its own, and one that arrives comes from elsewhere. -/
def OwnCalls (s : Calls) : CallAction → Prop
  | .invite user touser _ _ => (s.clients user).isInitialized = true → OwnCall s user touser
  | .initialized user _ =>
    (s.clients user).isInvite = true → OwnCall s user (s.clients user).touser
  | .onInvite i _ _ => i.fromUser ≠ i.toUser
  | _ => True

/-! ### The invariant -/

/-- The ids are created once. A session that does not connect is of the client that has created
its id, and in that client the session never connects. Invites are sent by the creators of their
ids, to one user each. -/
structure Inv (s : Calls) : Prop where
  filed : ∀ x, (s.clients x).mgr.Filed
  known : ∀ x u b, s.isControl x u = some b → ∃ y, (y, u) ∈ s.created
  creator : ∀ x u, s.isControl x u = some false → (x, u) ∈ s.created
  mine : ∀ x u, (x, u) ∈ s.created → s.isControl x u ≠ some true
  unique : ∀ x y u, (x, u) ∈ s.created → (y, u) ∈ s.created → x = y
  created_ne : ∀ x u, (x, u) ∈ s.created → u ≠ []
  sent : ∀ i ∈ s.invites, (i.fromUser, i.uuid) ∈ s.created
  same : ∀ i ∈ s.invites, ∀ j ∈ s.invites, i.uuid = j.uuid → i.toUser = j.toUser
  arrived : ∀ i ∈ s.received, i ∈ s.invites ∧ i.fromUser ≠ i.toUser

/-- The session of `m_uuid` is there, and `m_channel` is its channel. -/
structure Live (c : CallClient) : Prop where
  session : c.uuid ≠ [] → c.isControl c.uuid ≠ none
  channel : c.channel = true → c.uuid ≠ []

/-- No client has a call at first. -/
theorem inv_init : Inv init where
  filed _ := SessionMgr.Filed.init
  known _ _ _ h := nomatch h
  creator _ _ h := nomatch h
  mine _ _ h := nomatch h
  unique _ _ _ h := nomatch h
  created_ne _ _ h := nomatch h
  sent _ h := nomatch h
  same _ h := nomatch h
  arrived _ h := nomatch h

/-- No client has an id at first. -/
theorem live_init (x : QString) : Live (init.clients x) where
  session h := absurd rfl h
  channel h := nomatch h

/-- The invariant gives the property. -/
theorem Inv.proper (h : Inv s) : Proper s := by
  have hinviter : ∀ i ∈ s.invites, ∀ b, s.isControl i.fromUser i.uuid = some b → b = false := by
    intro i hi b hb
    cases b with
    | false => rfl
    | true => exact absurd hb (h.mine _ _ (h.sent i hi))
  have hinvitee : ∀ i ∈ s.received, ∀ b, s.isControl i.toUser i.uuid = some b → b = true := by
    intro i hi b hb
    obtain ⟨hsent, hne⟩ := h.arrived i hi
    cases b with
    | true => rfl
    | false =>
      -- Only the creator of the id has a session that does not connect.
      exact absurd (h.unique _ _ _ (h.sent i hsent) (h.creator _ _ hb)) hne
  refine ⟨List.pairwise_of_forall_mem_list fun i hi j hj huuid => Or.inl ⟨?_, ?_⟩, hinviter,
    hinvitee, fun i hi a b ha hb => ?_⟩
  · have hj' := h.sent j hj
    rw [← huuid] at hj'
    exact h.unique _ _ _ (h.sent i hi) hj'
  · exact h.same i hi j hj huuid
  · rw [hinviter i (h.arrived i hi).1 a ha, hinvitee i hi b hb]
    rfl

/-- A step that makes no session, sends nothing and receives nothing. -/
theorem Inv.shrink (h : Inv s) (hfiled : ∀ x, (t.clients x).mgr.Filed)
    (hroles : ∀ x u b, t.isControl x u = some b → s.isControl x u = some b)
    (hinv : t.invites = s.invites) (hrec : t.received = s.received)
    (hcre : t.created = s.created) : Inv t where
  filed := hfiled
  known x u b hb := hcre ▸ h.known x u b (hroles x u b hb)
  creator x u hb := hcre ▸ h.creator x u (hroles x u false hb)
  mine x u hx hb := h.mine x u (hcre ▸ hx) (hroles x u true hb)
  unique := hcre ▸ h.unique
  created_ne := hcre ▸ h.created_ne
  sent := hinv ▸ hcre ▸ h.sent
  same := hinv ▸ h.same
  arrived := hrec ▸ hinv ▸ h.arrived

/-! ### One client changes -/

/-- What the clients are after one of them is replaced. -/
theorem clients_setClient (s : Calls) (user : QString) (c : CallClient) (x : QString) :
    (s.setClient user c).clients x = if x = user then c else s.clients x :=
  Function.update_apply s.clients user c x

/-- The client that was replaced. -/
theorem clients_setClient_self (s : Calls) (user : QString) (c : CallClient) :
    (s.setClient user c).clients user = c := by
  rw [clients_setClient, if_pos rfl]

/-- A client gets other members, and no session. -/
theorem Inv.setClient (h : Inv s) {c : CallClient} (hfiled : c.mgr.Filed)
    (hroles : ∀ u b, c.mgr.role u = some b → (s.clients user).mgr.role u = some b) :
    Inv (s.setClient user c) := by
  refine h.shrink (fun x => ?_) (fun x u b hb => ?_) rfl rfl rfl
  · rw [clients_setClient]
    split
    · exact hfiled
    · exact h.filed x
  · unfold isControl at hb ⊢
    rw [clients_setClient] at hb
    split at hb
    · rename_i hx
      rw [hx]
      exact hroles u b hb
    · exact hb

/-- Replacing a client by one whose session is there. -/
theorem live_setClient (h : ∀ x, Live (s.clients x)) {c : CallClient} (hc : Live c) (x : QString) :
    Live ((s.setClient user c).clients x) := by
  rw [clients_setClient]
  split
  · exact hc
  · exact h x

/-- What `initChannel` does. The id is the one of the client, or a new one. -/
theorem initChannel_cases {fresh : QString} {started : Bool}
    (h : s.initChannel user fresh started = some t) :
    ∃ u isControl,
      t.clients = Function.update s.clients user
        { s.clients user with
          uuid := u
          channel := true
          mgr := (s.clients user).mgr.createSession u isControl started } ∧
      t.invites = s.invites ∧ t.received = s.received ∧
      ((s.clients user).uuid = [] ∧ isControl = false ∧ u ≠ [] ∧
          (∀ x, (x, u) ∉ s.created) ∧ t.created = s.created ++ [(user, u)] ∨
        (s.clients user).uuid ≠ [] ∧ isControl = true ∧ u = (s.clients user).uuid ∧
          t.created = s.created) := by
  unfold initChannel at h
  by_cases hnil : (s.clients user).uuid = []
  · rw [if_pos hnil] at h
    by_cases hold : fresh = [] ∨ ∃ p ∈ s.created, p.2 = fresh
    · rw [if_pos hold] at h
      cases h
    · rw [if_neg hold] at h
      cases h
      obtain ⟨hne, hnew⟩ := not_or.mp hold
      refine ⟨fresh, false, ?_, rfl, rfl, Or.inl ⟨hnil, rfl, hne, fun x hx => ?_, rfl⟩⟩
      · simp only [SessionMgr.initSession, if_pos hnil]
        rfl
      · exact hnew ⟨(x, fresh), hx, rfl⟩
  · rw [if_neg hnil] at h
    cases h
    refine ⟨(s.clients user).uuid, true, ?_, rfl, rfl, Or.inr ⟨hnil, rfl, rfl, rfl⟩⟩
    simp only [SessionMgr.initSession, if_neg hnil]
    rfl

/-- There is no session for an id that was not created. -/
theorem Inv.isControl_eq_none (h : Inv s) {u : QString} (hnew : ∀ x, (x, u) ∉ s.created)
    (x : QString) : s.isControl x u = none := by
  cases hx : s.isControl x u with
  | none => rfl
  | some b =>
    obtain ⟨y, hy⟩ := h.known x u b hx
    exact absurd hy (hnew y)

/-- A client creates an id, and its session does not connect. -/
theorem Inv.create (h : Inv s) {u : QString} (hne : u ≠ []) (hnew : ∀ x, (x, u) ∉ s.created)
    (hfiled : ∀ x, (t.clients x).mgr.Filed)
    (hrole : ∀ x v b, t.isControl x v = some b →
      x = user ∧ v = u ∧ b = false ∨ s.isControl x v = some b)
    (hinv : t.invites = s.invites) (hrec : t.received = s.received)
    (hcre : t.created = s.created ++ [(user, u)]) : Inv t := by
  -- The pairs are those from before, and the new one.
  have hmem : ∀ x v, (x, v) ∈ t.created ↔ (x, v) ∈ s.created ∨ x = user ∧ v = u := by
    intro x v
    rw [hcre, List.mem_append, List.mem_singleton, Prod.mk.injEq]
  refine
    { filed := hfiled
      known := fun x v b hb => ?_
      creator := fun x v hb => ?_
      mine := fun x v hx hb => ?_
      unique := fun x y v hx hy => ?_
      created_ne := fun x v hx => ?_
      sent := fun i hi => (hmem _ _).mpr (Or.inl (h.sent i (hinv ▸ hi)))
      same := hinv ▸ h.same
      arrived := hrec ▸ hinv ▸ h.arrived }
  · rcases hrole x v b hb with ⟨rfl, rfl, -⟩ | hb
    · exact ⟨x, (hmem _ _).mpr (Or.inr ⟨rfl, rfl⟩)⟩
    · obtain ⟨y, hy⟩ := h.known x v b hb
      exact ⟨y, (hmem _ _).mpr (Or.inl hy)⟩
  · rcases hrole x v false hb with ⟨rfl, rfl, -⟩ | hb
    · exact (hmem _ _).mpr (Or.inr ⟨rfl, rfl⟩)
    · exact (hmem _ _).mpr (Or.inl (h.creator x v hb))
  · rcases hrole x v true hb with ⟨-, -, hb⟩ | hb
    · cases hb
    · rcases (hmem x v).mp hx with hx | ⟨rfl, rfl⟩
      · exact h.mine x v hx hb
      · -- The id is new, so no client has a role for it yet.
        rw [h.isControl_eq_none hnew x] at hb
        cases hb
  · -- Two creators of one id: both are old, or both are this client.
    rcases (hmem x v).mp hx with hx | ⟨hxu, rfl⟩
    · rcases (hmem y v).mp hy with hy | ⟨-, rfl⟩
      · exact h.unique x y v hx hy
      · exact absurd hx (hnew x)
    · rcases (hmem y v).mp hy with hy | ⟨hyu, -⟩
      · exact absurd hy (hnew y)
      · exact hxu.trans hyu.symm
  · rcases (hmem x v).mp hx with hx | ⟨-, rfl⟩
    · exact h.created_ne x v hx
    · exact hne

/-- A client gets a connecting session for an id that another one has created. -/
theorem Inv.join (h : Inv s) {u : QString} (hfiled : ∀ x, (t.clients x).mgr.Filed)
    (hrole : ∀ x v b, t.isControl x v = some b →
      x = user ∧ v = u ∧ s.isControl user u = none ∧ b = true ∨ s.isControl x v = some b)
    (hother : s.isControl user u = none → (∃ y, (y, u) ∈ s.created) ∧ (user, u) ∉ s.created)
    (hinv : t.invites = s.invites) (hrec : t.received = s.received)
    (hcre : t.created = s.created) : Inv t := by
  refine
    { filed := hfiled
      known := fun x v b hb => ?_
      creator := fun x v hb => ?_
      mine := fun x v hx hb => ?_
      unique := hcre ▸ h.unique
      created_ne := hcre ▸ h.created_ne
      sent := hinv ▸ hcre ▸ h.sent
      same := hinv ▸ h.same
      arrived := hrec ▸ hinv ▸ h.arrived }
  · rw [hcre]
    rcases hrole x v b hb with ⟨-, rfl, hnone, -⟩ | hb
    · exact (hother hnone).1
    · exact h.known x v b hb
  · rw [hcre]
    rcases hrole x v false hb with ⟨-, -, -, hb⟩ | hb
    · cases hb
    · exact h.creator x v hb
  · rw [hcre] at hx
    rcases hrole x v true hb with ⟨rfl, rfl, hnone, -⟩ | hb
    · -- The new role is for an id that the client did not make itself.
      exact (hother hnone).2 hx
    · exact h.mine x v hx hb

/-- `initChannel` keeps the invariant, unless it makes a connecting session for an id that the
client has created. -/
theorem Inv.initChannel (h : Inv s) {fresh : QString} {started : Bool}
    (hst : s.initChannel user fresh started = some t)
    (hmine : (s.clients user).uuid ≠ [] →
      s.isControl user (s.clients user).uuid = none →
        (∃ y, (y, (s.clients user).uuid) ∈ s.created) ∧
          (user, (s.clients user).uuid) ∉ s.created) : Inv t := by
  obtain ⟨u, isControl, hclients, hinv, hrec, hcases⟩ := initChannel_cases hst
  have hfiled := h.filed user
  have hne : u ≠ [] := by
    rcases hcases with ⟨-, -, hne, -, -⟩ | ⟨hne, -, rfl, -⟩
    · exact hne
    · exact hne
  -- The roles are those before, and that of the new session.
  have hrole : ∀ x v b, t.isControl x v = some b →
      x = user ∧ v = u ∧ s.isControl user u = none ∧ b = isControl ∨ s.isControl x v = some b := by
    intro x v b hb
    change ((t.clients x).mgr.role v) = some b at hb
    rw [hclients, Function.update_apply] at hb
    split at hb
    · rename_i hx
      rw [hfiled.role_create u isControl started v] at hb
      split at hb
      · rename_i hnewest
        exact Or.inl ⟨hx, hnewest.1, hnewest.2, (Option.some.inj hb).symm⟩
      · rw [hx]
        exact Or.inr hb
    · exact Or.inr hb
  have hfiled' : ∀ x, (t.clients x).mgr.Filed := by
    intro x
    rw [hclients, Function.update_apply]
    split
    · exact hfiled.create hne isControl started
    · exact h.filed x
  rcases hcases with ⟨-, rfl, -, hnew, hcre⟩ | ⟨hold, rfl, rfl, hcre⟩
  · refine h.create hne hnew hfiled' (fun x v b hb => ?_) hinv hrec hcre
    exact (hrole x v b hb).imp_left fun ⟨hx, hv, _, hb⟩ => ⟨hx, hv, hb⟩
  · exact h.join hfiled' hrole (hmine hold) hinv hrec hcre

/-- After `initChannel` the session of `m_uuid` is there. -/
theorem live_initChannel (h : Inv s) {fresh : QString} {started : Bool}
    (hst : s.initChannel user fresh started = some t)
    (hlive : ∀ x, x ≠ user → Live (s.clients x)) (x : QString) : Live (t.clients x) := by
  obtain ⟨u, isControl, hclients, -, -, hcases⟩ := initChannel_cases hst
  rw [hclients, Function.update_apply]
  split
  · refine ⟨fun _ => ?_, fun _ => ?_⟩
    · show ((s.clients user).mgr.createSession u isControl started).role u ≠ none
      rw [(h.filed user).role_create]
      split
      · exact Option.some_ne_none _
      · rename_i hboth
        exact fun hnone => hboth ⟨rfl, hnone⟩
    · rcases hcases with ⟨-, -, hne, -, -⟩ | ⟨hne, -, rfl, -⟩
      · exact hne
      · exact hne
  · rename_i hx
    exact hlive x hx

/-- A client whose session is not filed has no initialised channel. -/
theorem isInitialized_eq_false {c : CallClient} (hl : c.mgr.hashSession.lookup c.uuid = none) :
    c.isInitialized = false := by
  unfold CallClient.isInitialized
  rw [hl]
  rfl

/-- The channel of a new session is not initialised. -/
theorem isInitialized_createSession (c : CallClient) (u : QString) (isControl started : Bool)
    (hl : c.mgr.hashSession.lookup u = none) :
    ({ c with uuid := u, channel := true, mgr := c.mgr.createSession u isControl started } :
      CallClient).isInitialized = false := by
  obtain ⟨hhash, -, hsess⟩ := SessionMgr.createSession_new hl isControl started
  have hchannel : (c.mgr.createSession u isControl started).channelOf c.mgr.nextSess =
      some ({ sessionId := u, isControl, channel := some (SessionMgr.newChannel started) },
        SessionMgr.newChannel started) := by
    unfold SessionMgr.channelOf
    rw [hsess, Function.update_self]
    rfl
  unfold CallClient.isInitialized
  dsimp only
  rw [hhash, QHash.lookup_insert_eq, if_pos rfl, Option.bind_some, hchannel]
  rfl

/-- `initChannel` finds a channel that is initialised exactly when there was one. -/
theorem isInitialized_initChannel (h : Inv s) {fresh : QString} {started : Bool}
    (hst : s.initChannel user fresh started = some t) :
    (t.clients user).isInitialized = (s.clients user).isInitialized ∧
      ((s.clients user).isInitialized = true →
        t = s.setClient user { s.clients user with channel := true }) := by
  obtain ⟨u, isControl, hclients, hinv, hrec, hcases⟩ := initChannel_cases hst
  have hself : t.clients user = { s.clients user with
      uuid := u
      channel := true
      mgr := (s.clients user).mgr.createSession u isControl started } := by
    rw [hclients, Function.update_self]
  rw [hself]
  have hfiled := h.filed user
  rcases hcases with ⟨hnil, -, -, hnew, -⟩ | ⟨-, -, rfl, hcre⟩
  · -- The new session has a channel that nothing was reported of yet.
    have hold : (s.clients user).isInitialized = false :=
      isInitialized_eq_false (by rw [hnil]; exact hfiled.lookup_nil)
    have hnone : s.isControl user u = none := h.isControl_eq_none hnew user
    rw [isInitialized_createSession _ u isControl started (hfiled.role_eq_none hnone), hold]
    exact ⟨rfl, fun hfalse => nomatch hfalse⟩
  · cases hl : (s.clients user).mgr.hashSession.lookup (s.clients user).uuid with
    | some k =>
      -- The session is there, and the client changes in `m_channel` only.
      rw [SessionMgr.createSession_old hl] at hclients ⊢
      exact ⟨rfl, fun _ => Calls.ext hclients hinv hrec hcre⟩
    | none =>
      rw [isInitialized_createSession _ _ isControl started hl, isInitialized_eq_false hl]
      exact ⟨rfl, fun hfalse => nomatch hfalse⟩

/-! ### The steps -/

/-- The invite that a client would send. -/
def outgoing (s : Calls) (user : QString) : Invite :=
  { fromUser := user, toUser := (s.clients user).touser, uuid := (s.clients user).uuid }

/-- An invite of its own keeps the invariant. -/
theorem Inv.sendInvite (h : Inv s) (hown : OwnCall s user (s.clients user).touser) :
    Inv (s.sendInvite user) := by
  have hmem : ∀ i, i ∈ (s.sendInvite user).invites ↔ i ∈ s.invites ∨ i = s.outgoing user := by
    intro i
    show i ∈ s.invites ++ [s.outgoing user] ↔ _
    rw [List.mem_append, List.mem_singleton]
  -- The earlier invites with the id are of this client.
  have hold : ∀ i ∈ s.invites, i.uuid = (s.clients user).uuid →
      i.toUser = (s.clients user).touser := by
    intro i hi huuid
    have hfrom := h.sent i hi
    rw [huuid] at hfrom
    exact hown.2 i hi (h.unique _ _ _ hfrom hown.1) huuid
  refine
    { filed := h.filed
      known := h.known
      creator := h.creator
      mine := h.mine
      unique := h.unique
      created_ne := h.created_ne
      sent := fun i hi => ?_
      same := fun i hi j hj huuid => ?_
      arrived := fun i hi => ⟨(hmem i).mpr (Or.inl (h.arrived i hi).1), (h.arrived i hi).2⟩ }
  · rcases (hmem i).mp hi with hi | rfl
    · exact h.sent i hi
    · exact hown.1
  · rcases (hmem i).mp hi with hi | rfl
    · rcases (hmem j).mp hj with hj | rfl
      · exact h.same i hi j hj huuid
      · exact hold i hi huuid
    · rcases (hmem j).mp hj with hj | rfl
      · exact (hold j hj huuid.symm).symm
      · rfl

/-- What the property of the state after an invite says about the client before. -/
theorem ownCall_of_proper (h : Inv s) (hlive : Live (s.clients user))
    (huuid : (s.clients user).uuid ≠ []) (hinv : t.invites = s.invites ++ [s.outgoing user])
    (hroles : ∀ u, t.isControl user u = s.isControl user u) (hp : Proper t) :
    OwnCall s user (s.clients user).touser := by
  have hnew : s.outgoing user ∈ t.invites := by
    rw [hinv]
    exact List.mem_append_right _ (List.mem_singleton.mpr rfl)
  constructor
  · cases hrole : s.isControl user (s.clients user).uuid with
    | none => exact absurd hrole (hlive.session huuid)
    | some b =>
      have hb : b = false := hp.inviter _ hnew b ((hroles _).trans hrole)
      rw [hb] at hrole
      exact h.creator user _ hrole
  · intro i hi hfrom hid
    have hown := hp.own
    rw [hinv] at hown
    have hpair := (List.pairwise_append.mp hown).2.2 i hi _ (List.mem_singleton.mpr rfl) hid
    rcases hpair with ⟨-, hto⟩ | ⟨hto, hback⟩
    · exact hto
    · -- The users are exchanged, so that they are one and the same.
      exact hback.trans (hfrom.symm.trans hto)

/-- The two ways in which `Test::invite` ends. -/
theorem invite_cases {touser fresh : QString} {started : Bool}
    (hst : s.invite user touser fresh started = some t) :
    ∃ s', (s.setClient user { s.clients user with touser }).initChannel user fresh started =
        some s' ∧
      ((s'.clients user).isInitialized = true ∧ t = s'.sendInvite user ∨
        (s'.clients user).isInitialized = false ∧
          t = s'.setClient user { s'.clients user with isInvite := true }) := by
  unfold invite at hst
  obtain ⟨s', hinit, hrest⟩ := Option.bind_eq_some_iff.mp hst
  refine ⟨s', hinit, ?_⟩
  by_cases hi : (s'.clients user).isInitialized = true
  · rw [if_pos hi] at hrest
    exact Or.inl ⟨hi, (Option.some.inj hrest).symm⟩
  · rw [if_neg hi] at hrest
    exact Or.inr ⟨Bool.eq_false_iff.mpr hi, (Option.some.inj hrest).symm⟩

/-- A new user to call changes no session. -/
theorem Inv.setTouser (h : Inv s) (user touser : QString) :
    Inv (s.setClient user { s.clients user with touser }) :=
  h.setClient (h.filed user) fun _ _ hb => hb

/-- The channel of `m_uuid` is there when the user calls, so `initChannel` makes no session for an
old id. -/
theorem Inv.invite_initChannel (h : Inv s) (hlive : ∀ x, Live (s.clients x))
    {touser fresh : QString} {started : Bool}
    (hinit : (s.setClient user { s.clients user with touser }).initChannel user fresh started =
      some t) : Inv t ∧ ∀ x, Live (t.clients x) := by
  have hmid := h.setTouser user touser
  have hlive' : ∀ x, Live ((s.setClient user { s.clients user with touser }).clients x) :=
    live_setClient hlive ⟨(hlive user).session, (hlive user).channel⟩
  refine ⟨hmid.initChannel hinit fun hne hnone => ?_, live_initChannel hmid hinit fun x _ =>
    hlive' x⟩
  exact absurd hnone ((hlive' user).session hne)

/-- An initialised channel has a session id. -/
theorem uuid_ne_of_isInitialized (h : Inv s) (hi : (s.clients user).isInitialized = true) :
    (s.clients user).uuid ≠ [] := by
  intro hnil
  have hfalse : (s.clients user).isInitialized = false :=
    isInitialized_eq_false (by rw [hnil]; exact (h.filed user).lookup_nil)
  rw [hfalse] at hi
  cases hi

/-- A call: the invite goes out at once exactly when the channel of `m_uuid` is initialised. -/
theorem invite_step (h : Inv s) (hlive : ∀ x, Live (s.clients x)) {touser fresh : QString}
    {started : Bool} (hst : s.invite user touser fresh started = some t) :
    (OwnCalls s (.invite user touser fresh started) → Inv t ∧ ∀ x, Live (t.clients x)) ∧
      (Proper t → OwnCalls s (.invite user touser fresh started)) := by
  obtain ⟨s', hinit, hend⟩ := invite_cases hst
  have hmid := h.setTouser user touser
  obtain ⟨hinv', hlive'⟩ := h.invite_initChannel hlive hinit
  obtain ⟨hsame, hkeep⟩ := isInitialized_initChannel hmid hinit
  rw [clients_setClient_self] at hsame hkeep
  have hbefore : ({ s.clients user with touser } : CallClient).isInitialized =
      (s.clients user).isInitialized := rfl
  rw [hbefore] at hsame hkeep
  rcases hend with ⟨hi, rfl⟩ | ⟨hi, rfl⟩
  · -- The channel is initialised, and the invite goes out.
    rw [hsame] at hi
    have hs' := hkeep hi
    -- The id and the records are those of before, and the user is the new one.
    have hiff : OwnCall s' user (s'.clients user).touser ↔ OwnCall s user touser := by
      rw [hs']
      unfold OwnCall
      rw [clients_setClient_self]
      exact Iff.rfl
    have huuid : (s'.clients user).uuid ≠ [] := by
      rw [hs', clients_setClient_self]
      exact uuid_ne_of_isInitialized h hi
    constructor
    · intro hown
      exact ⟨hinv'.sendInvite (hiff.mpr (hown hi)), hlive'⟩
    · intro hp _
      exact hiff.mp (ownCall_of_proper (t := s'.sendInvite user) hinv' (hlive' user) huuid rfl
        (fun _ => rfl) hp)
  · -- The invite waits for `initialized()`, and no condition is due.
    refine ⟨fun _ => ⟨hinv'.setClient (hinv'.filed user) fun _ _ hb => hb, ?_⟩, fun _ hi' => ?_⟩
    · exact live_setClient hlive' ⟨(hlive' user).session, (hlive' user).channel⟩
    · rw [hsame, hi'] at hi
      cases hi

/-- An invite that arrives: the invitee takes over its id. -/
theorem onInvite_step (h : Inv s) (hlive : ∀ x, Live (s.clients x)) {i : Invite} {fresh : QString}
    {started : Bool} (hst : s.onInvite i fresh started = some t) :
    (OwnCalls s (.onInvite i fresh started) → Inv t ∧ ∀ x, Live (t.clients x)) ∧
      (Proper t → OwnCalls s (.onInvite i fresh started)) := by
  unfold onInvite at hst
  split at hst
  swap
  · cases hst
  rename_i hi
  obtain ⟨s', hinit, hrest⟩ := Option.bind_eq_some_iff.mp hst
  cases hrest
  have hsent := h.sent i hi
  have hmid : Inv (s.setClient i.toUser { s.clients i.toUser with uuid := i.uuid }) :=
    h.setClient (h.filed _) fun _ _ hb => hb
  have hlive' := live_initChannel hmid hinit fun x hx => by
    rw [clients_setClient, if_neg hx]
    exact hlive x
  obtain ⟨u, isControl, hclients, hinv, hrec, hcases⟩ := initChannel_cases hinit
  rw [clients_setClient_self] at hcases
  have huuid : (s'.clients i.toUser).uuid = i.uuid := by
    rw [hclients, Function.update_self]
    rcases hcases with ⟨hnil, -⟩ | ⟨-, -, hu, -⟩
    · exact absurd hnil (h.created_ne _ _ hsent)
    · exact hu
  constructor
  · intro hne
    -- The sender has created the id, and the invitee is someone else.
    have hs' : Inv s' := by
      refine hmid.initChannel hinit fun _ _ => ?_
      rw [clients_setClient_self]
      exact ⟨⟨_, hsent⟩, fun hto => hne (h.unique _ _ _ hsent hto)⟩
    refine ⟨{ hs' with arrived := fun j hj => ?_ }, hlive'⟩
    rcases List.mem_append.mp hj with hj | hj
    · exact hs'.arrived j hj
    · rw [List.mem_singleton.mp hj]
      exact ⟨hinv ▸ hi, hne⟩
  · -- The two ends are one client, and its channel cannot have both roles.
    intro hp heq
    cases hrole : s'.isControl i.toUser i.uuid with
    | none =>
      have hsession := (hlive' i.toUser).session
      rw [huuid] at hsession
      exact hsession (h.created_ne _ _ hsent) hrole
    | some b =>
      have htrue : b = true :=
        hp.invitee i (List.mem_append_right _ (List.mem_singleton.mpr rfl)) b hrole
      have hfalse : b = false := hp.inviter i (hinv ▸ hi) b (by rw [heq]; exact hrole)
      rw [htrue] at hfalse
      cases hfalse

/-- `onChannelInit`: a call that waits for the channel goes out with the members as they are. -/
theorem onChannelInit_step (h : Inv s) (hlive : ∀ x, Live (s.clients x))
    (hst : s.onChannelInit user = some t) :
    (((s.clients user).isInvite = true → OwnCall s user (s.clients user).touser) →
        Inv t ∧ ∀ x, Live (t.clients x)) ∧
      (Proper t → (s.clients user).isInvite = true →
        OwnCall s user (s.clients user).touser) := by
  unfold onChannelInit at hst
  split at hst
  swap
  · cases hst
  rename_i hchannel
  split at hst
  · rename_i hpending
    cases hst
    constructor
    · intro hown
      have hsent := h.sendInvite (hown hpending)
      exact ⟨hsent.setClient (hsent.filed user) fun _ _ hb => hb,
        live_setClient hlive ⟨(hlive user).session, (hlive user).channel⟩⟩
    · intro hp _
      refine ownCall_of_proper h (hlive user) ((hlive user).channel hchannel) rfl (fun u => ?_) hp
      unfold isControl
      rw [clients_setClient_self]
      rfl
  · rename_i hnone
    cases hst
    exact ⟨fun _ => ⟨h, hlive⟩, fun _ hpending => absurd hpending hnone⟩

/-- A channel is initialised. -/
theorem initialized_step (h : Inv s) (hlive : ∀ x, Live (s.clients x)) {k : SessId}
    (hst : s.step (.initialized user k) = some t) :
    (OwnCalls s (.initialized user k) → Inv t ∧ ∀ x, Live (t.clients x)) ∧
      (Proper t → OwnCalls s (.initialized user k)) := by
  simp only [step] at hst
  cases hch : (s.clients user).mgr.channelOf k with
  | none =>
    rw [hch] at hst
    cases hst
  | some found =>
    obtain ⟨sess, ch⟩ := found
    rw [hch] at hst
    obtain ⟨hfiled, hrole⟩ := (h.filed user).setChannel (SessionMgr.channelOf_eq_some hch).1
      { ch with isInitialized := true }
    -- The flag of the channel is set first; no role depends on it.
    have hmid : Inv (s.setClient user { s.clients user with
        mgr := (s.clients user).mgr.setChannel k sess { ch with isInitialized := true } }) :=
      h.setClient hfiled fun u b hb => by rwa [hrole] at hb
    have hclient : Live { s.clients user with
        mgr := (s.clients user).mgr.setChannel k sess { ch with isInitialized := true } } := by
      refine ⟨fun hne => ?_, (hlive user).channel⟩
      show SessionMgr.role _ _ ≠ none
      rw [hrole]
      exact (hlive user).session hne
    have hboth := onChannelInit_step hmid (live_setClient hlive hclient) hst
    unfold OwnCall at hboth
    rw [clients_setClient_self] at hboth
    exact hboth

/-- An error leaves the client without `m_uuid` and `m_channel`. -/
theorem onChannelError_step (h : Inv s) (hlive : ∀ x, Live (s.clients x)) {m : SessionMgr}
    (hfiled : m.Filed) (hroles : ∀ u b, m.role u = some b → (s.clients user).mgr.role u = some b) :
    Inv ((s.setClient user { s.clients user with mgr := m }).onChannelError user) ∧
      ∀ x, Live (((s.setClient user { s.clients user with mgr := m }).onChannelError
        user).clients x) := by
  have hmid : Inv (s.setClient user { s.clients user with mgr := m }) :=
    h.setClient hfiled hroles
  constructor
  · exact hmid.setClient (hmid.filed user) fun _ _ hb => hb
  · intro x
    unfold onChannelError
    rw [clients_setClient]
    split
    · exact ⟨fun hne => absurd rfl hne, fun hc => nomatch hc⟩
    · rename_i hx
      rw [clients_setClient, if_neg hx]
      exact hlive x

/-- The step lemma, in both directions: a step with calls of its own keeps the invariant, and a
step into proper roles is such a step. -/
theorem step_spec {a : CallAction} (h : Inv s) (hlive : ∀ x, Live (s.clients x))
    (hst : s.step a = some t) :
    (OwnCalls s a → Inv t ∧ ∀ x, Live (t.clients x)) ∧ (Proper t → OwnCalls s a) := by
  cases a with
  | invite user touser fresh started => exact invite_step h hlive hst
  | onInvite i fresh started => exact onInvite_step h hlive hst
  | initialized user k => exact initialized_step h hlive hst
  | error user k code msg =>
    simp only [step] at hst
    cases hch : (s.clients user).mgr.channelOf k with
    | none =>
      rw [hch] at hst
      cases hst
    | some found =>
      rw [hch] at hst
      cases hst
      have hfiled := h.filed user
      exact ⟨fun _ => onChannelError_step h hlive ⟨hfiled.files, hfiled.named, hfiled.fresh⟩
        fun _ _ hb => hb, fun _ => trivial⟩
  | conncetError user k errMsg =>
    simp only [step] at hst
    cases hch : (s.clients user).mgr.channelOf k with
    | none =>
      rw [hch] at hst
      cases hst
    | some found =>
      rw [hch] at hst
      cases hst
      obtain ⟨hfiled, hroles⟩ := (h.filed user).close (SessionMgr.channelOf_eq_some hch).1 found.2
        errMsg
      exact ⟨fun _ => onChannelError_step h hlive hfiled hroles, fun _ => trivial⟩
  | close user =>
    cases hst
    refine ⟨fun _ => ⟨h.setClient (h.filed user) fun _ _ hb => hb, ?_⟩, fun _ => trivial⟩
    exact live_setClient hlive ⟨(hlive user).session, fun hc => nomatch hc⟩

/-! ### Runs -/

/-- Every call of a run has its own session and one connecting side, in every state, exactly when
every invite that goes out is a call of its own and none arrives where it came from. -/
theorem proper_iff_ownCalls (as : List CallAction) (u : Calls)
    (hrun : run step init as = some u) :
    Always step Proper init as ↔ AllSteps step OwnCalls init as := by
  refine always_iff_allSteps (fun s a t (hs : Inv s ∧ ∀ x, Live (s.clients x)) hst hcond => ?_)
    (fun s hs => hs.1.proper) (fun s a t hs hst hp => ?_) as init u ⟨inv_init, live_init⟩ hrun
  · exact (step_spec hs.1 hs.2 hst).1 hcond
  · exact (step_spec hs.1 hs.2 hst).2 hp

/-- `a` calls `b`, whose client answers with the id of the invite. -/
theorem proper_one_call :
    Always step Proper init
      [.invite ['a'] ['b'] ['1'] true, .initialized ['a'] 0,
        .onInvite { fromUser := ['a'], toUser := ['b'], uuid := ['1'] } [] true] := by
  refine (proper_iff_ownCalls _ _ rfl).mpr ⟨fun h => (nomatch h), fun _ h₁ => ?_⟩
  cases h₁
  refine ⟨fun _ => ⟨List.mem_cons_self, fun _ h => (nomatch h)⟩, fun _ h₂ => ?_⟩
  cases h₂
  have hne : ['a'] ≠ ['b'] := by decide
  exact ⟨hne, fun _ _ => trivial⟩

/-- `a` calls `b` and then `c`. The second invite has the id of the first. -/
theorem not_proper_second_call :
    ∃ t, run step init
        [.invite ['a'] ['b'] ['1'] true, .initialized ['a'] 0,
          .invite ['a'] ['c'] ['2'] true] = some t ∧
      t.invites = [{ fromUser := ['a'], toUser := ['b'], uuid := ['1'] },
        { fromUser := ['a'], toUser := ['c'], uuid := ['1'] }] ∧ ¬ Proper t := by
  refine ⟨_, rfl, rfl, fun hp => ?_⟩
  have hpair := List.rel_of_pairwise_cons hp.own List.mem_cons_self rfl
  rcases hpair with ⟨-, hto⟩ | ⟨hfrom, -⟩
  · cases hto
  · cases hfrom

end App.Calls

end EChannel
