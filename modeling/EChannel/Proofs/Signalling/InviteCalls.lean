import EChannel.Signalling.CommandClient
import Mathlib.Data.List.Induction
import Mathlib.Tactic.Common

/-!
# `EChannel.Proofs.Signalling.InviteCalls`: which call a response is about

`ring`, `accept` and `reject` are called with the id of a call. `genReponse` ignores it and takes
the members of the client, which belong to whatever came last: `parseRequest` sets all of them for
every `InviteReq` and for every ring and accept that the server passes on, and `sendInvite` sets
`m_from` and `m_to` again.

`after_current` reads the members off the actions so far. `responsesRight_iff` is the exact
condition on a run: at each response, the last request that was parsed is that of the call, and
no `invite` has come since.
-/

set_option autoImplicit false

namespace EChannel.Signalling

namespace CommandClient

variable {user uuid : QString} {as : List ClientAction} {a : ClientAction}

/-! ### Reading a list of actions -/

/-- The call of the program that sends a response: its id and its code. -/
def ClientAction.response? : ClientAction → Option (QString × InviteCodeType)
  | .ring uuid _ => some (uuid, .ring)
  | .accept uuid _ => some (uuid, .accept)
  | .reject uuid => some (uuid, .reject)
  | _ => none

/-- The invitation that an action receives. -/
def ClientAction.received? : ClientAction → Option InviteReq
  | .recvInvite request => some request
  | _ => none

/-- The request that an action has parsed: an invitation, or the request in a ring or an
accept. -/
def ClientAction.parsed? : ClientAction → Option InviteReq
  | .recvInvite request => some request
  | .recvInviteResp info =>
    if info.code = InviteCodeType.ring.value ∨ info.code = InviteCodeType.accept.value then
      some info.request
    else none
  | _ => none

/-- The invitations received. -/
def received (as : List ClientAction) : List InviteReq := as.filterMap ClientAction.received?

/-- The request that was parsed last. -/
def lastParsed (as : List ClientAction) : Option InviteReq :=
  (as.filterMap ClientAction.parsed?).getLast?

/-- Whom the last `invite` was for, if no request was parsed since. -/
def invitedSince (as : List ClientAction) : Option QString :=
  as.foldl (fun last a =>
    match a with
    | .invite _ touser _ _ _ => some touser
    | a => if a.parsed?.isSome then none else last) none

/-! ### The property and the condition -/

/-- The response is about the call `uuid`, with the fields of an invitation to it. -/
def Answers (invites : List InviteReq) (uuid : QString) (resp : InviteResp) : Prop :=
  resp.request.suuid = uuid ∧ ∃ q ∈ invites, q.suuid = uuid ∧
    resp.request.fromUser = q.fromUser ∧ resp.request.toUser = q.toUser ∧
    resp.request.media = q.media ∧ resp.request.mediaInfo = q.mediaInfo

/-- The request that was parsed last has the id, and the fields of an invitation with that id.
If the user has invited someone since, the invitation was from the same user to the same one. -/
def CallCurrent (user : QString) (as : List ClientAction) (uuid : QString) : Prop :=
  ∃ r, lastParsed as = some r ∧ r.suuid = uuid ∧ ∃ q ∈ received as, q.suuid = uuid ∧
    r.media = q.media ∧ r.mediaInfo = q.mediaInfo ∧
    match invitedSince as with
    | none => r.fromUser = q.fromUser ∧ r.toUser = q.toUser
    | some touser => user = q.fromUser ∧ touser = q.toUser

/-- Every response of the run to a call that the client was invited to is sent, and answers
the call. -/
def ResponsesRight (c : CommandClient) (as : List ClientAction) : Prop :=
  ∀ pre a post, as = pre ++ a :: post → ∀ uuid code, a.response? = some (uuid, code) →
    (∃ q ∈ received pre, q.suuid = uuid) →
    ∃ resp, ((c.after pre).step a).sent = (c.after pre).sent ++ [.inviteResp resp] ∧
      resp.code = code.value ∧ Answers (received pre) uuid resp

/-- Every response of the run is to the current call. -/
def ResponsesCurrent (user : QString) (as : List ClientAction) : Prop :=
  ∀ pre a post, as = pre ++ a :: post → ∀ uuid code, a.response? = some (uuid, code) →
    (∃ q ∈ received pre, q.suuid = uuid) → CallCurrent user pre uuid

/-! ### The members after a list of actions -/

/-- The client after one action more. -/
theorem after_append (c : CommandClient) (as : List ClientAction) (a : ClientAction) :
    c.after (as ++ [a]) = (c.after as).step a := by
  simp [after, List.foldl_append]

/-- The request that was parsed last, after one action more. -/
theorem lastParsed_append (as : List ClientAction) (a : ClientAction) :
    lastParsed (as ++ [a]) = a.parsed?.or (lastParsed as) := by
  unfold lastParsed
  cases hp : a.parsed? with
  | none => simp [List.filterMap_append, hp]
  | some r => simp [List.filterMap_append, hp]

/-- `invitedSince` after one more action. -/
theorem invitedSince_append (as : List ClientAction) (a : ClientAction) :
    invitedSince (as ++ [a]) =
      match a with
      | .invite _ touser _ _ _ => some touser
      | a => if a.parsed?.isSome then none else invitedSince as := by
  simp only [invitedSince, List.foldl_append, List.foldl_cons, List.foldl_nil]

/-- The members are those of the request that was parsed last, except that an `invite` since
then has set `m_from` and `m_to`. -/
structure Current (c : CommandClient) (user : QString) (as : List ClientAction) : Prop where
  currentUser : c.currentUser = user
  parsed : ∀ r, lastParsed as = some r →
    c.uuid = r.suuid ∧ c.mediaType = r.media ∧ c.mediainfo = r.mediaInfo
  parties : ∀ r, lastParsed as = some r → invitedSince as = none →
    c.fromUser = r.fromUser ∧ c.toUser = r.toUser
  invited : ∀ touser, invitedSince as = some touser → c.fromUser = user ∧ c.toUser = touser

namespace Current

variable {c c' : CommandClient}

/-- A request is parsed. -/
theorem parse (h : Current c user as) {r : InviteReq} (hp : a.parsed? = some r)
    (hu : c'.currentUser = c.currentUser)
    (hid : c'.uuid = r.suuid ∧ c'.mediaType = r.media ∧ c'.mediainfo = r.mediaInfo)
    (hparties : c'.fromUser = r.fromUser ∧ c'.toUser = r.toUser) :
    Current c' user (as ++ [a]) := by
  have hlast : lastParsed (as ++ [a]) = some r := by
    rw [lastParsed_append, hp]
    rfl
  have hsince : invitedSince (as ++ [a]) = none := by
    rw [invitedSince_append]
    cases a with
    | invite => cases hp
    | _ => simp [hp]
  refine
    { currentUser := hu.trans h.currentUser
      parsed := fun r' hr' => ?_
      parties := fun r' hr' _ => ?_
      invited := fun touser ht => ?_ }
  · rw [hlast] at hr'
    cases hr'
    exact hid
  · rw [hlast] at hr'
    cases hr'
    exact hparties
  · rw [hsince] at ht
    cases ht

/-- An action that parses no request and invites nobody. -/
theorem idle (h : Current c user as) (hp : a.parsed? = none)
    (hi : ∀ uuid touser mediaType sdp mediaInfo, a ≠ .invite uuid touser mediaType sdp mediaInfo)
    (hsame : c'.currentUser = c.currentUser ∧ c'.uuid = c.uuid ∧ c'.mediaType = c.mediaType ∧
      c'.mediainfo = c.mediainfo ∧ c'.fromUser = c.fromUser ∧ c'.toUser = c.toUser) :
    Current c' user (as ++ [a]) := by
  obtain ⟨hu, hid, hmt, hmi, hfrom, hto⟩ := hsame
  have hlast : lastParsed (as ++ [a]) = lastParsed as := by
    rw [lastParsed_append, hp]
    rfl
  have hsince : invitedSince (as ++ [a]) = invitedSince as := by
    rw [invitedSince_append]
    cases a with
    | invite uuid touser mediaType sdp mediaInfo =>
      exact absurd rfl (hi uuid touser mediaType sdp mediaInfo)
    | _ => simp [hp]
  refine
    { currentUser := hu.trans h.currentUser
      parsed := fun r hr => ?_
      parties := fun r hr hnone => ?_
      invited := fun touser ht => ?_ }
  · rw [hid, hmt, hmi]
    exact h.parsed r (hlast ▸ hr)
  · rw [hfrom, hto]
    exact h.parties r (hlast ▸ hr) (hsince ▸ hnone)
  · rw [hfrom, hto]
    exact h.invited touser (hsince ▸ ht)

/-- `invite` keeps the invariant. -/
theorem invite (h : Current c user as) (uuid touser : QString) (mediaType : Int)
    (sdp mediaInfo : QString) :
    Current (c.invite uuid touser mediaType sdp mediaInfo) user
      (as ++ [.invite uuid touser mediaType sdp mediaInfo]) := by
  have hsince : invitedSince (as ++ [.invite uuid touser mediaType sdp mediaInfo]) =
      some touser := invitedSince_append as _
  refine
    { currentUser := h.currentUser
      parsed := fun r hr => h.parsed r ?_
      parties := fun r _ hnone => ?_
      invited := fun touser' ht => ?_ }
  · rw [lastParsed_append] at hr
    exact hr
  · rw [hsince] at hnone
    cases hnone
  · rw [hsince] at ht
    cases ht
    exact ⟨h.currentUser, rfl⟩

/-- The step lemma. -/
theorem step (h : Current c user as) (a : ClientAction) : Current (c.step a) user (as ++ [a]) := by
  cases a with
  | recvInvite request => exact h.parse rfl rfl ⟨rfl, rfl, rfl⟩ ⟨rfl, rfl⟩
  | recvInviteResp info =>
    by_cases hring : info.code = InviteCodeType.ring.value
    · have hstep : c.onRecvInviteResp info = c.onRecvRing info.request := by
        simp [onRecvInviteResp, hring, InviteCodeType.value]
      refine h.parse (r := info.request) ?_ ?_ ?_ ?_
      · simp [ClientAction.parsed?, hring]
      all_goals simp [CommandClient.step, hstep, onRecvRing, parseRequest, emit]
    · by_cases hacc : info.code = InviteCodeType.accept.value
      · have hstep : c.onRecvInviteResp info = c.onRecvAccept info.request := by
          simp [onRecvInviteResp, hacc, InviteCodeType.value]
        refine h.parse (r := info.request) ?_ ?_ ?_ ?_
        · simp [ClientAction.parsed?, hacc]
        all_goals simp [CommandClient.step, hstep, onRecvAccept, parseRequest, emit]
      · -- Other responses leave the members alone.
        refine h.idle (by simp [ClientAction.parsed?, hring, hacc]) (by simp) ?_
        simp only [CommandClient.step, onRecvInviteResp, hring, hacc, if_false]
        split
        · exact ⟨rfl, rfl, rfl, rfl, rfl, rfl⟩
        · split <;> exact ⟨rfl, rfl, rfl, rfl, rfl, rfl⟩
  | invite uuid touser mediaType sdp mediaInfo => exact h.invite uuid touser mediaType sdp mediaInfo
  | ring uuid sdp => exact h.idle rfl (by simp) ⟨rfl, rfl, rfl, rfl, rfl, rfl⟩
  | accept uuid sdp => exact h.idle rfl (by simp) ⟨rfl, rfl, rfl, rfl, rfl, rfl⟩
  | reject uuid => exact h.idle rfl (by simp) ⟨rfl, rfl, rfl, rfl, rfl, rfl⟩

end Current

/-- The members after any list of actions, by induction from its end. -/
theorem after_current (user : QString) (mediaType : UInt32) (as : List ClientAction) :
    Current ((init user mediaType).after as) user as := by
  induction as using List.reverseRecOn with
  | nil =>
    exact
      { currentUser := rfl
        parsed := fun r hr => by cases hr
        parties := fun r hr => by cases hr
        invited := fun touser ht => by cases ht }
  | append_singleton as a ih =>
    -- `lastParsed` and `invitedSince` look at the end of the list, so the induction does too.
    rw [after_append]
    exact ih.step a

/-! ### The responses -/

/-- An invitation that was received was parsed. -/
theorem exists_lastParsed {q : InviteReq} (hq : q ∈ received as) : ∃ r, lastParsed as = some r := by
  obtain ⟨a, ha, hr⟩ := List.mem_filterMap.mp hq
  have hp : a.parsed? = some q := by
    cases a with
    | recvInvite request => exact hr
    | _ => cases hr
  have hmem : q ∈ as.filterMap ClientAction.parsed? := List.mem_filterMap.mpr ⟨a, ha, hp⟩
  exact ⟨_, List.getLast?_eq_getLast_of_ne_nil (List.ne_nil_of_mem hmem)⟩

/-- A response answers the call exactly when the call is the current one. -/
theorem answers_genReponse_iff {c : CommandClient} (h : Current c user as)
    (code : InviteCodeType) (sdp : QString) :
    Answers (received as) uuid (c.genReponse uuid code sdp) ↔ CallCurrent user as uuid := by
  constructor
  · rintro ⟨hid, q, hq, hqid, hfrom, hto, hmedia, hinfo⟩
    obtain ⟨r, hr⟩ := exists_lastParsed hq
    obtain ⟨hruuid, hrmedia, hrinfo⟩ := h.parsed r hr
    refine ⟨r, hr, hruuid.symm.trans hid, q, hq, hqid, hrmedia.symm.trans hmedia,
      hrinfo.symm.trans hinfo, ?_⟩
    cases hs : invitedSince as with
    | none =>
      obtain ⟨hrfrom, hrto⟩ := h.parties r hr hs
      exact ⟨hrfrom.symm.trans hfrom, hrto.symm.trans hto⟩
    | some touser =>
      obtain ⟨hcfrom, hcto⟩ := h.invited touser hs
      exact ⟨hcfrom.symm.trans hfrom, hcto.symm.trans hto⟩
  · -- `m_uuid` and the media come from the parsed request, `m_from` and `m_to` perhaps not.
    rintro ⟨r, hr, hrid, q, hq, hqid, hmedia, hinfo, hparties⟩
    obtain ⟨hruuid, hrmedia, hrinfo⟩ := h.parsed r hr
    refine ⟨hruuid.trans hrid, q, hq, hqid, ?_⟩
    have hfields : c.mediaType = q.media ∧ c.mediainfo = q.mediaInfo :=
      ⟨hrmedia.trans hmedia, hrinfo.trans hinfo⟩
    cases hs : invitedSince as with
    | none =>
      rw [hs] at hparties
      obtain ⟨hrfrom, hrto⟩ := h.parties r hr hs
      exact ⟨hrfrom.trans hparties.1, hrto.trans hparties.2, hfields⟩
    | some touser =>
      rw [hs] at hparties
      obtain ⟨hcfrom, hcto⟩ := h.invited touser hs
      exact ⟨hcfrom.trans hparties.1, hcto.trans hparties.2, hfields⟩

/-- A call that answers sends one response, the one that `genReponse` makes. -/
theorem step_response {c : CommandClient} {code : InviteCodeType}
    (ha : a.response? = some (uuid, code)) :
    ∃ sdp, (c.step a).sent = c.sent ++ [.inviteResp (c.genReponse uuid code sdp)] := by
  cases a with
  | ring uuid sdp =>
    cases ha
    exact ⟨sdp, rfl⟩
  | accept uuid sdp =>
    cases ha
    exact ⟨sdp, rfl⟩
  | reject uuid =>
    cases ha
    exact ⟨[], rfl⟩
  | _ => cases ha

/-- In a run of any length and order, every response to a call that the client was invited to
carries the id of the call and the fields of an invitation to it, exactly when each such
response is to the current call. -/
theorem responsesRight_iff (user : QString) (mediaType : UInt32) (as : List ClientAction) :
    ResponsesRight (init user mediaType) as ↔ ResponsesCurrent user as := by
  constructor
  · intro h pre a post heq uuid code ha hq
    obtain ⟨resp, hsent, -, hans⟩ := h pre a post heq uuid code ha hq
    obtain ⟨sdp, hsent'⟩ := step_response (c := (init user mediaType).after pre) ha
    rw [hsent] at hsent'
    cases List.append_cancel_left hsent'
    exact (answers_genReponse_iff (after_current user mediaType pre) code sdp).mp hans
  · intro h pre a post heq uuid code ha hq
    obtain ⟨sdp, hsent⟩ := step_response (c := (init user mediaType).after pre) ha
    refine ⟨_, hsent, rfl, ?_⟩
    exact (answers_genReponse_iff (after_current user mediaType pre) code sdp).mpr
      (h pre a post heq uuid code ha hq)

/-- One call at a time. -/
theorem responsesRight_iff_oneCall :
    ResponsesRight (init ['u'] 0)
      [.recvInvite ⟨['a'], ['u'], ['1'], [], 1, [], []⟩, .accept ['1'] []] := by
  refine (responsesRight_iff _ _ _).mpr fun pre a post heq uuid code ha _ => ?_
  rcases pre with _ | ⟨a₁, _ | ⟨a₂, pre⟩⟩
  · cases heq
    cases ha
  · cases heq
    cases ha
    exact ⟨_, rfl, rfl, _, List.mem_cons_self, rfl, rfl, rfl, rfl, rfl⟩
  · simp at heq

/-- Two invitations come one after the other. The first call is accepted, and the response
goes out with the id and the sender of the second. -/
theorem not_responsesRight_twoInvites :
    ¬ ResponsesRight (init ['u'] 0)
      [.recvInvite ⟨['a'], ['u'], ['1'], [], 1, [], []⟩,
        .recvInvite ⟨['b'], ['u'], ['2'], [], 1, [], []⟩, .accept ['1'] []] := by
  intro h
  obtain ⟨resp, hsent, -, hid, -⟩ := h
    [.recvInvite ⟨['a'], ['u'], ['1'], [], 1, [], []⟩,
      .recvInvite ⟨['b'], ['u'], ['2'], [], 1, [], []⟩] (.accept ['1'] []) [] rfl ['1'] .accept
    rfl ⟨⟨['a'], ['u'], ['1'], [], 1, [], []⟩, List.mem_cons_self, rfl⟩
  cases List.append_cancel_left hsent
  cases hid

end CommandClient

end EChannel.Signalling
