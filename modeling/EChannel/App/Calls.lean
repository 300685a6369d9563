import EChannel.LibTrans.SessionMgr

/-!
# `EChannel.App.Calls`: calls between clients

Any number of clients, each the window class `Test` (`eChannel/test.cpp`) of a user with the
`SessionMgr` of its process. `send` and `sendFile` call a user, and `onInvite` is the call of
another one. Both go through `initChannel`, which hands the one member `m_uuid` to `initSession`:
an empty id makes `initSession` create a new one.

* The signalling server is between the clients. An invite that was sent may arrive at any later
  time, at the user it names, and more than once.
* `QUuid::createUuid` gives ids that were never given before. `created` has those it gave, with
  the user of the client. `invites` and `received` record the invites that were sent and that
  arrived. No branch of a client reads these three.
* A channel reports `initialized()`, and it reports errors, after one of which it is deleted with
  its session. The window hears of an error from the channel (`onChannelError`) or from the remote
  desktop (`onRDPError`), and does the same.
* `m_channel` is the channel of the session `m_uuid`, or null. `onChannelInit` with the null
  pointer is undefined, and there is no step for it. `onStop` and the end of a file that is sent
  set it to null too.
-/

set_option autoImplicit false

namespace EChannel.App

open LibTrans

/-- An `InviteReq` that a client has sent. -/
structure Invite where
  fromUser : QString
  toUser : QString
  uuid : QString
  deriving DecidableEq, Repr

/-- The members of `Test` that concern calls, and the sessions of the process. `channel` says
whether `m_channel` is set. -/
structure CallClient where
  uuid : QString
  touser : QString
  isInvite : Bool
  channel : Bool
  mgr : SessionMgr

namespace CallClient

/-- A client at the start. -/
def init : CallClient :=
  { uuid := [], touser := [], isInvite := false, channel := false, mgr := SessionMgr.init }

/-- `m_isControl` of the channel for a session. The side with `true` connects in
`createUtpSocket`. -/
def isControl (c : CallClient) (uuid : QString) : Option Bool :=
  (c.mgr.hashSession.lookup uuid).bind fun k => (c.mgr.sessions k).map (·.isControl)

/-- `m_channel->isInitialized()`. -/
def isInitialized (c : CallClient) : Bool :=
  match (c.mgr.hashSession.lookup c.uuid).bind c.mgr.channelOf with
  | some (_, ch) => ch.isInitialized
  | none => false

end CallClient

/-- The clients by their users, and what was recorded. -/
@[ext] structure Calls where
  clients : QString → CallClient
  invites : List Invite
  received : List Invite
  created : List (QString × QString)

namespace Calls

/-- The clients at the start. -/
def init : Calls :=
  { clients := fun _ => CallClient.init, invites := [], received := [], created := [] }

/-- Replace the members of a client. -/
def setClient (s : Calls) (user : QString) (c : CallClient) : Calls :=
  { s with clients := Function.update s.clients user c }

/-- `CommandClient::invite` with the members of the window. -/
def sendInvite (s : Calls) (user : QString) : Calls :=
  { s with
    invites := s.invites ++
      [{ fromUser := user, toUser := (s.clients user).touser, uuid := (s.clients user).uuid }] }

/-- `Test::initChannel`, for the id `fresh` of `createUuid`. -/
def initChannel (s : Calls) (user fresh : QString) (started : Bool) : Option Calls :=
  let c := s.clients user
  let c' := { c with mgr := c.mgr.initSession c.uuid fresh started, channel := true }
  if c.uuid = [] then
    if fresh = [] ∨ ∃ p ∈ s.created, p.2 = fresh then none
    else
      some { s.setClient user { c' with uuid := fresh } with
        created := s.created ++ [(user, fresh)] }
  else some (s.setClient user c')

/-- `Test::invite`, behind `Test::send` or `Test::sendFile`. -/
def invite (s : Calls) (user touser fresh : QString) (started : Bool) : Option Calls := do
  let s ← (s.setClient user { s.clients user with touser }).initChannel user fresh started
  if (s.clients user).isInitialized then some (s.sendInvite user)
  else some (s.setClient user { s.clients user with isInvite := true })

/-- `Test::onInvite` of the user that the invite names. -/
def onInvite (s : Calls) (i : Invite) (fresh : QString) (started : Bool) : Option Calls :=
  if i ∈ s.invites then do
    let s ← (s.setClient i.toUser { s.clients i.toUser with uuid := i.uuid }).initChannel i.toUser
      fresh started
    some { s with received := s.received ++ [i] }
  else none

/-- `Test::onChannelInit`. The invite goes out with the members as they are now. -/
def onChannelInit (s : Calls) (user : QString) : Option Calls :=
  if (s.clients user).channel then
    if (s.clients user).isInvite then
      some ((s.sendInvite user).setClient user { s.clients user with isInvite := false })
    else some s
  else none

/-- `Test::onChannelError` and `Test::onRDPError`. -/
def onChannelError (s : Calls) (user : QString) : Calls :=
  s.setClient user { s.clients user with uuid := [], channel := false }

/-- A call of the user, an invite that arrives, or what a channel of the user reports. -/
inductive CallAction
  | invite (user touser fresh : QString) (started : Bool)
  | onInvite (i : Invite) (fresh : QString) (started : Bool)
  | initialized (user : QString) (k : SessId)
  | error (user : QString) (k : SessId) (code : ErrorCode) (msg : QString)
  | conncetError (user : QString) (k : SessId) (errMsg : QString)
  | close (user : QString)

/-- The step function. -/
def step (s : Calls) : CallAction → Option Calls
  | .invite user touser fresh started => s.invite user touser fresh started
  | .onInvite i fresh started => s.onInvite i fresh started
  | .initialized user k =>
    let c := s.clients user
    match c.mgr.channelOf k with
    | none => none
    | some (sess, ch) =>
      onChannelInit (s.setClient user
        { c with mgr := c.mgr.setChannel k sess { ch with isInitialized := true } }) user
  | .error user k code msg =>
    let c := s.clients user
    match c.mgr.channelOf k with
    | none => none
    | some (sess, _) =>
      some (onChannelError (s.setClient user { c with mgr := c.mgr.error k sess code msg }) user)
  | .conncetError user k errMsg =>
    let c := s.clients user
    match c.mgr.channelOf k with
    | none => none
    | some (sess, ch) =>
      some (onChannelError
        (s.setClient user { c with mgr := c.mgr.conncetError k sess ch errMsg }) user)
  | .close user => some (s.setClient user { s.clients user with channel := false })

/-- `m_isControl` of the channel that a user has for a session. -/
def isControl (s : Calls) (user uuid : QString) : Option Bool := (s.clients user).isControl uuid

end Calls

end EChannel.App
