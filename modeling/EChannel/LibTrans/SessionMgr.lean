import EChannel.LibTrans.PjIceSocket

/-!
# `EChannel.LibTrans.SessionMgr`: sessions and the errors of their channels

`SessionMgr` (`libTrans/src/sessionmgr.cpp`) keeps the sessions by their ids. A `Session`
(`libTrans/src/session.cpp`) has one `TransportChannel`, and the channel has one `PJICESocket`.
This is the side of a channel (`libTrans/src/transportchannel.cpp`) that its session sees; what
it does with uTP is in `EChannel.LibTrans.UtpManager`.

* A `Session*` is a number, and so is its channel, which has no life of its own.
* The ICE worker thread calls `iceInitResult` and `iceNegoResult`. Their signals are queued, and
  `pending` holds those not delivered yet. `startICESocket` and `negoWith` run in the main
  thread, and a signal that they emit runs its slot at once. So do `sigClose` of the channel
  and `sigClose` of the session.
* Whether `createSession` of `imppjice.cpp` succeeds, and what pjnath reports, are inputs.
* `errors` lists the `error` signals of all channels. No branch reads it.

The texts and codes of the errors are those of the source; `conncetError` passes on the text
that comes with `utpError`.
-/

set_option autoImplicit false

namespace EChannel.LibTrans

/-- A `Session*`. -/
abbrev SessId := Nat

/-- `Channel::ERROR_CODE`. -/
inductive ErrorCode
  | neFailed
  | connectFailed
  deriving DecidableEq, Repr

/-- An `error` signal of the channel of a session, with the id of the session. -/
structure ErrorReport where
  sess : SessId
  sessionId : QString
  code : ErrorCode
  msg : QString
  deriving DecidableEq, Repr

/-- The members of a `TransportChannel` that concern ICE. `sInit` is the member of its
`PJICESocket`, and `started` says whether that has a transport. -/
structure IceChannel where
  iceSocket : Bool
  started : Bool
  sInit : Bool
  isInitialized : Bool
  iceNego : Bool
  isRelay : Bool
  peerAddress : QString
  remoteSDP : QString
  deriving DecidableEq, Repr

/-- The members of a `Session`. -/
structure Session where
  sessionId : QString
  isControl : Bool
  channel : Option IceChannel
  deriving DecidableEq, Repr

/-- The sessions. A session that was deleted has no entry in `sessions`. -/
structure SessionMgr where
  hashSession : QHash QString SessId
  sessions : SessId → Option Session
  nextSess : SessId
  pending : List (SessId × IceSignal)
  errors : List ErrorReport

namespace SessionMgr

/-- The state after `init`. -/
def init : SessionMgr :=
  { hashSession := ∅, sessions := fun _ => none, nextSess := 0, pending := [], errors := [] }

/-- Replace the members of a session. -/
def setSession (m : SessionMgr) (k : SessId) (sess : Session) : SessionMgr :=
  { m with sessions := Function.update m.sessions k (some sess) }

/-- Replace the members of the channel of a session. -/
def setChannel (m : SessionMgr) (k : SessId) (sess : Session) (ch : IceChannel) : SessionMgr :=
  m.setSession k { sess with channel := some ch }

/-- `emit error(code, msg)`. -/
def error (m : SessionMgr) (k : SessId) (sess : Session) (code : ErrorCode) (msg : QString) :
    SessionMgr :=
  { m with errors := m.errors ++ [{ sess := k, sessionId := sess.sessionId, code, msg }] }

/-! ### Closing -/

/-- `SessionMgr::onClose`. -/
def onClose (m : SessionMgr) (k : SessId) : SessionMgr :=
  { m with
    hashSession := m.hashSession.erase (m.hashSession.key k [])
    sessions := Function.update m.sessions k none }

/-- `Session::onClose`. -/
def sessionOnClose (m : SessionMgr) (k : SessId) (sess : Session) : SessionMgr :=
  (m.setSession k { sess with channel := none }).onClose k

/-- `TransportChannel::conncetError`. -/
def conncetError (m : SessionMgr) (k : SessId) (sess : Session) (ch : IceChannel)
    (errMsg : QString) : SessionMgr :=
  ((m.setChannel k sess { ch with iceSocket := false }).error k sess .connectFailed
    errMsg).sessionOnClose k sess

/-! ### ICE -/

/-- `TransportChannel::onICENego`. The uTP side of a success is `UTPManager.onICENego`. -/
def onICENego (m : SessionMgr) (k : SessId) (sess : Session) (ch : IceChannel)
    (isSuccess isRelay : Bool) (address : QString) : SessionMgr :=
  -- The channel has negotiated, and later reports are dropped.
  if ch.iceNego then m
  else
    let m' := m.setChannel k sess
      { ch with peerAddress := address, isRelay, iceNego := isSuccess }
    if isSuccess then m' else m'.error k sess .neFailed "ice nego failed.".toList

/-- `PJICESocket::negoWith`, `none` where reading the SDP text has a fault. What
`iceAppStartNego` starts is reported later, and it only logs a failure of its own. -/
def negoWith (pj : PjSock) (m : SessionMgr) (k : SessId) (sess : Session) (ch : IceChannel)
    (remoteSdp : QString) : Option SessionMgr :=
  if ch.sInit then
    match icedemoInputRemote pj remoteSdp with
    | .error _ => none
    | .ok (true, _) => some m
    | .ok (false, _) => some (m.onICENego k sess ch false false [])
  -- `emit cbNegoResult(false, false, "")`: ICE is not initialised.
  else some (m.onICENego k sess ch false false [])

/-- `TransportChannel::onICEInit`. -/
def onICEInit (pj : PjSock) (m : SessionMgr) (k : SessId) (sess : Session) (ch : IceChannel)
    (isSuccess : Bool) : Option SessionMgr :=
  let ch := { ch with isInitialized := isSuccess }
  let m := m.setChannel k sess ch
  if isSuccess then
    if ch.remoteSDP = [] then some m else m.negoWith pj k sess ch ch.remoteSDP
  else some (m.error k sess .neFailed "ice init failed.".toList)

/-- `TransportChannel::updateRemoteSDP`. -/
def updateRemoteSDP (pj : PjSock) (m : SessionMgr) (k : SessId) (sess : Session)
    (ch : IceChannel) (sdp : QString) : Option SessionMgr :=
  let ch := { ch with remoteSDP := sdp }
  let m := m.setChannel k sess ch
  if ch.isInitialized then m.negoWith pj k sess ch sdp else some m

/-- The slot for a signal of the `PJICESocket`. -/
def iceSlot (pj : PjSock) (m : SessionMgr) (k : SessId) (sess : Session) (ch : IceChannel) :
    IceSignal → Option SessionMgr
  | .cbInitResult success => m.onICEInit pj k sess ch success
  | .cbNegoResult success isRelay connIp => some (m.onICENego k sess ch success isRelay connIp)

/-! ### Sessions -/

/-- A channel after its constructor and the making of its `PJICESocket` in `onInit`. -/
def newChannel (started : Bool) : IceChannel :=
  { iceSocket := true, started, sInit := false, isInitialized := false, iceNego := false,
    isRelay := false, peerAddress := [], remoteSDP := [] }

/-- `Session::init` for the next session. When `createSession` of `imppjice.cpp` fails,
`startICESocket` emits `cbInitResult(false)`, and `onICEInit` runs before it returns. -/
def sessionInit (m : SessionMgr) (sessionId : QString) (isControl started : Bool) :
    SessionMgr :=
  let sess : Session := { sessionId, isControl, channel := some (newChannel started) }
  let m' := { m with nextSess := m.nextSess + 1 }.setSession m.nextSess sess
  if started then m' else m'.error m.nextSess sess .neFailed "ice init failed.".toList

/-- `SessionMgr::createSession`. The session is stored when its `init` has returned. -/
def createSession (m : SessionMgr) (uuid : QString) (isControl started : Bool) : SessionMgr :=
  match m.hashSession.lookup uuid with
  -- Whether the channel of the stored session still works is not asked.
  | some _ => m
  | none =>
    let m' := m.sessionInit uuid isControl started
    { m' with hashSession := m'.hashSession.insert uuid m.nextSess }

/-- `TransferInstance::initSession`, with the text that `QUuid::createUuid` gives. -/
def initSession (m : SessionMgr) (sessionId uuid : QString) (started : Bool) : SessionMgr :=
  if sessionId = [] then m.createSession uuid false started
  else m.createSession sessionId true started

/-! ### The step function -/

/-- A call of the application, a report of the ICE thread, the next queued slot, or the report
of `UTPManager` that the uTP socket of a channel is destroyed. -/
inductive SessAction
  | initSession (sessionId uuid : QString) (started : Bool)
  | updateRemoteSDP (sessionId sdp : QString)
  | iceInitResult (k : SessId) (success : Bool)
  | iceNegoResult (k : SessId) (success isRelay : Bool) (connIp : QString)
  | slot
  | conncetError (k : SessId) (errMsg : QString)
  deriving DecidableEq, Repr

/-- A session with its channel. -/
def channelOf (m : SessionMgr) (k : SessId) : Option (Session × IceChannel) :=
  (m.sessions k).bind fun sess => sess.channel.map fun ch => (sess, ch)

/-- The step function. `createUuid` gives a text. `getSession` asserts that the id is stored. A
report needs a transport. The signals to a channel that is gone are dropped. -/
def step (pj : PjSock) (m : SessionMgr) : SessAction → Option SessionMgr
  | .initSession sessionId uuid started =>
    if uuid = [] then none else some (m.initSession sessionId uuid started)
  | .updateRemoteSDP sessionId sdp =>
    match m.hashSession.lookup sessionId with
    | none => none
    | some k =>
      match m.channelOf k with
      | none => none
      | some (sess, ch) => m.updateRemoteSDP pj k sess ch sdp
  | .iceInitResult k success =>
    match m.channelOf k with
    | none => none
    | some (sess, ch) =>
      if ch.started then
        some { m.setChannel k sess { ch with sInit := success } with
          pending := m.pending ++ [(k, .cbInitResult success)] }
      else none
  | .iceNegoResult k success isRelay connIp =>
    match m.channelOf k with
    | none => none
    | some (_, ch) =>
      if ch.started then
        some { m with pending := m.pending ++ [(k, .cbNegoResult success isRelay connIp)] }
      else none
  | .slot =>
    match m.pending with
    | [] => none
    | (k, sig) :: rest =>
      let m' := { m with pending := rest }
      match m.channelOf k with
      | none => some m'
      | some (sess, ch) => m'.iceSlot pj k sess ch sig
  | .conncetError k errMsg =>
    match m.channelOf k with
    | none => none
    | some (sess, ch) => some (m.conncetError k sess ch errMsg)

end SessionMgr

end EChannel.LibTrans
