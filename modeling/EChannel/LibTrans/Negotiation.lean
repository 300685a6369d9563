import EChannel.LibTrans.ImpPjIce
import EChannel.Support.Qt
import EChannel.Support.Run

/-!
# `EChannel.LibTrans.Negotiation`: when the ICE negotiation of a channel starts

A `TransportChannel` (`libTrans/src/transportchannel.cpp`) brings three things together: the
report of pjnath that its transport is initialised, the SDP text of the peer, and the local ICE
session, which `getLocalSDP` creates. `pj_ice_strans_start_ice` is called by `iceAppStartNego`
(`libTrans/src/imppjice.cpp`), under `PJICESocket::negoWith`.

* pjnath reports from a thread of its own. `iceInitResult` sets `_sInit` there, and its signal
  `cbInitResult(true)` is queued for `onICEInit`; `initReports` counts the queued ones.
* A slot of the application may call `getLocalSDP` while `initialized()` is emitted. Whether
  one does, and whether `pj_ice_strans_init_ice` succeeds, are inputs.
* The transport stays there: neither it nor the channel fails or is closed. `negoWith` has no
  result for a text that is refused, since the channel then reports an error and is deleted.
* `pj_ice_strans_start_ice` may fail. Behind the check list it then stops the session
  (`pj_ice_strans_stop_ice`), and the channel only logs it: `stopped` is an input.

`started` lists the calls of `pj_ice_strans_start_ice`, `supplied` the texts that were given to
`updateRemoteSDP`, and `tried` those that `negoWith` took up while there was a session. No
branch reads any of them.
-/

set_option autoImplicit false

namespace EChannel.LibTrans

open CText

/-- The arguments of `pj_ice_strans_start_ice` that describe the peer. -/
structure StartIce where
  ufrag : CString
  pwd : CString
  cand : List PjIceSessCand
  deriving DecidableEq

/-- What `iceAppStartNego` takes from `ICE_Session::rem`. -/
def RemInfo.startIce (rem : RemInfo) : StartIce :=
  { ufrag := rem.ufrag, pwd := rem.pwd, cand := rem.cand }

/-- The members of a `TransportChannel`, its `PJICESocket` and its `ICE_Session` that the start
depends on. `hasSess` is `pj_ice_strans_has_sess`. -/
structure NegoChannel where
  isInitialized : Bool
  remoteSDP : QString
  sInit : Bool
  hasSess : Bool
  rem : RemInfo
  initReports : Nat
  started : List StartIce
  supplied : List QString
  tried : List QString

namespace NegoChannel

/-- The channel after its constructor. -/
def init : NegoChannel :=
  { isInitialized := false, remoteSDP := [], sInit := false, hasSess := false,
    rem := { resetRemoteInfo with compCnt := 1 }, initReports := 0, started := [],
    supplied := [], tried := [] }

/-! ### `PJICESocket` -/

/-- `PJICESocket::iceInitResult`, for a success. -/
def iceInitResult (c : NegoChannel) : NegoChannel :=
  { c with sInit := true, initReports := c.initReports + 1 }

/-- `iceAppInitSession`, with the result of `pj_ice_strans_init_ice`. -/
def iceAppInitSession (c : NegoChannel) (ok : Bool) : NegoChannel :=
  -- "Session already created"
  if c.hasSess then c
  else { c with hasSess := ok, rem := resetRemoteInfo }

/-- `PJICESocket::localSdp`, without the text. -/
def localSdp (c : NegoChannel) (ok : Bool) : NegoChannel :=
  if c.sInit then c.iceAppInitSession ok else c

/-- `iceAppStartNego`. `stopped` says that `pj_ice_strans_start_ice` fails and stops the
session. A failure before that leaves the session, as a success does. -/
def iceAppStartNego (c : NegoChannel) (stopped : Bool) : NegoChannel :=
  -- "No ICE session, initialize first" and "No remote info, input remote info first"
  if c.hasSess = false ∨ c.rem.cand.length = 0 then c
  else { c with started := c.started ++ [c.rem.startIce], hasSess := !stopped }

/-- `PJICESocket::negoWith`, for a text that is accepted. -/
def negoWith (pj : PjSock) (c : NegoChannel) (remoteSdp : QString) (stopped : Bool) :
    Option NegoChannel :=
  if c.sInit then
    match icedemoInputRemote pj remoteSdp with
    | .ok (true, rem) =>
      let tried := if c.hasSess then c.tried ++ [remoteSdp] else c.tried
      some ({ c with rem, tried }.iceAppStartNego stopped)
    | _ => none
  else none

/-! ### `TransportChannel` -/

/-- `TransportChannel::getLocalSDP`. -/
def getLocalSDP (c : NegoChannel) (ok : Bool) : NegoChannel := c.localSdp ok

/-- `TransportChannel::updateRemoteSDP`. -/
def updateRemoteSDP (pj : PjSock) (c : NegoChannel) (sdp : QString) (stopped : Bool) :
    Option NegoChannel :=
  let c := { c with remoteSDP := sdp, supplied := c.supplied ++ [sdp] }
  if c.isInitialized then c.negoWith pj sdp stopped else some c

/-- `TransportChannel::onICEInit`, for a success. `listener` says whether a slot of
`initialized()` calls `getLocalSDP`. -/
def onICEInit (pj : PjSock) (c : NegoChannel) (listener ok stopped : Bool) :
    Option NegoChannel :=
  let c := { c with isInitialized := true }
  let c := if listener then c.getLocalSDP ok else c
  if c.remoteSDP = [] then some c else c.negoWith pj c.remoteSDP stopped

/-! ### The step function -/

/-- A report of pjnath, its delivery, or a call of the application. -/
inductive NegoAction
  | iceInitResult
  | onICEInit (listener ok stopped : Bool)
  | updateRemoteSDP (sdp : QString) (stopped : Bool)
  | getLocalSDP (ok : Bool)
  deriving DecidableEq

/-- The step function. A report is delivered after it was made. -/
def step (pj : PjSock) (c : NegoChannel) : NegoAction → Option NegoChannel
  | .iceInitResult => some c.iceInitResult
  | .onICEInit listener ok stopped =>
    if c.initReports = 0 then none
    else { c with initReports := c.initReports - 1 }.onICEInit pj listener ok stopped
  | .updateRemoteSDP sdp stopped => c.updateRemoteSDP pj sdp stopped
  | .getLocalSDP ok => some (c.getLocalSDP ok)

/-! ### Descriptions of the peer -/

/-- The description that a text has, if it is valid. -/
def describe (pj : PjSock) (sdp : QString) : Option StartIce :=
  match icedemoInputRemote pj sdp with
  | .ok (true, rem) => some rem.startIce
  | _ => none

/-- The text of `updateRemoteSDP` is valid. -/
def NegoAction.Valid (pj : PjSock) : NegoAction → Prop
  | .updateRemoteSDP sdp _ => (describe pj sdp).isSome = true
  | _ => True

/-- With an initialised transport and a session, the negotiation was started with the description
of every text that was supplied. -/
def Started (pj : PjSock) (c : NegoChannel) : Prop :=
  c.isInitialized = true → c.hasSess = true →
    ∀ sdp ∈ c.supplied, ∀ d, describe pj sdp = some d → d ∈ c.started

end NegoChannel

end EChannel.LibTrans
