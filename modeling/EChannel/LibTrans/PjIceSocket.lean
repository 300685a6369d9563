import EChannel.LibTrans.ImpPjIce
import EChannel.Support.Qt
import EChannel.Support.Run
import Mathlib.Data.Finset.Card
import Mathlib.Data.Finset.Filter
import Mathlib.Data.Finset.Range
import Mathlib.Logic.Function.Basic

/-!
# `EChannel.LibTrans.PjIceSocket`: ICE transports and the runtime they share

A `PJICESocket` (`libTrans/src/PJICESocket.cpp`) has one ICE transport of pjnath at most,
`ICE_Session::icest`. All transports share one runtime, the global `iceCfg` of
`libTrans/src/imppjice.cpp`: a pool, a timer heap, an ioqueue and a worker thread, with a
reference count. `createSession` makes a transport, `cbOnIceComplete` is the callback of
pjnath, `iceAppStopSession` runs in the destructor of the socket.

* pjnath is the table `transports`: an entry is a transport that `pj_ice_strans_create` made
  and `pj_ice_strans_destroy` was not called on. What pjnath reports, and whether its
  functions succeed, is an input.
* A pointer of `iceCfg` to a part of the runtime is `some n` for a part that was made after
  `n` teardowns. A teardown clears `pool` only, and a `pj_timer_heap_create` that fails clears
  its pointer.
* `log` records the calls that matter here, with what the callers cannot see: whether a
  transport handed to pjnath is live. No branch reads it.

The `cbInitResult` and `cbNegoResult` signals go to `signals`. `pj_ice_strans_create` can
report the initialisation before it returns; that report is a step of its own here.
-/

set_option autoImplicit false

namespace EChannel.LibTrans

/-- A `pj_ice_strans*`: transports are numbered in the order of their creation. -/
abbrev StransId := Nat

/-- A `PJICESocket*`. -/
abbrev IceSockId := Nat

/-- `pj_ice_strans_op`. -/
inductive StransOp
  | init
  | negotiation
  | keepAlive
  deriving DecidableEq, Repr

/-- The part of a `pj_ice_strans` that the callers depend on. -/
structure Strans where
  userData : IceSockId
  hasSess : Bool
  deriving DecidableEq, Repr

/-- `IceAppCfg`. `ref` is an `unsigned`. -/
structure IceAppCfg where
  pool : Bool
  timerHeap : Option Nat
  ioqueue : Option Nat
  thread : Option Nat
  threadQuitFlag : Bool
  ref : Nat
  deriving DecidableEq, Repr

/-- The members of a `PJICESocket`, those of its `ICE_Session` included. -/
structure PjIceSocket where
  icest : Option StransId
  rem : RemInfo
  sInit : Bool
  sNego : Bool

/-- The signals of a `PJICESocket`. -/
inductive IceSignal
  | cbInitResult (success : Bool)
  | cbNegoResult (success isRelay : Bool) (connIp : QString)
  deriving DecidableEq, Repr

/-- The functions of `imppjice.cpp` that hand `icest` to pjnath. -/
inductive IceFn
  | initSession
  | encodeSession
  | startNego
  | sendTo
  | stopSession
  deriving DecidableEq, Repr

/-- What the log records. `iceAppInit` notes its result and `iceCfg.pool` at the return,
`stransCreate` the parts of the runtime at the call of `pj_ice_strans_create` and how many
teardowns there were, `handed` whether the transport is live. -/
inductive IceEvent
  | iceAppInit (ok pool : Bool)
  | stransCreate (timerHeap ioqueue thread : Option Nat) (teardowns : Nat)
  | handed (fn : IceFn) (icest : Option StransId) (live : Bool)
  deriving DecidableEq, Repr

/-- What the functions under `createSession` return: `pj_timer_heap_create`,
`pj_ioqueue_create`, `pj_thread_create` and `pj_ice_strans_create`. -/
structure StartResult where
  timerHeap : Bool
  ioqueue : Bool
  thread : Bool
  strans : Bool
  deriving DecidableEq, Repr

/-- All sockets, and the runtime. -/
structure IceApp where
  cfg : IceAppCfg
  teardowns : Nat
  sockets : IceSockId → Option PjIceSocket
  nextSocket : IceSockId
  transports : StransId → Option Strans
  nextTrans : StransId
  signals : List (IceSockId × IceSignal)
  log : List IceEvent

namespace IceApp

/-- The state before the first socket. -/
def init : IceApp :=
  { cfg :=
      { pool := false, timerHeap := none, ioqueue := none, thread := none,
        threadQuitFlag := false, ref := 0 }
    teardowns := 0, sockets := fun _ => none, nextSocket := 0, transports := fun _ => none,
    nextTrans := 0, signals := [], log := [] }

/-- Append to the log. -/
def record (s : IceApp) (e : IceEvent) : IceApp := { s with log := s.log ++ [e] }

/-- Emit a signal of a socket. -/
def emit (s : IceApp) (k : IceSockId) (sig : IceSignal) : IceApp :=
  { s with signals := s.signals ++ [(k, sig)] }

/-- Replace the members of a socket. -/
def setSocket (s : IceApp) (k : IceSockId) (sock : PjIceSocket) : IceApp :=
  { s with sockets := Function.update s.sockets k (some sock) }

/-! ### pjnath -/

/-- The pointer is not null, and `pj_ice_strans_destroy` was not called on the transport. -/
def isLive (s : IceApp) : Option StransId → Bool
  | some t => (s.transports t).isSome
  | none => false

/-- A function of `imppjice.cpp` calls pjnath with `icest`. -/
def hand (s : IceApp) (fn : IceFn) (icest : Option StransId) : IceApp :=
  s.record (.handed fn icest (s.isLive icest))

/-- `pj_ice_strans_has_sess`. `pj_ice_strans_destroy` has cleared the session. -/
def hasSess (s : IceApp) (t : StransId) : Bool :=
  match s.transports t with
  | some strans => strans.hasSess
  | none => false

/-- `pj_ice_strans_destroy`. -/
def stransDestroy (s : IceApp) (t : StransId) : IceApp :=
  { s with transports := Function.update s.transports t none }

/-- Make or destroy the session of a transport. -/
def setSess (s : IceApp) (t : StransId) (hasSess : Bool) : IceApp :=
  match s.transports t with
  | some strans =>
    { s with transports := Function.update s.transports t (some { strans with hasSess }) }
  | none => s

/-- `pj_ice_strans_init_ice` when it succeeds. -/
def initIce (s : IceApp) (t : StransId) : IceApp := s.setSess t true

/-- `pj_ice_strans_stop_ice`. -/
def stopIce (s : IceApp) (t : StransId) : IceApp := s.setSess t false

/-- The transports that are created and not destroyed. -/
def liveSet (s : IceApp) : Finset StransId :=
  (Finset.range s.nextTrans).filter fun t => (s.transports t).isSome = true

/-! ### The runtime -/

/-- `++` on an `unsigned`. -/
def incUnsigned (n : Nat) : Nat := if n = 4294967295 then 0 else n + 1

/-- `--` on an `unsigned`. -/
def decUnsigned (n : Nat) : Nat := if n = 0 then 4294967295 else n - 1

/-- The `do` block of `iceAppInit` behind `pj_pool_create`: a failure breaks out.
`pj_timer_heap_create` sets the pointer to null before it can fail, `pj_ioqueue_create` and
`pj_thread_create` write theirs when they succeed. -/
def initRuntime (cfg : IceAppCfg) (teardowns : Nat) (r : StartResult) : IceAppCfg × Bool :=
  if r.timerHeap then
    let cfg := { cfg with timerHeap := some teardowns }
    if r.ioqueue then
      let cfg := { cfg with ioqueue := some teardowns }
      if r.thread then ({ cfg with thread := some teardowns }, true)
      else (cfg, false)
    else (cfg, false)
  else ({ cfg with timerHeap := none }, false)

/-- `iceAppInit`. The pool is set first, and a failure behind it keeps it. -/
def iceAppInit (s : IceApp) (r : StartResult) : IceApp × Bool :=
  if s.cfg.pool then (s, true)
  else
    let i := initRuntime { s.cfg with threadQuitFlag := false, pool := true } s.teardowns r
    ({ s with cfg := i.1 }.record (.iceAppInit i.2 i.1.pool), i.2)

/-- `pj_ice_strans_create` for the socket `k`, and `iceCfg.ref++` when it succeeds. pjnath
refuses a configuration without an ioqueue or without a timer heap. -/
def stransCreate (s : IceApp) (k : IceSockId) (sock : PjIceSocket) (ok : Bool) :
    IceApp × Bool :=
  let s := s.record (.stransCreate s.cfg.timerHeap s.cfg.ioqueue s.cfg.thread s.teardowns)
  if ok ∧ s.cfg.timerHeap.isSome ∧ s.cfg.ioqueue.isSome then
    ({ s with
        nextTrans := s.nextTrans + 1
        transports := Function.update s.transports s.nextTrans
          (some { userData := k, hasSess := false })
        sockets := Function.update s.sockets k (some { sock with icest := some s.nextTrans })
        cfg := { s.cfg with ref := incUnsigned s.cfg.ref } }, true)
  else (s, false)

/-- `createSession`. -/
def createSession (s : IceApp) (k : IceSockId) (sock : PjIceSocket) (r : StartResult) :
    IceApp × Bool :=
  -- "already have ICE instance"
  if sock.icest.isSome then (s, false)
  else
    -- A pool that is there stands for a runtime that works.
    let i := if s.cfg.pool then (s, true) else s.iceAppInit r
    if i.2 then i.1.stransCreate k sock r.strans else (i.1, false)

/-- `destoryIceApp`. The pointers to the parts that are destroyed stay in place. -/
def destoryIceApp (s : IceApp) : IceApp :=
  let ref := decUnsigned s.cfg.ref
  if ref = 0 then
    { s with
        cfg := { s.cfg with ref, threadQuitFlag := true, pool := false }
        teardowns := s.teardowns + 1 }
  else { s with cfg := { s.cfg with ref } }

/-! ### `PJICESocket` -/

/-- `PJICESocket::PJICESocket`. The constructor of `ICE_Session` leaves the candidates of
`rem` open; nothing reads them before `icedemo_input_remote` has set them. -/
def newSocket (s : IceApp) : IceApp :=
  { s with
      nextSocket := s.nextSocket + 1
      sockets := Function.update s.sockets s.nextSocket
        (some { icest := none, rem := { resetRemoteInfo with compCnt := 1 }, sInit := false,
                sNego := false }) }

/-- `PJICESocket::startICESocket`. -/
def startICESocket (s : IceApp) (k : IceSockId) (sock : PjIceSocket) (r : StartResult) :
    IceApp :=
  let c := s.createSession k sock r
  if c.2 then c.1 else c.1.emit k (.cbInitResult false)

/-- `PJICESocket::iceInitResult`. -/
def iceInitResult (s : IceApp) (k : IceSockId) (sock : PjIceSocket) (success : Bool) :
    IceApp :=
  (s.setSocket k { sock with sInit := success }).emit k (.cbInitResult success)

/-- `PJICESocket::iceNegoResult`. -/
def iceNegoResult (s : IceApp) (k : IceSockId) (sock : PjIceSocket) (success isRelay : Bool)
    (connIp : QString) : IceApp :=
  (s.setSocket k { sock with
      sNego := success
      icest := if success then sock.icest else none }).emit k
    (.cbNegoResult success isRelay connIp)

/-- `iceAppInitSession`, with the result of `pj_ice_strans_init_ice`. -/
def iceAppInitSession (s : IceApp) (k : IceSockId) (sock : PjIceSocket) (ok : Bool) :
    IceApp :=
  match sock.icest with
  | none => s
  | some t =>
    let s' := s.hand .initSession sock.icest
    -- "Session already created"
    if s.hasSess t then s'
    else
      (if ok then s'.initIce t else s').setSocket k { sock with rem := resetRemoteInfo }

/-- `encodeSession` as a caller of pjnath. Its text is that of `LibTrans.encodeSession`. -/
def encodeIce (s : IceApp) (sock : PjIceSocket) : IceApp :=
  match sock.icest with
  | none => s
  | some _ => s.hand .encodeSession sock.icest

/-- `PJICESocket::localSdp`. -/
def localSdp (s : IceApp) (k : IceSockId) (sock : PjIceSocket) (ok : Bool) : IceApp :=
  if sock.sInit then (s.iceAppInitSession k sock ok).encodeIce sock else s

/-- `iceAppStartNego`. What `pj_ice_strans_start_ice` starts is reported later; `stopped` says
that it fails and stops the session. A failure before that leaves the session. -/
def iceAppStartNego (s : IceApp) (sock : PjIceSocket) (stopped : Bool) : IceApp :=
  match sock.icest with
  | none => s
  | some t =>
    let s' := s.hand .startNego sock.icest
    -- "No ICE session, initialize first" and "No remote info, input remote info first"
    if s.hasSess t = false ∨ sock.rem.cand.length = 0 then s'
    else if stopped then s'.stopIce t
    else s'

/-- `PJICESocket::negoWith`, `none` where reading the SDP text has a fault. -/
def negoWith (pj : PjSock) (s : IceApp) (k : IceSockId) (sock : PjIceSocket)
    (remoteSdp : QString) (stopped : Bool) : Option IceApp :=
  if sock.sInit then
    match icedemoInputRemote pj remoteSdp with
    | .error _ => none
    | .ok (true, rem) =>
      some ((s.setSocket k { sock with rem }).iceAppStartNego { sock with rem } stopped)
    | .ok (false, rem) =>
      some ((s.setSocket k { sock with rem }).emit k (.cbNegoResult false false []))
  else some (s.emit k (.cbNegoResult false false []))

/-- `iceAppSendTo`. For a null `icest` it writes an error to the log file and goes on to
`pj_ice_strans_has_sess`. The data of the packet is not modelled. -/
def iceAppSendTo (s : IceApp) (sock : PjIceSocket) : IceApp := s.hand .sendTo sock.icest

/-- `PJICESocket::iceSentTo`. -/
def iceSentTo (s : IceApp) (sock : PjIceSocket) : IceApp :=
  if sock.sNego then s.iceAppSendTo sock else s

/-- `iceAppStopSession`. -/
def iceAppStopSession (s : IceApp) (k : IceSockId) (sock : PjIceSocket) : IceApp :=
  match sock.icest with
  | none => s
  | some t =>
    let s' := s.hand .stopSession sock.icest
    -- "No ICE session, initialize first": the transport stays.
    if s.hasSess t then
      ((s'.stransDestroy t).setSocket k
        { sock with icest := none, rem := resetRemoteInfo }).destoryIceApp
    else s'

/-- `PJICESocket::~PJICESocket`. -/
def deleteSocket (s : IceApp) (k : IceSockId) (sock : PjIceSocket) : IceApp :=
  let s := s.iceAppStopSession k sock
  { s with sockets := Function.update s.sockets k none }

/-- `cbOnIceComplete` for the transport `t`. A failed transport is destroyed first; its user
data outlives the callback, and its pairs are gone. When the socket is gone too, what the
callback does to it is not defined, and the model does nothing. -/
def cbOnIceComplete (s : IceApp) (t : StransId) (strans : Strans) (op : StransOp)
    (success isRelay : Bool) (connIp : QString) : IceApp :=
  let s' := if success then s else s.stransDestroy t
  match s'.sockets strans.userData with
  | none => s'
  | some sock =>
    match op with
    -- `icest` keeps its value, also after the failure.
    | .init => s'.iceInitResult strans.userData sock success
    | .negotiation =>
      if success then s'.iceNegoResult strans.userData sock true isRelay connIp
      else s'.iceNegoResult strans.userData sock false false []
    -- "unknown_op": the socket is not told.
    | .keepAlive => s'

/-! ### The step function -/

/-- A call on a socket, or a report of pjnath. -/
inductive IceAction
  | newSocket
  | startICESocket (k : IceSockId) (r : StartResult)
  | onIceComplete (t : StransId) (op : StransOp) (success isRelay : Bool) (connIp : QString)
  | localSdp (k : IceSockId) (ok : Bool)
  | negoWith (k : IceSockId) (remoteSdp : QString) (stopped : Bool)
  | iceSentTo (k : IceSockId)
  | deleteSocket (k : IceSockId)
  deriving DecidableEq

/-- The step function. A call needs the socket, a report needs a live transport. -/
def step (pj : PjSock) (s : IceApp) : IceAction → Option IceApp
  | .newSocket => some s.newSocket
  | .startICESocket k r => (s.sockets k).map fun sock => s.startICESocket k sock r
  | .onIceComplete t op success isRelay connIp =>
    (s.transports t).map fun strans => s.cbOnIceComplete t strans op success isRelay connIp
  | .localSdp k ok => (s.sockets k).map fun sock => s.localSdp k sock ok
  | .negoWith k remoteSdp stopped =>
    (s.sockets k).bind fun sock => s.negoWith pj k sock remoteSdp stopped
  | .iceSentTo k => (s.sockets k).map fun sock => s.iceSentTo sock
  | .deleteSocket k => (s.sockets k).map fun sock => s.deleteSocket k sock

end IceApp

end EChannel.LibTrans
