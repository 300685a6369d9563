import EChannel.LibTrans.PjIceSocket
import EChannel.Support.CBytes

/-!
# `EChannel.LibTrans.TurnAuth`: the TURN credential on its way to pjnath

`TransferInstance::init` (`libTrans/src/transferinstance.cpp`) takes a user name, a password and
a realm for the TURN server. They go through `PJICESocket::setIceTurnAuth` and `setTurnAuth` into
the options of the global `iceCfg`, three arrays one behind the other. Each `createSession` puts
them into the configuration of its transport, with `initIceStransCfg` (all in
`libTrans/src/imppjice.cpp`).

* A string of pjlib is a pointer into an array, up to the next NUL in memory. What is behind the
  arrays is an input of each call. `pj_ice_strans_create` copies the strings.
* The configuration has what `initIceStransCfg` sets. `stun` and `turn` are `none` where it keeps
  the default of pjnath, which is no server.
* The calls on the sockets are those of `IceApp`. `startICESocket` has the server string, which may
  be any, beside them.
-/

set_option autoImplicit false

namespace EChannel.LibTrans

open CBytes

/-! ### The options -/

/-- `MAX_TURNCHARLEN`. -/
def maxTurncharlen : Nat := 16

/-- `IceAppCfg::options`. -/
structure IceOptions where
  turnUsername : Vector UInt8 maxTurncharlen
  turnPassword : Vector UInt8 maxTurncharlen
  turnReaml : Vector UInt8 maxTurncharlen
  deriving DecidableEq

/-- The options after the constructor of `IceAppCfg`. -/
def IceOptions.init : IceOptions :=
  { turnUsername := strncpy maxTurncharlen (toStdString "test".toList)
    turnPassword := strncpy maxTurncharlen (toStdString "test".toList)
    turnReaml := strncpy maxTurncharlen (toStdString "www.vemic.com".toList) }

/-- `setTurnAuth`. All three arrays get the user name. -/
def setTurnAuth (uName _passwd _realm : QByteArray) : IceOptions :=
  { turnUsername := strncpy maxTurncharlen uName
    turnPassword := strncpy maxTurncharlen uName
    turnReaml := strncpy maxTurncharlen uName }

/-- `PJICESocket::setIceTurnAuth`. -/
def setIceTurnAuth (uName passwd realm : QString) : IceOptions :=
  setTurnAuth (toStdString uName) (toStdString passwd) (toStdString realm)

/-- The memory from `turn_username` on. -/
def IceOptions.memory (opt : IceOptions) (behind : QByteArray) : QByteArray :=
  opt.turnUsername.toList ++ (opt.turnPassword.toList ++ (opt.turnReaml.toList ++ behind))

/-! ### The configuration -/

/-- `pj_stun_passwd_type`. -/
inductive PjStunPasswdType
  | plain
  | hashed
  deriving DecidableEq, Repr

/-- `pj_turn_tp_type`. -/
inductive PjTurnTpType
  | udp
  | tcp
  deriving DecidableEq, Repr

/-- `pj_stun_auth_cred` of the type `PJ_STUN_AUTH_CRED_STATIC`. -/
structure StaticCred where
  username : QByteArray
  realm : QByteArray
  data : QByteArray
  dataType : PjStunPasswdType
  deriving DecidableEq, Repr

/-- The members that `stun` and `turn` of a configuration have both. -/
structure ServerCfg where
  server : QByteArray
  port : UInt16
  soSndbufSize : UInt32
  soRcvbufSize : UInt32
  kaInterval : Nat
  deriving DecidableEq, Repr

/-- `turn` of a configuration. -/
structure TurnCfg extends ServerCfg where
  authCred : StaticCred
  connType : PjTurnTpType
  deriving DecidableEq, Repr

/-- `pj_ice_strans_cfg`. -/
structure PjIceStransCfg where
  maxHostCands : Nat
  aggressive : Bool
  stun : Option ServerCfg
  turn : Option TurnCfg
  deriving DecidableEq, Repr

/-- `PJ_STUN_PORT`. -/
def pjStunPort : UInt16 := 3478

/-- `KA_INTERVAL`. -/
def kaInterval : Nat := 500

/-- The server and the port of a server string. The port is behind the first colon, if there is
one. -/
def serverCfg (srv : QByteArray) (soSndSize soRecvSize : UInt32) : ServerCfg :=
  let behind := srv.dropWhile fun b => decide (b ≠ 58)
  { server := srv.takeWhile fun b => decide (b ≠ 58)
    port :=
      if behind = [] then pjStunPort
      else
        let number := CText.atoi ((behind.drop 1).map fun b => Char.ofNat b.toNat)
        UInt16.ofNat (number % 65536).toNat
    soSndbufSize := soSndSize
    soRcvbufSize := soRecvSize
    kaInterval := kaInterval }

/-- The credential: `pj_str` of each array. -/
def staticCred (opt : IceOptions) (behind : QByteArray) : StaticCred :=
  let memory := opt.memory behind
  { username := cStr memory
    dataType := .hashed
    realm := cStr (memory.drop (2 * maxTurncharlen))
    data := cStr (memory.drop maxTurncharlen) }

/-- `initIceStransCfg`. -/
def initIceStransCfg (opt : IceOptions) (behind rfc5766 : QByteArray)
    (soSndSize soRecvSize : UInt32) : PjIceStransCfg :=
  let rfc5766Srv := cStr rfc5766
  { maxHostCands := 1
    aggressive := false
    stun := if rfc5766Srv.length = 0 then none else some (serverCfg rfc5766Srv soSndSize soRecvSize)
    turn :=
      if rfc5766Srv.length = 0 then none
      else
        some { serverCfg rfc5766Srv soSndSize soRecvSize with
          authCred := staticCred opt behind
          connType := .tcp } }

/-! ### Calls -/

/-- The sockets, and the options that they share. -/
structure TurnApp where
  app : IceApp
  opt : IceOptions

/-- `TransferInstance::init`, a start of a socket, or another call on a socket. -/
inductive TurnAction
  | init (uName passwd realm : QString)
  | startICESocket (k : IceSockId) (turnsrv : QString) (soSndSize soRecvSize : UInt32)
      (behind : QByteArray) (r : StartResult)
  | other (a : IceApp.IceAction)

namespace TurnApp

/-- `TransferInstance::init`, as far as it sets the credential. -/
def init (s : TurnApp) (uName passwd realm : QString) : TurnApp :=
  { s with opt := setIceTurnAuth uName passwd realm }

/-- The configuration that `createSession` passes to `pj_ice_strans_create`, if it gets there. -/
def createSessionCfg (s : TurnApp) (sock : PjIceSocket) (turnsrv : QString)
    (soSndSize soRecvSize : UInt32) (behind : QByteArray) (r : StartResult) :
    Option PjIceStransCfg :=
  if sock.icest.isSome then none
  else if s.app.cfg.pool = false ∧ (s.app.iceAppInit r).2 = false then none
  else some (initIceStransCfg s.opt behind (toStdString turnsrv) soSndSize soRecvSize)

/-- The configuration of a call, if it makes one. -/
def config (s : TurnApp) : TurnAction → Option PjIceStransCfg
  | .startICESocket k turnsrv soSndSize soRecvSize behind r =>
    (s.app.sockets k).bind fun sock =>
      s.createSessionCfg sock turnsrv soSndSize soRecvSize behind r
  | _ => none

/-- A call on the sockets. -/
def stepApp (pj : PjSock) (s : TurnApp) (a : IceApp.IceAction) : Option TurnApp :=
  (IceApp.step pj s.app a).map fun app => { s with app }

/-- The step function. -/
def step (pj : PjSock) (s : TurnApp) : TurnAction → Option TurnApp
  | .init uName passwd realm => some (s.init uName passwd realm)
  | .startICESocket k _ _ _ _ r => s.stepApp pj (.startICESocket k r)
  | .other (.startICESocket _ _) => none
  | .other a => s.stepApp pj a

end TurnApp

end EChannel.LibTrans
