import EChannel.Support.QtText

/-!
# `EChannel.Signalling.CommandClient`: invitations

`CommandClient` (`eChannel/commandclient.cpp`) speaks to the signalling server. An `InviteReq`
invites the user to a call; the user's program answers it with `ring`, `accept` or `reject`,
which send an `InviteResp`. The client keeps the fields of one request only, in its members
`m_from`, `m_to`, `m_mediaType`, `m_mediainfo`, `m_uuid`, `m_remotesdp` and `m_turnList`.

The messages are those of `media.pb.h` behind the parser and before the serialiser; a field that
is missing in a message has its default there. `transport` is left out, which nothing reads.
Framing is in `EChannel.Signalling.Connection`. `sent` lists the messages handed to
`addSendTask`, and `emitted` the signals to the program.

`m_mediaType` is not initialised by the constructor and has any value at first.
-/

set_option autoImplicit false

namespace EChannel.Signalling

/-- `MGC::TurnRelay`. -/
structure TurnRelay where
  addr : QString
  port : UInt32
  deriving DecidableEq, Repr

/-- `MGC::InviteReq`. `fromUser` and `toUser` are its fields `from` and `to`. -/
structure InviteReq where
  fromUser : QString
  toUser : QString
  suuid : QString
  mediaAddrs : QString
  media : UInt32
  mediaInfo : QString
  turnaddr : List TurnRelay
  deriving DecidableEq, Repr

/-- `MGC::InviteResp`. -/
structure InviteResp where
  request : InviteReq
  code : UInt32
  deriving DecidableEq, Repr

/-- `InviteCodeType`. -/
inductive InviteCodeType
  | ring
  | reject
  | accept
  | notFound
  deriving DecidableEq, Repr

/-- The values of `InviteCodeType`. -/
def InviteCodeType.value : InviteCodeType → UInt32
  | .ring => 180
  | .reject => 487
  | .accept => 200
  | .notFound => 404

/-- A message to the server. -/
inductive ClientMessage
  | invite (request : InviteReq)
  | inviteResp (resp : InviteResp)
  deriving DecidableEq, Repr

/-- The signals to the program. The request type of `onInvite` is always
`REQUEST_TYPE_FILE`. -/
inductive ClientSignal
  | onInvite (fromUser mediainfo uuid sdp : QString)
  | onRing (uuid fromUser sdp : QString)
  | onAccept (uuid fromUser : QString)
  | onNotFound (uuid : QString)
  deriving DecidableEq, Repr

/-- The members of `CommandClient`. -/
structure CommandClient where
  currentUser : QString
  fromUser : QString
  toUser : QString
  mediaType : UInt32
  uuid : QString
  mediainfo : QString
  remotesdp : QString
  turnList : List QString
  sent : List ClientMessage
  emitted : List ClientSignal
  deriving DecidableEq, Repr

/-- `MEDIA_TYPE_FILE`. -/
def mediaTypeFile : UInt32 := 1

namespace CommandClient

/-- The client after `login` of the user, with the value that `m_mediaType` happens to have. -/
def init (currentUser : QString) (mediaType : UInt32) : CommandClient :=
  { currentUser, fromUser := [], toUser := [], mediaType, uuid := [], mediainfo := [],
    remotesdp := [], turnList := [], sent := [], emitted := [] }

/-- Hand a message to `addSendTask`. -/
def send (c : CommandClient) (msg : ClientMessage) : CommandClient :=
  { c with sent := c.sent ++ [msg] }

/-- Emit a signal. -/
def emit (c : CommandClient) (sig : ClientSignal) : CommandClient :=
  { c with emitted := c.emitted ++ [sig] }

/-! ### Requests and responses -/

/-- The text of a relay in `m_turnList`. -/
def turnText (relay : TurnRelay) : QString :=
  QString.arg (QString.arg "%1:%2".toList relay.addr) (CText.printNat relay.port.toNat)

/-- `CommandClient::parseRequest`. -/
def parseRequest (c : CommandClient) (request : InviteReq) : CommandClient :=
  { c with
    fromUser := request.fromUser
    toUser := request.toUser
    mediaType := request.media
    mediainfo := request.mediaInfo
    uuid := request.suuid
    remotesdp := request.mediaAddrs
    turnList := request.turnaddr.map turnText }

/-- The relay that `genReponse` reads off a text of `m_turnList`. -/
def turnRelay (text : QString) : TurnRelay :=
  let turnaddr := QString.split text ':'
  { addr := turnaddr.getD 0 []
    port := UInt32.ofNat (QString.toShort (turnaddr.getD 1 []) % 4294967296).toNat }

/-- `CommandClient::genReponse`. Its argument `uuid` is not used. -/
def genReponse (c : CommandClient) (_uuid : QString) (code : InviteCodeType) (sdp : QString) :
    InviteResp :=
  -- The members hold the request that was parsed last.
  { request :=
      { fromUser := c.fromUser
        toUser := c.toUser
        suuid := c.uuid
        mediaAddrs := sdp
        media := c.mediaType
        mediaInfo := c.mediainfo
        turnaddr := c.turnList.map turnRelay }
    code := code.value }

/-- A response to the server. -/
def respond (c : CommandClient) (uuid : QString) (code : InviteCodeType) (sdp : QString) :
    CommandClient :=
  c.send (.inviteResp (c.genReponse uuid code sdp))

/-- `CommandClient::ring`. -/
def ring (c : CommandClient) (uuid sdp : QString) : CommandClient := c.respond uuid .ring sdp

/-- `CommandClient::accept`. -/
def accept (c : CommandClient) (uuid sdp : QString) : CommandClient := c.respond uuid .accept sdp

/-- `CommandClient::reject`. -/
def reject (c : CommandClient) (uuid : QString) : CommandClient := c.respond uuid .reject []

/-- `CommandClient::sendInvite`. It sets `m_from` and `m_to`, and no other member. -/
def sendInvite (c : CommandClient) (uuid toUser mediainfo sdp : QString) : CommandClient :=
  let c := { c with fromUser := c.currentUser, toUser }
  c.send (.invite
    { fromUser := c.fromUser, toUser := c.toUser, suuid := uuid, mediaAddrs := sdp,
      media := mediaTypeFile, mediaInfo := mediainfo, turnaddr := [] })

/-- `CommandClient::invite`. Its argument `mediaType` is not used. -/
def invite (c : CommandClient) (uuid touser : QString) (_mediaType : Int)
    (sdp mediaInfo : QString) :
    CommandClient :=
  c.sendInvite uuid touser mediaInfo sdp

/-! ### What the server sends -/

/-- `CommandClient::onRecvInvite`. -/
def onRecvInvite (c : CommandClient) (request : InviteReq) : CommandClient :=
  let c := c.parseRequest request
  c.emit (.onInvite c.fromUser c.mediainfo c.uuid c.remotesdp)

/-- `CommandClient::onRecvRing`. -/
def onRecvRing (c : CommandClient) (request : InviteReq) : CommandClient :=
  let c := c.parseRequest request
  c.emit (.onRing c.uuid c.fromUser c.remotesdp)

/-- `CommandClient::onRecvAccept`. -/
def onRecvAccept (c : CommandClient) (request : InviteReq) : CommandClient :=
  (c.parseRequest request).emit (.onAccept request.suuid request.fromUser)

/-- `CommandClient::onRecvReject`: the program is not told. -/
def onRecvReject (c : CommandClient) (_request : InviteReq) : CommandClient := c

/-- `CommandClient::onRecvInviteResp`. -/
def onRecvInviteResp (c : CommandClient) (info : InviteResp) : CommandClient :=
  if info.code = InviteCodeType.notFound.value then c.emit (.onNotFound info.request.suuid)
  else if info.code = InviteCodeType.ring.value then c.onRecvRing info.request
  else if info.code = InviteCodeType.accept.value then c.onRecvAccept info.request
  else if info.code = InviteCodeType.reject.value then c.onRecvReject info.request
  else c

/-! ### The step function -/

/-- A message of the server, or a call of the program. -/
inductive ClientAction
  | recvInvite (request : InviteReq)
  | recvInviteResp (info : InviteResp)
  | invite (uuid touser : QString) (mediaType : Int) (sdp mediaInfo : QString)
  | ring (uuid sdp : QString)
  | accept (uuid sdp : QString)
  | reject (uuid : QString)
  deriving DecidableEq, Repr

/-- The step function. Every action is enabled in every state. -/
def step (c : CommandClient) : ClientAction → CommandClient
  | .recvInvite request => c.onRecvInvite request
  | .recvInviteResp info => c.onRecvInviteResp info
  | .invite uuid touser mediaType sdp mediaInfo => c.invite uuid touser mediaType sdp mediaInfo
  | .ring uuid sdp => c.ring uuid sdp
  | .accept uuid sdp => c.accept uuid sdp
  | .reject uuid => c.reject uuid

/-- The client after a list of actions. -/
def after (c : CommandClient) (as : List ClientAction) : CommandClient := as.foldl step c

end CommandClient

end EChannel.Signalling
