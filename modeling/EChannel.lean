import EChannel.Proofs.LibTrans.Receive
import EChannel.Proofs.LibTrans.Send
import EChannel.Proofs.LibTrans.Agreement
import EChannel.Proofs.LibTrans.Blocking
import EChannel.Proofs.LibTrans.Isolation
import EChannel.Proofs.Signalling.Framing
import EChannel.Proofs.LibTrans.SdpSafety
import EChannel.Proofs.LibTrans.SdpEncoding
import EChannel.Proofs.LibTrans.SdpAcceptance
import EChannel.Proofs.LibTrans.IceLifetime
import EChannel.Proofs.LibTrans.IceStartup
import EChannel.Proofs.LibTrans.NegoStart
import EChannel.Proofs.LibTrans.DeadChannels
import EChannel.Proofs.LibTrans.ChannelKeys
import EChannel.Proofs.LibTrans.CloseOrder
import EChannel.Proofs.LibTrans.SessionErrors
import EChannel.Proofs.LibRdp.Viewers
import EChannel.Proofs.LibRdp.Relay
import EChannel.Proofs.Signalling.InviteCalls
import EChannel.Proofs.Signalling.Base64Decoding
import EChannel.Proofs.Signalling.TurnEcho
import EChannel.Proofs.App.FileSending
import EChannel.Proofs.App.FileReceiving
import EChannel.Proofs.App.CallRoles
import EChannel.Proofs.Signalling.Base64Bounds
import EChannel.Proofs.LibTrans.TurnCredentials
import EChannel.Proofs.LibTrans.TimeoutGuard
import EChannel.Proofs.LibTrans.PeerKeys
import EChannel.Proofs.LibUtp.Delivery
import EChannel.Proofs.LibUtp.AckLists
import EChannel.Proofs.PjLib.Timers
