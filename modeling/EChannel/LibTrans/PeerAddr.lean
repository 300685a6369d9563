import EChannel.LibTrans.ImpPjIce
import EChannel.LibUtp.PackedSockAddr
import EChannel.Support.QtText

/-!
# `EChannel.LibTrans.PeerAddr`: the address of a peer as a key

The maps of `UTPManager` and `UtpHandle` have the address of a peer as their key, as text. The
text is made in two places and read in two. pjlib prints the address of the negotiated pair
(`cbOnIceComplete`) and of a datagram (`cbOnRxData`, both in `libTrans/src/imppjice.cpp`).
`connectToPeer` and `processRecv` (`libTrans/src/utphandle.cpp`) read it into a `sockaddr_in` for
libutp, and `callback_sendto` and `callback_on_accept` print what libutp hands back.

The other modules take the key for the address itself.
-/

set_option autoImplicit false

namespace EChannel.LibTrans

open CText Inet LibUtp

/-! ### pjlib -/

/-- `pj_sockaddr_print` with the flags 3, for the port and for the brackets of IPv6, into a buffer
of `size` bytes. -/
def pjSockaddrPrint (pj : PjSock) (size : Nat) (addr : PjSockaddr) : List Char :=
  let text :=
    match addr.addr with
    | .ipv4 _ _ _ _ => pj.print addr.addr ++ ':' :: printNat addr.port.toNat
    | .ipv6 _ => '[' :: pj.print addr.addr ++ ']' :: ':' :: printNat addr.port.toNat
  text.take (size - 1)

/-- `PJ_INET6_ADDRSTRLEN`. -/
def inet6Addrstrlen : Nat := 46

/-- The address that `cbOnIceComplete` reports for the remote candidate of the valid pair. -/
def negoAddress (pj : PjSock) (rcand : PjSockaddr) : QString :=
  pjSockaddrPrint pj inet6Addrstrlen rcand

/-- The address that `cbOnRxData` reports for a datagram. -/
def rxAddress (pj : PjSock) (srcAddr : PjSockaddr) : QString :=
  pjSockaddrPrint pj (inet6Addrstrlen + 10) srcAddr

/-! ### `UtpHandle` -/

namespace UtpHandle

/-- The `sockaddr_in` that is read from an address. Without a colon `ipport[1]` is out of range.
`inet_addr` is given a C string, and the port is an `unsigned short`. -/
def peerSockaddr (peerAddr : QString) : Option SockaddrStorage :=
  match QString.split peerAddr ':' with
  | ip :: port :: _ =>
    some (.inet
      { sAddr := inetAddr (CString.ofBuf ip).chars
        sinPort := htons (UInt16.ofNat (QString.toInt port % 65536).toNat) })
  | _ => none

/-- The address that `connectToPeer` gives to `utp_connect`. -/
def connectToPeerAddress (peerAddr : QString) : Option SockaddrStorage := peerSockaddr peerAddr

/-- The address that `processRecv` gives to `utp_process_udp`. -/
def processRecvAddress (peerAddr : QString) : Option SockaddrStorage := peerSockaddr peerAddr

/-- `(struct sockaddr_in *) a->address`. An IPv6 address has its flow label, which libutp sets
to 0, where an IPv4 address has its bytes. -/
def sockaddrIn : SockaddrStorage → SockaddrIn
  | .inet sin => sin
  | .inet6 _ sin6Port => { sAddr := 0, sinPort := sin6Port }

/-- The key that both callbacks make of an address. -/
def peerKey (sin : SockaddrIn) : QString :=
  QString.arg (QString.arg "%1:%2".toList (inetNtoa sin.sAddr)) (printNat (ntohs sin.sinPort).toNat)

/-- The key of `callback_sendto`. It is empty for a null pointer. -/
def callbackSendtoKey : Option SockaddrStorage → QString
  | some address => peerKey (sockaddrIn address)
  | none => []

/-- The key of `callback_on_accept`. -/
def callbackOnAcceptKey (address : SockaddrStorage) : QString := peerKey (sockaddrIn address)

/-- The address that libutp sends a packet to, for a socket or a datagram of `address`. -/
def sendToAddr (address : SockaddrStorage) : SockaddrStorage :=
  (PackedSockAddr.set address).getSockaddrStorage

end UtpHandle

end EChannel.LibTrans
