import EChannel.Support.Inet

/-!
# `EChannel.LibUtp.PackedSockAddr`: the address of a peer inside libutp

libutp keeps the address of a socket as a `PackedSockAddr`
(`libutp/src/utp_packedsockaddr.cpp`): 16 bytes, in which an IPv4 address is mapped, and the
port in host byte order. `utp_connect` and `utp_process_udp` pack the address they are given, and
`send_to_addr` unpacks it for `callback_sendto`.
-/

set_option autoImplicit false

namespace EChannel.LibUtp

open Inet

/-- `sockaddr_in`. Both fields are in network byte order. -/
structure SockaddrIn where
  sAddr : UInt32
  sinPort : UInt16
  deriving DecidableEq, Repr

/-- `in6_addr`: the words before the last 4 bytes, and those bytes. -/
structure In6Addr where
  words : Vector UInt16 6
  sin4 : UInt32
  deriving DecidableEq, Repr

/-- `SOCKADDR_STORAGE`, by its family. -/
inductive SockaddrStorage
  | inet (sin : SockaddrIn)
  | inet6 (addr : In6Addr) (sin6Port : UInt16)
  deriving DecidableEq, Repr

/-- `PackedSockAddr`. -/
structure PackedSockAddr where
  addr : In6Addr
  port : UInt16
  deriving DecidableEq, Repr

namespace PackedSockAddr

/-- The words of an IPv4-mapped address. -/
def mappedWords : Vector UInt16 6 := #v[0, 0, 0, 0, 0, 0xffff]

/-- `PackedSockAddr::set`. -/
def set : SockaddrStorage → PackedSockAddr
  | .inet sin => { addr := ⟨mappedWords, sin.sAddr⟩, port := ntohs sin.sinPort }
  | .inet6 addr sin6Port => { addr, port := ntohs sin6Port }

/-- `PackedSockAddr::get_family` is `AF_INET`. -/
def isInet (p : PackedSockAddr) : Bool := decide (p.addr.words = mappedWords)

/-- `PackedSockAddr::get_sockaddr_storage`. -/
def getSockaddrStorage (p : PackedSockAddr) : SockaddrStorage :=
  if p.isInet then .inet { sAddr := p.addr.sin4, sinPort := htons p.port }
  else .inet6 p.addr (htons p.port)

/-- An IPv4 address comes out as it went in. -/
theorem getSockaddrStorage_set (sin : SockaddrIn) :
    (set (.inet sin)).getSockaddrStorage = .inet sin := by
  have hfamily : (set (.inet sin)).isInet = true := decide_eq_true rfl
  have hport : htons (ntohs sin.sinPort) = sin.sinPort := ntohs_htons sin.sinPort
  rw [getSockaddrStorage, if_pos hfamily]
  show SockaddrStorage.inet { sAddr := sin.sAddr, sinPort := htons (ntohs sin.sinPort) } = _
  rw [hport]

end PackedSockAddr

end EChannel.LibUtp
