import EChannel.LibTrans.PeerAddr
import EChannel.LibTrans.UtpManager

/-!
# `EChannel.Proofs.LibTrans.PeerKeys`: the keys of a peer agree

For each IPv4 address and port there is one text, `canonicalKey`. pjlib prints it, both readers
read it (`peerSockaddr_canonicalKey`), and both callbacks print it again (`peerKey_eq`). So a
channel that is registered under the negotiated address is found for the packets of that address,
and for no others (`canonicalKey_inj`).
-/

set_option autoImplicit false

namespace EChannel.LibTrans

open CText Inet LibUtp

namespace UtpHandle

/-- An address and a port as text. -/
def canonicalKey (a b c d : UInt8) (port : UInt16) : QString :=
  dotted a b c d ++ ':' :: printNat port.toNat

section
variable (a b c d : UInt8) (port : UInt16)

/-! ### Reading and printing -/

/-- The sockaddr of an address and a port. -/
def sockaddrOf : SockaddrIn := { sAddr := ofBytes a b c d, sinPort := htons port }

/-- Both readers. -/
theorem peerSockaddr_canonicalKey :
    peerSockaddr (canonicalKey a b c d port) = some (.inet (sockaddrOf a b c d port)) := by
  have hcolon : ':' ∉ dotted a b c d := notMem_dotted a b c d (by decide) (by decide)
  have hcolon' : ':' ∉ printNat port.toNat := fun h =>
    absurd (printNat_isDigit _ ':' h) (by decide)
  have hsplit : QString.split (canonicalKey a b c d port) ':' =
      [dotted a b c d, printNat port.toNat] := by
    rw [QString.split, canonicalKey, List.splitOn_append_cons_self_of_not_mem hcolon,
      List.splitOn_eq_singleton hcolon']
  have hip : (CString.ofBuf (dotted a b c d)).chars = dotted a b c d :=
    CString.ofBuf_chars_of_noNul (notMem_dotted a b c d (by decide) (by decide))
  have hlt := port.toNat_lt
  have hport : UInt16.ofNat (QString.toInt (printNat port.toNat) % 65536).toNat = port := by
    rw [QString.toInt_printNat (by omega), show ((port.toNat : Int) % 65536).toNat = port.toNat by
      omega, UInt16.ofNat_toNat]
  rw [peerSockaddr, hsplit]
  dsimp only
  rw [hip, hport, inetAddr_dotted, sockaddrOf]

/-- Both callbacks. -/
theorem peerKey_sockaddrOf :
    peerKey (sockaddrOf a b c d port) = canonicalKey a b c d port := by
  have hpercent : '%' ∉ dotted a b c d := notMem_dotted a b c d (by decide) (by decide)
  show QString.arg (QString.arg _ (inetNtoa (ofBytes a b c d)))
    (printNat (ntohs (htons port)).toNat) = _
  rw [inetNtoa_ofBytes, ntohs_htons, QString.arg_addr_port hpercent]
  rfl

/-- Different addresses or ports have different keys. -/
theorem canonicalKey_inj {a' b' c' d' : UInt8} {port' : UInt16}
    (h : canonicalKey a b c d port = canonicalKey a' b' c' d' port') :
    (a = a' ∧ b = b' ∧ c = c' ∧ d = d') ∧ port = port' := by
  have hread : sockaddrOf a b c d port = sockaddrOf a' b' c' d' port' := by
    have hsome := peerSockaddr_canonicalKey a b c d port
    rw [h, peerSockaddr_canonicalKey] at hsome
    exact (SockaddrStorage.inet.inj (Option.some.inj hsome)).symm
  refine ⟨ofBytes_inj _ _ _ _ (congrArg SockaddrIn.sAddr hread), ?_⟩
  have hport : htons port = htons port' := congrArg SockaddrIn.sinPort hread
  rw [← ntohs_htons port, hport, ntohs_htons]

/-- The key of an address has 21 characters at most, so it fits the buffers. -/
theorem length_canonicalKey : (canonicalKey a b c d port).length ≤ 21 := by
  have hport : (printNat port.toNat).length < 6 :=
    length_printNat_lt (k := 5) (Nat.lt_of_lt_of_le port.toNat_lt (by decide)) (by decide)
  have hip := length_dotted a b c d
  simp only [canonicalKey, List.length_append, List.length_cons]
  omega

end

/-- pjlib prints an IPv4 address in dotted decimal notation. -/
def PrintsDotted (pj : PjSock) : Prop := ∀ a b c d, pj.print (.ipv4 a b c d) = dotted a b c d

/-- Both addresses that pjlib prints. -/
theorem PrintsDotted.pjSockaddrPrint {pj : PjSock} (hpj : PrintsDotted pj) {size : Nat}
    (hsize : 22 ≤ size) (a b c d : UInt8) (port : UInt16) :
    pjSockaddrPrint pj size ⟨.ipv4 a b c d, port⟩ = canonicalKey a b c d port := by
  have hlen := length_canonicalKey a b c d port
  show (pj.print (.ipv4 a b c d) ++ ':' :: printNat port.toNat).take (size - 1) = _
  rw [hpj a b c d]
  exact List.take_of_length_le (show (canonicalKey a b c d port).length ≤ size - 1 by omega)

/-! ### Channels -/

/-- The channel of an address is found for a packet that libutp sends there. -/
theorem onUtpReqSend_of_lookup {m : UTPManager} {ch : ChanId} {key : QString}
    (h : m.hashChannels.lookup key = some ch) (pkt : Packet) :
    m.onUtpReqSend key pkt = { m with iceOut := m.iceOut ++ [(ch, pkt)] } := by
  rw [UTPManager.onUtpReqSend, h]

/-- The channel of an address is found for a connection that libutp accepts from there. -/
theorem onUtpAccept_of_lookup {m : UTPManager} {ch : ChanId} {key : QString}
    (h : m.hashChannels.lookup key = some ch) :
    m.onUtpAccept key =
      (m.request (.setAcceptConnID key (m.channels ch).utpConnectID)).connectSuccess
      ch key := by
  rw [UTPManager.onUtpAccept, h]

/-- The keys of an address that is printed by pjlib, read by both readers, packed by libutp and
printed by both callbacks are the same, and the keys of different addresses are different. A
channel that is registered under the negotiated address gets every packet that libutp sends there,
and every connection that it accepts from there. -/
theorem peer_keys_agree (pj : PjSock) (hpj : PrintsDotted pj) :
    (∀ (a b c d : UInt8) (port : UInt16),
      negoAddress pj ⟨.ipv4 a b c d, port⟩ = canonicalKey a b c d port ∧
      rxAddress pj ⟨.ipv4 a b c d, port⟩ = canonicalKey a b c d port ∧
      ∃ address, connectToPeerAddress (canonicalKey a b c d port) = some address ∧
        processRecvAddress (canonicalKey a b c d port) = some address ∧
        callbackSendtoKey (some address) = canonicalKey a b c d port ∧
        callbackOnAcceptKey address = canonicalKey a b c d port) ∧
    (∀ (a b c d a' b' c' d' : UInt8) (port port' : UInt16),
      canonicalKey a b c d port = canonicalKey a' b' c' d' port' →
      (a = a' ∧ b = b' ∧ c = c' ∧ d = d') ∧ port = port') ∧
    ∀ (m : UTPManager) (ch : ChanId) (a b c d : UInt8) (port : UInt16)
      (address : SockaddrStorage),
      m.hashChannels.lookup (negoAddress pj ⟨.ipv4 a b c d, port⟩) = some ch →
      (connectToPeerAddress (negoAddress pj ⟨.ipv4 a b c d, port⟩) = some address ∨
        processRecvAddress (rxAddress pj ⟨.ipv4 a b c d, port⟩) = some address) →
      (∀ pkt, m.onUtpReqSend (callbackSendtoKey (some (sendToAddr address))) pkt =
        { m with iceOut := m.iceOut ++ [(ch, pkt)] }) ∧
      m.onUtpAccept (callbackOnAcceptKey address) =
        (m.request (.setAcceptConnID (negoAddress pj ⟨.ipv4 a b c d, port⟩)
          (m.channels ch).utpConnectID)).connectSuccess ch
            (negoAddress pj ⟨.ipv4 a b c d, port⟩) := by
  have hnego : ∀ a b c d port,
      negoAddress pj ⟨.ipv4 a b c d, port⟩ = canonicalKey a b c d port := fun a b c d port =>
    hpj.pjSockaddrPrint (by decide) a b c d port
  have hrx : ∀ a b c d port,
      rxAddress pj ⟨.ipv4 a b c d, port⟩ = canonicalKey a b c d port := fun a b c d port =>
    hpj.pjSockaddrPrint (by decide) a b c d port
  refine ⟨fun a b c d port => ?_, fun a b c d a' b' c' d' port port' h =>
    canonicalKey_inj a b c d port h, ?_⟩
  · have hread := peerSockaddr_canonicalKey a b c d port
    have hkey := peerKey_sockaddrOf a b c d port
    exact ⟨hnego a b c d port, hrx a b c d port, _, hread, hread, hkey, hkey⟩
  · intro m ch a b c d port address hlookup haddress
    rw [hnego] at hlookup haddress ⊢
    rw [hrx] at haddress
    -- Both readers have read the same address.
    have hread : address = .inet (sockaddrOf a b c d port) := by
      rcases haddress with h | h
      · exact Option.some.inj (h.symm.trans (peerSockaddr_canonicalKey a b c d port))
      · exact Option.some.inj (h.symm.trans (peerSockaddr_canonicalKey a b c d port))
    have hpacked : sendToAddr address = address := by
      rw [hread]
      exact PackedSockAddr.getSockaddrStorage_set _
    have hkey : callbackOnAcceptKey address = canonicalKey a b c d port := by
      rw [hread]
      exact peerKey_sockaddrOf a b c d port
    have hsendto : callbackSendtoKey (some (sendToAddr address)) = canonicalKey a b c d port := by
      rw [hpacked]
      exact hkey
    rw [hsendto, hkey]
    exact ⟨fun pkt => onUtpReqSend_of_lookup hlookup pkt, onUtpAccept_of_lookup hlookup⟩

/-- A channel that is registered at 10.0.0.1:3478. -/
theorem peer_keys_agree_registered :
    ((UTPManager.init fun _ => TransportChannel.new true 0).createUtpSocket
        "10.0.0.1:3478".toList 5).1.hashChannels.lookup
      (callbackSendtoKey (connectToPeerAddress "10.0.0.1:3478".toList)) = some 5 := by
  have hpj : PrintsDotted
      { print := fun addr => addr.casesOn dotted fun _ => []
        setStrAddr := fun _ _ => none } := fun _ _ _ _ => rfl
  obtain ⟨-, -, address, hread, -, hkey, -⟩ := (peer_keys_agree _ hpj).1 10 0 0 1 3478
  have htext : canonicalKey 10 0 0 1 3478 = "10.0.0.1:3478".toList := by decide
  rw [htext] at hread hkey
  rw [hread, hkey]
  rfl

end UtpHandle

end EChannel.LibTrans
