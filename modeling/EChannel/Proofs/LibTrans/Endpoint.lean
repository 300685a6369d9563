import EChannel.LibTrans.Peers
import EChannel.Proofs.LibTrans.Registry
import EChannel.Proofs.LibTrans.Steps

/-!
# `EChannel.Proofs.LibTrans.Endpoint`: the steps of an endpoint

`EndStep` is the inversion of `System.endStep`, and `utpProcessUdp_cases` that of
`utp_process_udp`. No endpoint destroys a socket, so an address that has one keeps one
(`Accepted`).
-/

set_option autoImplicit false

namespace EChannel.LibTrans

open LibUtp

/-! ### The steps of an endpoint -/

/-- The steps of an endpoint, one constructor for each kind. -/
inductive EndStep (y : System) (peer : QString) : EndAction → System → Prop
  | onICENego (isRelay : Bool) :
    EndStep y peer (.onICENego isRelay)
      { y with main := y.main.onICENego 0 true isRelay peer }
  | write (data : QByteArray) :
    EndStep y peer (.write data) { y with main := y.main.write 0 data }
  | mainSlot (sig : UtpSignal) (rest : List UtpSignal) (hout : y.utp.outbox = sig :: rest) :
    EndStep y peer .mainSlot { main := y.main.slot sig, utp := { y.utp with outbox := rest } }
  | utpSlot (req : UtpRequest) (rest : List UtpRequest) (seed : Nat) (o o' : Oracle)
    (u : UtpHandle) (hout : y.main.outbox = req :: rest)
    (hu : y.utp.step (System.utpAction req seed o) = some u)
    (hreq : ∀ peerAddr pkt, req ≠ .parse peerAddr pkt) :
    EndStep y peer (.utpSlot seed o o') { main := { y.main with outbox := rest }, utp := u }
  | processRecv (peerAddr : QString) (pkt : Packet) (rest : List UtpRequest) (seed : Nat)
    (o o' : Oracle) (hout : y.main.outbox = .parse peerAddr pkt :: rest) :
    EndStep y peer (.utpSlot seed o o')
      { main := { y.main with outbox := rest }
        utp := (y.utp.processWrite o).utpProcessUdp peerAddr pkt o' }
  | send (a : EndAction) (s : SockId) (sock : UTPSocket) (pkt : Packet)
    (hs : y.utp.sockets s = some sock)
    (hpkt : UtpHandle.timerPacket sock = some pkt ∨ ∃ bytes, pkt = .other bytes) :
    EndStep y peer a { y with utp := y.utp.emit (.reqUDPSend sock.addr pkt) }
  | read (s : SockId) (buf : QByteArray) (u : UtpHandle)
    (hu : y.utp.step (.event (.read s buf) []) = some u) :
    EndStep y peer (.read s buf) { y with utp := u }
  | writable (s : SockId) (o : Oracle) (u : UtpHandle)
    (hu : y.utp.step (.event (.writable s) o) = some u) :
    EndStep y peer (.writable s o) { y with utp := u }

namespace System

/-- A packet of a socket, as a step. -/
theorem sendFrom_cases {y y' : System} {s : SockId} {packet : UTPSocket → Option Packet}
    (h : y.sendFrom s packet = some y') :
    ∃ sock pkt, y.utp.sockets s = some sock ∧ packet sock = some pkt ∧
      y' = { y with utp := y.utp.emit (.reqUDPSend sock.addr pkt) } := by
  unfold sendFrom at h
  cases hs : y.utp.sockets s with
  | none => simp [hs] at h
  | some sock =>
    cases hp : packet sock with
    | none => simp [hs, hp] at h
    | some pkt =>
      simp only [hs, hp, System.step, stepUtp, UtpHandle.step, UtpHandle.onEvent] at h
      cases h
      exact ⟨sock, pkt, rfl, hp, rfl⟩

/-- What a step of an end does, one constructor for each kind. -/
theorem endStep_cases {y y' : System} {peer : QString} {a : EndAction}
    (h : y.endStep peer a = some y') : EndStep y peer a y' := by
  cases a with
  | onICENego isRelay => cases h; exact .onICENego isRelay
  | write data => cases h; exact .write data
  | mainSlot =>
    simp only [endStep] at h
    cases System.step_cases h with
    | mainSlot sig rest hout => exact .mainSlot sig rest hout
  | utpSlot seed o o' =>
    simp only [endStep, recvSlot] at h
    split at h
    · -- A packet for the library is processed in the slot itself.
      rename_i peerAddr pkt rest hout
      simp only [System.step, hout, stepUtp, utpAction, UtpHandle.step] at h
      cases h
      exact .processRecv peerAddr pkt rest seed o o' hout
    · rename_i hne
      cases System.step_cases h with
      | utpSlot req rest seed o u hout hu =>
        refine .utpSlot req rest seed o o' u hout hu fun peerAddr pkt heq => ?_
        exact hne peerAddr pkt rest (heq ▸ hout)
  | timer s =>
    obtain ⟨sock, pkt, hs, hp, rfl⟩ := sendFrom_cases h
    exact .send _ s sock pkt hs (Or.inl hp)
  | data s bytes =>
    obtain ⟨sock, pkt, hs, hp, rfl⟩ := sendFrom_cases h
    refine .send _ s sock pkt hs (Or.inr ⟨bytes, ?_⟩)
    split at hp
    · exact (Option.some.inj hp).symm
    · cases hp
  | read s buf =>
    simp only [endStep] at h
    cases System.step_cases h with
    | utpEvent e o u hu => exact .read s buf u hu
  | writable s o =>
    simp only [endStep] at h
    cases System.step_cases h with
    | utpEvent e o u hu => exact .writable s o u hu

end System

namespace UtpHandle

/-- What libutp makes of a datagram: nothing, an accepted socket or a connected one. -/
theorem utpProcessUdp_cases (st : UtpHandle) (peerAddr : QString) (pkt : Packet) (o : Oracle) :
    st.utpProcessUdp peerAddr pkt o = st ∨
      (∃ connid, pkt = .syn connid ∧ st.step (.event (.accept peerAddr connid) o) =
        some (st.utpProcessUdp peerAddr pkt o)) ∨
      ∃ connid s, pkt = .state connid ∧ st.step (.event (.connect s) o) =
        some (st.utpProcessUdp peerAddr pkt o) := by
  have hreport : ∀ e, st.report e o = st ∨ st.step (.event e o) = some (st.report e o) := by
    intro e
    unfold report
    cases hs : st.step (.event e o) with
    | none => exact Or.inl rfl
    | some st' => exact Or.inr rfl
  cases pkt with
  | syn connid =>
    exact (hreport _).imp id fun h => Or.inl ⟨connid, rfl, h⟩
  | state connid =>
    cases hf : st.findSocket peerAddr connid with
    | none => exact Or.inl (by simp only [utpProcessUdp, hf])
    | some s =>
      simp only [utpProcessUdp, hf]
      exact (hreport _).imp id fun h => Or.inr ⟨connid, s, rfl, h⟩
  | other bytes => exact Or.inl rfl

/-- A connected socket sends a `ST_STATE`. -/
theorem timerPacket_of_isConnected {sock : UTPSocket} (h : sock.isConnected = true) :
    timerPacket sock = some (.state sock.connIdSend) := by
  unfold UTPSocket.isConnected at h
  unfold timerPacket
  split at h
  · simp [*]
  · simp [*]
  · cases h

end UtpHandle

/-- A packet that an accepting endpoint can have sent: a `ST_STATE` only when it has a
socket. -/
def Allowed (accepted : Prop) : Packet → Prop
  | .syn _ => False
  | .state _ => accepted
  | .other _ => True

/-- A packet stays allowed when its condition stays true. -/
theorem Allowed.mono {A A' : Prop} (hA : A → A') {pkt : Packet} (h : Allowed A pkt) :
    Allowed A' pkt := by
  cases pkt with
  | syn connid => exact h
  | state connid => exact hA h
  | other bytes => trivial

open UTPManager UtpHandle

/-! ### The socket of an address -/

/-- The endpoint has a socket for the address. -/
def Accepted (addr : QString) (u : UtpHandle) : Prop := ∃ s, u.utpSocketsAddr.lookup addr = some s

/-- No step of an endpoint takes a socket out of the map. -/
theorem Accepted.base {addr : QString} {st mid : UtpHandle} {a : UtpAction}
    (h : Accepted addr st) (hmid : BaseStep st a mid)
    (hne : ∀ s o, a ≠ .event (.destroying s) o) : Accepted addr mid := by
  obtain ⟨s, hs⟩ := h
  have hinsert : ∀ peerAddr s', ∃ s'',
      (st.utpSocketsAddr.insert peerAddr s').lookup addr = some s'' := by
    intro peerAddr s'
    rw [QHash.lookup_insert_eq]
    split
    · exact ⟨s', rfl⟩
    · exact ⟨s, hs⟩
  cases hmid with
  | connectToPeer peerAddr connectID seed hcolon hfree => exact hinsert peerAddr st.nextSock
  | setAcceptConnID peerAddr connectID =>
    exact setAcceptConnID_rule ⟨s, hs⟩ fun _ _ _ _ => ⟨s, hs⟩
  | onCloseSocket peerAddr connectID =>
    exact onCloseSocket_rule ⟨s, hs⟩ fun _ => utpClose_rule (fun _ => ⟨s, hs⟩) fun _ _ => ⟨s, hs⟩
  | accept peerAddr connid o hcolon hfree => exact hinsert peerAddr st.nextSock
  | destroying s' sock o hs' hstate => exact absurd rfl (hne s' o)
  | _ => exact ⟨s, hs⟩

/-- The loop over the write queue accepts and removes no socket. -/
theorem Accepted.wrote {addr : QString} {st st' : UtpHandle} (h : Accepted addr st)
    (hw : Wrote st st') : Accepted addr st' := by
  obtain ⟨s, hs⟩ := h
  exact ⟨s, hw.utpSocketsAddr ▸ hs⟩

/-- An accepted socket stays until it is destroyed. -/
theorem Accepted.step {addr : QString} {st st' : UtpHandle} {a : UtpAction}
    (h : Accepted addr st) (hu : st.step a = some st')
    (hne : ∀ s o, a ≠ .event (.destroying s) o) : Accepted addr st' := by
  obtain ⟨mid, hmid, rfl⟩ := step_base hu
  exact (h.base hmid hne).wrote (endStep_wrote mid a)

/-- An accepted socket stays in every step of an end, since an end destroys none. -/
theorem Accepted.endStep {addr peer : QString} {y y' : System} {a : EndAction}
    (h : Accepted addr y.utp) (hstep : y.endStep peer a = some y') : Accepted addr y'.utp := by
  cases System.endStep_cases hstep with
  | onICENego isRelay => exact h
  | write data => exact h
  | mainSlot sig rest hout => exact h
  | utpSlot req rest seed o o' u hout hu hreq =>
    refine h.step hu fun s o heq => ?_
    cases req <;> cases heq
  | processRecv peerAddr pkt rest seed o o' hout =>
    have hw := h.wrote (processWrite_wrote y.utp o)
    rcases utpProcessUdp_cases (y.utp.processWrite o) peerAddr pkt o' with
      heq | ⟨connid, -, hu⟩ | ⟨connid, s, -, hu⟩
    · dsimp only
      rw [heq]
      exact hw
    · exact hw.step hu fun _ _ => by simp
    · exact hw.step hu fun _ _ => by simp
  | send a s sock pkt hs hpkt => exact h
  | read s buf u hu => exact h.step hu fun _ _ => by simp
  | writable s o u hu => exact h.step hu fun _ _ => by simp

/-- A datagram goes out for a `reqUDPSend` only. -/
theorem UTPManager.slot_iceOut (m : UTPManager) (sig : UtpSignal) :
    (m.slot sig).iceOut = m.iceOut ∨
      ∃ a pkt c, sig = .reqUDPSend a pkt ∧ (m.slot sig).iceOut = m.iceOut ++ [(c, pkt)] := by
  have hsuccess : ∀ (m : UTPManager) c a, (m.connectSuccess c a).iceOut = m.iceOut := by
    intro m c a
    simp only [UTPManager.connectSuccess]
    split
    · rfl
    · split <;> rfl
  generalize hm : m.slot sig = m'
  cases slot_cases hm with
  | reqUDPSend peerAddr pkt c hl => exact Or.inr ⟨peerAddr, pkt, c, rfl, rfl⟩
  | utpAccept peerAddr c hl => exact Or.inl (hsuccess _ c peerAddr)
  | utpConnected connectID c hl => exact Or.inl (hsuccess _ c _)
  | _ => exact Or.inl rfl

end EChannel.LibTrans
