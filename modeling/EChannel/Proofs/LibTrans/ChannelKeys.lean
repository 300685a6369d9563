import EChannel.Proofs.LibTrans.Closing
import EChannel.Proofs.LibTrans.SocketMaps
import Mathlib.Data.List.Forall2

/-!
# `EChannel.Proofs.LibTrans.ChannelKeys`: the keys of a channel and the sockets of another

A channel has no pointer to its socket. `close` sends the address and the id of the channel to
the uTP thread, where `onCloseSocket` looks for a socket under the id, and then under the
address. In the other direction `onUtpError` gets an address and an id, and removes the entries
of both. Neither message says which channel it is about, and the keys can be those of another
channel. `m_utpConnectID` is not initialised, and a channel that has not negotiated sends
whatever it holds. Two channels can have one address.

To say whose message is handled, `Traced` adds two lists to the system. `closers` has the
channels of the close requests on their way, each with whether it had negotiated, and `dying`
the sockets of the `utpError` signals on their way. No branch reads them.

`isolated_of_keysApart` is the result. A run is isolated when its negotiated channels have
addresses of their own, and the close request of a channel without a negotiation finds no
socket.
-/

set_option autoImplicit false

namespace EChannel.LibTrans

open LibUtp UTPManager UtpHandle

/-! ### The messages and who they are about -/

/-- The keys in a close request. -/
def UtpRequest.closeKeys? : UtpRequest → Option (QString × Int)
  | .close peerAddr connectID => some (peerAddr, connectID)
  | _ => none

/-- The keys in an error signal. -/
def UtpSignal.errorKeys? : UtpSignal → Option (QString × Int)
  | .utpError peerAddr connectID => some (peerAddr, connectID)
  | _ => none

/-- The close requests of a queue. -/
def closeKeys (reqs : List UtpRequest) : List (QString × Int) :=
  reqs.filterMap UtpRequest.closeKeys?

/-- The error signals of a queue. -/
def errorKeys (sigs : List UtpSignal) : List (QString × Int) :=
  sigs.filterMap UtpSignal.errorKeys?

/-- A channel that called `close`, and its `m_iceNego` at that moment. -/
structure Closer where
  chan : ChanId
  iceNego : Bool
  deriving DecidableEq, Repr

/-- The system, with the senders of the close requests and the sockets of the error signals
that are on their way. -/
structure Traced where
  sys : System
  closers : List Closer
  dying : List SockId

namespace Traced

/-- Nothing is on its way. -/
def init (channels : ChanId → TransportChannel) : Traced :=
  { sys := System.init channels, closers := [], dying := [] }

/-- The sender of a close request enters with it, and leaves with it. -/
def closersAfter (t : Traced) : SysAction → List Closer
  | .close c =>
    let ch := t.sys.main.channels c
    if ch.isClosing then t.closers else t.closers ++ [{ chan := c, iceNego := ch.iceNego }]
  | .utpSlot _ _ =>
    match t.sys.main.outbox with
    | .close _ _ :: _ => t.closers.tail
    | _ => t.closers
  | _ => t.closers

/-- The socket of an error signal enters with it, and leaves with it. -/
def dyingAfter (t : Traced) : SysAction → List SockId
  | .utpEvent (.destroying s) _ => t.dying ++ [s]
  | .mainSlot =>
    match t.sys.utp.outbox with
    | .utpError _ _ :: _ => t.dying.tail
    | _ => t.dying
  | _ => t.dying

/-- A step of the system. -/
def step (t : Traced) (a : SysAction) : Option Traced :=
  match t.sys.step a with
  | some y => some { sys := y, closers := t.closersAfter a, dying := t.dyingAfter a }
  | none => none

/-- A traced step is a step of the system, and the trace follows it. -/
theorem step_some {t t' : Traced} {a : SysAction} (h : t.step a = some t') :
    t.sys.step a = some t'.sys ∧ t'.closers = t.closersAfter a ∧ t'.dying = t.dyingAfter a := by
  unfold step at h
  split at h
  · rename_i y hy
    cases h
    exact ⟨hy, rfl, rfl⟩
  · cases h

/-! ### The property -/

/-- The socket, with its user data, was connected or accepted for the channel: it was made for
the address of the channel, and it has the id of the channel, or none yet. -/
def SocketOf (t : Traced) (c : ChanId) (s : SockId) (userdata : Int) : Prop :=
  (t.sys.main.channels c).iceNego = true ∧
    HistEvent.install (t.sys.main.channels c).peerAddress s ∈ t.sys.utp.hist ∧
    (userdata = (t.sys.main.channels c).utpConnectID ∨ userdata = 0)

/-- The channel has the same entries in both maps. -/
def SameEntries (m m' : UTPManager) (c : ChanId) : Prop :=
  (∀ a, m'.hashChannels.lookup a = some c ↔ m.hashChannels.lookup a = some c) ∧
    ∀ id, m'.hashIDChannels.lookup id = some c ↔ m.hashIDChannels.lookup id = some c

/-- A close request closes a socket of its channel or none, and the error signal of a socket
leaves the entries of all channels but the socket's own. -/
def Isolated (t : Traced) : SysAction → Prop
  | .utpSlot _ _ => ∀ peerAddr connectID rest,
    t.sys.main.outbox = .close peerAddr connectID :: rest →
    ∃ x xs, t.closers = x :: xs ∧ ∀ s, t.sys.utp.closedBy peerAddr connectID = some s →
      t.SocketOf x.chan s (t.sys.utp.userdata s)
  | .mainSlot => ∀ peerAddr connectID rest,
    t.sys.utp.outbox = .utpError peerAddr connectID :: rest →
    ∃ s ss, t.dying = s :: ss ∧ ∀ c, t.SocketOf c s connectID → ∀ c', c' ≠ c →
      SameEntries t.sys.main (t.sys.main.onUtpError peerAddr connectID) c'
  | _ => True

/-- A negotiation gives the channel an address of its own, and a close request that was sent
without a negotiation finds no socket. -/
def KeysApart (t : Traced) : SysAction → Prop
  | .onICENego c true _ address => (t.sys.main.channels c).iceNego = false →
    address ≠ [] ∧ ∀ c', (t.sys.main.channels c').iceNego = true →
      (t.sys.main.channels c').peerAddress ≠ address
  | .utpSlot _ _ => ∀ peerAddr connectID rest x xs,
    t.sys.main.outbox = .close peerAddr connectID :: rest → t.closers = x :: xs →
    x.iceNego = false → t.sys.utp.closedBy peerAddr connectID = none
  | _ => True

end Traced

/-! ### The addresses of the channels -/

namespace UTPManager

variable {m m' : UTPManager}

/-- The negotiated channels have addresses, and no two have the same. -/
structure AddrsApart (m : UTPManager) : Prop where
  nonempty : ∀ c, (m.channels c).iceNego = true → (m.channels c).peerAddress ≠ []
  apart : ∀ c c', (m.channels c).iceNego = true → (m.channels c').iceNego = true →
    (m.channels c).peerAddress = (m.channels c').peerAddress → c = c'

/-- A step that keeps the addresses of the channels keeps them apart. -/
theorem AddrsApart.kept (h : AddrsApart m) (hk : Kept m m') : AddrsApart m' where
  nonempty c hn := by
    rw [hk.iceNego] at hn
    rw [hk.peerAddress c hn]
    exact h.nonempty c hn
  apart c c' hn hn' heq := by
    rw [hk.iceNego] at hn hn'
    rw [hk.peerAddress c hn, hk.peerAddress c' hn'] at heq
    exact h.apart c c' hn hn' heq

/-- A negotiation with an address that no negotiated channel has. -/
theorem AddrsApart.nego {c : ChanId} {isRelay : Bool} {address : QString} (h : AddrsApart m)
    (hn : (m.channels c).iceNego = false) (hne : address ≠ [])
    (hfree : ∀ c', (m.channels c').iceNego = true → (m.channels c').peerAddress ≠ address) :
    AddrsApart (m.onICENego c true isRelay address) := by
  have hself : ((m.onICENego c true isRelay address).channels c).peerAddress = address := by
    rw [onICENego_channels_self hn]
  refine ⟨fun c' hn' => ?_, fun c₁ c₂ h₁ h₂ heq => ?_⟩
  · rcases negotiated_cases hn hn' with rfl | ⟨hc, hold⟩
    · rw [hself]
      exact hne
    · rw [onICENego_channels_ne hn hc]
      exact h.nonempty c' hold
  · rcases negotiated_cases hn h₁ with rfl | ⟨hc₁, hold₁⟩
    · rcases negotiated_cases hn h₂ with rfl | ⟨hc₂, hold₂⟩
      · rfl
      · rw [hself, onICENego_channels_ne hn hc₂] at heq
        exact absurd heq.symm (hfree c₂ hold₂)
    · rcases negotiated_cases hn h₂ with rfl | ⟨hc₂, hold₂⟩
      · rw [hself, onICENego_channels_ne hn hc₁] at heq
        exact absurd heq (hfree c₁ hold₁)
      · rw [onICENego_channels_ne hn hc₁, onICENego_channels_ne hn hc₂] at heq
        exact h.apart c₁ c₂ hold₁ hold₂ heq

/-- Then an address has one id. -/
theorem AddrsApart.owner_inj (h : AddrsApart m) {a : QString} {n n' : Int} (ho : Owner m n a)
    (ho' : Owner m n' a) : n = n' := by
  obtain ⟨c, hn, rfl, hp⟩ := ho
  obtain ⟨c', hn', rfl, hp'⟩ := ho'
  rw [h.apart c c' hn hn' (hp.trans hp'.symm)]

/-- An error whose keys are those of the channel, or none, is about no other channel. -/
theorem AddrsApart.sameEntries (h : AddrsApart m) (hreg : Registry m) {c : ChanId}
    (hn : (m.channels c).iceNego = true) {peerAddr : QString} {connectID : Int}
    (haddr : peerAddr = [] ∨ peerAddr = (m.channels c).peerAddress)
    (hid : connectID = (m.channels c).utpConnectID ∨ connectID = 0) {c' : ChanId}
    (hne : c' ≠ c) : Traced.SameEntries m (m.onUtpError peerAddr connectID) c' := by
  have hmaps : (m.onUtpError peerAddr connectID).hashChannels = m.hashChannels.erase peerAddr ∧
      (m.onUtpError peerAddr connectID).hashIDChannels = m.hashIDChannels.erase connectID := by
    unfold onUtpError
    simp only
    split <;> exact ⟨rfl, rfl⟩
  rw [Traced.SameEntries, hmaps.1, hmaps.2]
  refine ⟨fun a => ⟨QHash.lookup_of_erase, fun hl => ?_⟩,
    fun id => ⟨QHash.lookup_of_erase, fun hl => ?_⟩⟩
  · obtain ⟨hn', hp⟩ := hreg.byAddr a c' hl
    refine (AList.lookup_erase_ne fun heq => ?_).trans hl
    rcases haddr with hnil | hown
    · exact h.nonempty c' hn' (hp.trans (heq.trans hnil))
    · exact hne (h.apart c' c hn' hn (hp.trans (heq.trans hown)))
  · obtain ⟨hn', hid'⟩ := hreg.byID id c' hl
    refine (AList.lookup_erase_ne fun heq => ?_).trans hl
    rcases hid with hown | hzero
    · exact hne (hreg.inj c' c hn' hn (hid'.trans (heq.trans hown)))
    · -- `createUtpSocket` gives out ids from 2 on.
      have := hreg.range c' hn'
      omega

end UTPManager

/-! ### The queues -/

/-- Signals without errors add no key. -/
theorem errorKeys_append {sigs new : List UtpSignal} (h : errorKeys new = []) :
    errorKeys (sigs ++ new) = errorKeys sigs := by
  rw [errorKeys, List.filterMap_append]
  exact (congrArg _ h).trans (List.append_nil _)

/-- A step of the uTP thread signals an error when it destroys a socket, and only then. -/
theorem UtpHandle.step_errorKeys {st st' : UtpHandle} {b : UtpAction}
    (h : st.step b = some st') :
    (∃ s o, b = .event (.destroying s) o ∧ errorKeys st'.outbox =
        errorKeys st.outbox ++ [(st.utpSocketsAddr.key s [], st.userdata s)]) ∨
      (∀ s o, b ≠ .event (.destroying s) o) ∧ errorKeys st'.outbox = errorKeys st.outbox := by
  obtain ⟨mid, hmid, rfl⟩ := step_base h
  obtain ⟨sigs, hsigs, hidle⟩ := (endStep_wrote mid b).outbox
  have hend : errorKeys (mid.endStep b).outbox = errorKeys mid.outbox := by
    have hnil : errorKeys sigs = [] := by
      refine List.filterMap_eq_nil_iff.mpr fun sig hsig => ?_
      have := hidle sig hsig
      cases sig <;> first | rfl | cases this
    rw [hsigs]
    exact errorKeys_append hnil
  rw [hend]
  -- The signals of the other steps are no errors.
  have hplain : ∀ sigs, mid.outbox = st.outbox ++ sigs → errorKeys sigs = [] →
      errorKeys mid.outbox = errorKeys st.outbox := by
    intro sigs hout hnil
    rw [hout]
    exact errorKeys_append hnil
  cases hmid with
  | destroying s sock o hs hstate =>
    refine Or.inl ⟨s, o, rfl, ?_⟩
    have hud : st.userdata s = sock.userdata := by rw [UtpHandle.userdata, hs]
    rw [hud]
    exact List.filterMap_append
  | connectToPeer peerAddr connectID seed hcolon hfree =>
    exact Or.inr ⟨fun _ _ => by simp, hplain [_] rfl rfl⟩
  | setAcceptConnID peerAddr connectID =>
    refine Or.inr ⟨fun _ _ => by simp, ?_⟩
    exact setAcceptConnID_rule (P := fun u => errorKeys u.outbox = errorKeys st.outbox) rfl
      fun _ _ _ _ => rfl
  | onCloseSocket peerAddr connectID =>
    refine Or.inr ⟨fun _ _ => by simp, ?_⟩
    exact onCloseSocket_rule (P := fun u => errorKeys u.outbox = errorKeys st.outbox) rfl
      fun s => utpClose_rule (P := fun u => errorKeys u.outbox = errorKeys st.outbox)
        (fun _ => rfl) fun _ _ => rfl
  | enqueue peerAddr buf o => exact Or.inr ⟨fun _ _ => by simp, rfl⟩
  | processLoop o => exact Or.inr ⟨fun _ _ => by simp, rfl⟩
  | accept peerAddr connid o hcolon hfree =>
    exact Or.inr ⟨fun _ _ => by simp, hplain [_, _] rfl rfl⟩
  | connect s sock o hs hstate => exact Or.inr ⟨fun _ _ => by simp, hplain [_] rfl rfl⟩
  | writable s sock o hs hstate => exact Or.inr ⟨fun _ _ => by simp, rfl⟩
  | read s sock buf o hs hstate => exact Or.inr ⟨fun _ _ => by simp, hplain [_] rfl rfl⟩
  | eof s sock o hs hstate => exact Or.inr ⟨fun _ _ => by simp, rfl⟩
  | error s sock o hs => exact Or.inr ⟨fun _ _ => by simp, rfl⟩
  | expire s sock o hs hstate => exact Or.inr ⟨fun _ _ => by simp, rfl⟩
  | sendto peerAddr pkt o => exact Or.inr ⟨fun _ _ => by simp, hplain [_] rfl rfl⟩

/-! Only `close` sends a close request. -/

namespace UTPManager

/-- Requests without closes add no key. -/
theorem closeKeys_append {reqs new : List UtpRequest} (h : closeKeys new = []) :
    closeKeys (reqs ++ new) = closeKeys reqs := by
  rw [closeKeys, List.filterMap_append]
  exact (congrArg _ h).trans (List.append_nil _)

/-- `onICENego` requests no close. -/
theorem onICENego_closeKeys (m : UTPManager) (c : ChanId) (isSuccess isRelay : Bool)
    (address : QString) :
    closeKeys (m.onICENego c isSuccess isRelay address).outbox = closeKeys m.outbox := by
  rcases m.onICENego_cases c isSuccess isRelay address with ⟨hn, rfl⟩ | heq | ⟨-, heq⟩
  · rw [onICENego_success hn]
    simp only
    split
    · exact closeKeys_append rfl
    · rfl
  · rw [heq]
  · rw [heq]
    rfl

/-- `write` requests no close. -/
theorem write_closeKeys (m : UTPManager) (c : ChanId) (data : QByteArray) :
    closeKeys (m.write c data).outbox = closeKeys m.outbox := by
  simp only [UTPManager.write]
  split
  · rfl
  · exact closeKeys_append rfl

/-- `connectSuccess` requests no close. -/
theorem connectSuccess_closeKeys (m : UTPManager) (c : ChanId) (a : QString) :
    closeKeys (m.connectSuccess c a).outbox = closeKeys m.outbox := by
  obtain ⟨reqs, hreqs, hpack⟩ := connectSuccess_outbox m c a
  rw [hreqs]
  refine closeKeys_append (List.filterMap_eq_nil_iff.mpr fun r hr => ?_)
  rw [hpack r hr]
  rfl

/-- The slots of the main thread request no close. -/
theorem slot_closeKeys (m : UTPManager) (sig : UtpSignal) :
    closeKeys (m.slot sig).outbox = closeKeys m.outbox := by
  generalize hm : m.slot sig = m'
  cases slot_cases hm with
  | utpAccept peerAddr c hl =>
    rw [connectSuccess_closeKeys]
    exact closeKeys_append rfl
  | utpConnected connectID c hl => exact m.connectSuccess_closeKeys c _
  | _ => rfl

end UTPManager

/-- The step of the uTP thread in a step of the system carries owned ids. -/
theorem IdsOwned.names {y : System} {a : SysAction} {b : UtpAction} (h : IdsOwned y)
    (hb : y.utpPart a = some b) {addr : QString} {id : Int} (hn : Names b addr id) :
    Owner y.main id addr := by
  cases a with
  | utpSlot seed o =>
    simp only [System.utpPart] at hb
    split at hb
    · cases hb
    · rename_i req rest hout
      have howned := h.reqs req (hout ▸ List.mem_cons_self)
      cases hb
      rcases hn with ⟨seed', heq⟩ | heq <;> cases req <;> cases heq <;> exact howned
  | utpEvent e o =>
    cases hb
    rcases hn with ⟨seed', heq⟩ | heq <;> cases heq
  | _ => cases hb

/-! ### The invariant -/

namespace Traced

variable {t t' : Traced} {a : SysAction}

/-- The keys of the request are those of the channel, if it had negotiated. -/
def CloserOf (m : UTPManager) (keys : QString × Int) (x : Closer) : Prop :=
  x.iceNego = true → (m.channels x.chan).iceNego = true ∧
    keys = ((m.channels x.chan).peerAddress, (m.channels x.chan).utpConnectID)

/-- The address of the signal is empty, or the one that the socket was made for. -/
def ErrorOf (hist : List HistEvent) (keys : QString × Int) (s : SockId) : Prop :=
  keys.1 = [] ∨ HistEvent.install keys.1 s ∈ hist

/-- The channels have addresses of their own, the sockets are stored under the keys of their
channel, and the two lists go with the two queues. -/
structure Apart (t : Traced) : Prop where
  owned : IdsOwned t.sys
  addrs : AddrsApart t.sys.main
  matched : Matched (fun a n => Owner t.sys.main n a) t.sys.utp
  closers : List.Forall₂ (CloserOf t.sys.main) (closeKeys t.sys.main.outbox) t.closers
  dying : List.Forall₂ (ErrorOf t.sys.utp.hist) (errorKeys t.sys.utp.outbox) t.dying

/-! #### What the invariant gives -/

/-- The socket of an address of a negotiated channel has the id of that channel, or none. -/
theorem Apart.userdata_of_addr (h : Apart t) {c : ChanId}
    (hn : (t.sys.main.channels c).iceNego = true) {s : SockId}
    (hi : HistEvent.install (t.sys.main.channels c).peerAddress s ∈ t.sys.utp.hist) :
    t.sys.utp.userdata s = (t.sys.main.channels c).utpConnectID ∨ t.sys.utp.userdata s = 0 := by
  cases hs : t.sys.utp.sockets s with
  | none => exact Or.inr (by rw [UtpHandle.userdata, hs])
  | some sock =>
    have hud : t.sys.utp.userdata s = sock.userdata := by rw [UtpHandle.userdata, hs]
    rw [hud]
    by_cases hzero : sock.userdata = 0
    · exact Or.inr hzero
    · obtain ⟨a, ho, hi'⟩ := h.owned.socks s sock hs hzero
      rw [h.owned.installed.inj _ _ s hi' hi] at ho
      exact Or.inl (h.addrs.owner_inj ho ⟨c, hn, rfl, rfl⟩)

/-- The keys of a negotiated channel lead to a socket of the channel. -/
theorem Apart.socketOf (h : Apart t) {c : ChanId}
    (hn : (t.sys.main.channels c).iceNego = true) {s : SockId}
    (hcb : t.sys.utp.closedBy (t.sys.main.channels c).peerAddress
      (t.sys.main.channels c).utpConnectID = some s) :
    t.SocketOf c s (t.sys.utp.userdata s) := by
  unfold closedBy at hcb
  rcases Option.or_eq_some_iff.mp hcb with hid | ⟨-, haddr⟩
  · -- `onCloseSocket` looks for the id first, and for the address when the id is not there.
    obtain ⟨sock, hs, hud, -⟩ := h.matched.byId _ s hid
    have hne : sock.userdata ≠ 0 := by
      have := h.owned.registry.range c hn
      omega
    obtain ⟨a, ho, hi⟩ := h.owned.socks s sock hs hne
    rw [← ho.addr_eq h.owned.registry hn hud.symm] at hi
    refine ⟨hn, hi, Or.inl ?_⟩
    rw [UtpHandle.userdata, hs]
    exact hud
  · have hi := h.owned.installed.current _ s haddr
    exact ⟨hn, hi, h.userdata_of_addr hn hi⟩

/-- A step from a state with the invariant is isolated. -/
theorem Apart.isolated (h : Apart t) (hc : t.KeysApart a) : t.Isolated a := by
  cases a with
  | utpSlot seed o =>
    intro peerAddr connectID rest hout
    have hall := h.closers
    rw [hout] at hall
    -- The request at the head of the queue has its sender at the head of the list.
    obtain ⟨x, xs, hx, -, hcl⟩ := List.forall₂_cons_left_iff.mp hall
    refine ⟨x, xs, hcl, fun s hcb => ?_⟩
    cases hxn : x.iceNego with
    | false =>
      have hnone := hc peerAddr connectID rest x xs hout hcl hxn
      rw [hnone] at hcb
      cases hcb
    | true =>
      obtain ⟨hn, hkeys⟩ := hx hxn
      cases hkeys
      exact h.socketOf hn hcb
  | mainSlot =>
    intro peerAddr connectID rest hout
    have hall := h.dying
    rw [hout] at hall
    obtain ⟨s, ss, hs, -, hdy⟩ := List.forall₂_cons_left_iff.mp hall
    refine ⟨s, ss, hdy, fun c hsock c' hne => ?_⟩
    obtain ⟨hn, hi, hid⟩ := hsock
    have haddr : peerAddr = [] ∨ peerAddr = (t.sys.main.channels c).peerAddress :=
      hs.imp_right fun hi' => h.owned.installed.inj _ _ s hi' hi
    exact h.addrs.sameEntries h.owned.registry hn haddr hid hne
  | _ => trivial

/-! #### The steps keep it -/

/-- A step that meets the condition keeps the addresses apart. -/
theorem Apart.step_addrs (h : Apart t) (hc : t.KeysApart a) {y : System}
    (hst : t.sys.step a = some y) : AddrsApart y.main := by
  rcases System.step_kept h.owned.registry hst with hk | ⟨c, isRelay, address, rfl, hn, heq⟩
  · exact h.addrs.kept hk
  · obtain ⟨hne, hfree⟩ := hc hn
    rw [heq]
    exact h.addrs.nego hn hne hfree

/-- An owned id stays owned. -/
theorem step_owner (hreg : Registry t.sys.main) {y : System} (hst : t.sys.step a = some y)
    (id : Int) (addr : QString) (ho : Owner t.sys.main id addr) : Owner y.main id addr := by
  rcases System.step_kept hreg hst with hk | ⟨c, isRelay, address, -, hn, heq⟩
  · exact ho.kept hk
  · rw [heq]
    exact ho.nego hn

/-- In a step that keeps the channels apart, each socket carries an id of its own address. -/
theorem Apart.step_matched (h : Apart t) {y : System} (hst : t.sys.step a = some y) :
    Matched (fun a n => Owner y.main n a) y.utp := by
  have hutp : Matched (fun a n => Owner t.sys.main n a) y.utp := by
    rcases System.step_utpPart hst with ⟨b, hb, hstb⟩ | ⟨-, sigs, heq⟩
    · exact h.matched.step (fun _ _ _ ho ho' => h.addrs.owner_inj ho ho')
        (fun _ _ hname => h.owned.names hb hname) hstb
    · rw [heq]
      exact h.matched.congr rfl rfl rfl rfl
  exact hutp.mono fun addr n ho => step_owner h.owned.registry hst n addr ho

/-- The sender of a close request keeps its keys. -/
theorem step_closerOf (hreg : Registry t.sys.main) {y : System} (hst : t.sys.step a = some y)
    (keys : QString × Int) (x : Closer) (hx : CloserOf t.sys.main keys x) :
    CloserOf y.main keys x := by
  intro hxn
  obtain ⟨hn, hkeys⟩ := hx hxn
  rcases System.step_kept hreg hst with hk | ⟨c, isRelay, address, -, hnc, heq⟩
  · rw [hk.iceNego, hk.utpConnectID, hk.peerAddress _ hn]
    exact ⟨hn, hkeys⟩
  · -- A channel that negotiates now had not when the request was sent.
    have hne : x.chan ≠ c := by
      intro hxc
      rw [hxc, hnc] at hn
      cases hn
    rw [heq, onICENego_channels_ne hnc hne]
    exact ⟨hn, hkeys⟩

/-- The close requests and their senders, before the new state of the channels is looked at. -/
theorem step_closers {y : System} (hst : t.sys.step a = some y)
    (hall : List.Forall₂ (CloserOf t.sys.main) (closeKeys t.sys.main.outbox) t.closers) :
    List.Forall₂ (CloserOf t.sys.main) (closeKeys y.main.outbox) (t.closersAfter a) := by
  cases System.step_cases hst with
  | onICENego c isSuccess isRelay address =>
    exact onICENego_closeKeys t.sys.main c isSuccess isRelay address ▸ hall
  | onICEReadPkt pkt peerAddr =>
    have hkeys : closeKeys (t.sys.main.onICEReadPkt pkt peerAddr).outbox =
        closeKeys t.sys.main.outbox := closeKeys_append rfl
    exact hkeys ▸ hall
  | write c data => exact write_closeKeys t.sys.main c data ▸ hall
  | close c =>
    simp only [UTPManager.close, Traced.closersAfter]
    split
    · exact hall
    · have hnew : CloserOf t.sys.main
          ((t.sys.main.channels c).peerAddress, (t.sys.main.channels c).utpConnectID)
          { chan := c, iceNego := (t.sys.main.channels c).iceNego } := fun hn => ⟨hn, rfl⟩
      have hkeys : closeKeys (t.sys.main.outbox ++ [.close (t.sys.main.channels c).peerAddress
          (t.sys.main.channels c).utpConnectID]) = closeKeys t.sys.main.outbox ++
            [((t.sys.main.channels c).peerAddress, (t.sys.main.channels c).utpConnectID)] :=
        List.filterMap_append
      exact hkeys ▸ List.rel_append hall (.cons hnew .nil)
  | connectSuccess peerAddr c hc =>
    exact connectSuccess_closeKeys t.sys.main c peerAddr ▸ hall
  | mainSlot sig rest hout => exact slot_closeKeys t.sys.main sig ▸ hall
  | utpSlot req rest seed o u hout hu =>
    rw [hout] at hall
    cases req with
    | close peerAddr connectID =>
      obtain ⟨x, xs, -, hrest, hcl⟩ := List.forall₂_cons_left_iff.mp hall
      simp only [Traced.closersAfter, hout, hcl]
      exact hrest
    | _ =>
      simp only [Traced.closersAfter, hout]
      exact hall
  | utpEvent e o u hu => exact hall

/-- The history grows. -/
theorem step_hist {y y' : System} (hst : y.step a = some y') {e : HistEvent}
    (he : e ∈ y.utp.hist) : e ∈ y'.utp.hist := by
  rcases System.step_utpPart hst with ⟨b, -, hstb⟩ | ⟨-, sigs, heq⟩
  · obtain ⟨es, sigs, hr⟩ := step_readStep hstb
    rw [hr.hist]
    exact List.mem_append_left _ he
  · rw [heq]
    exact he

/-- The error signals and their sockets. -/
theorem Apart.dyingAfter (h : Apart t) {y : System} (hst : t.sys.step a = some y) :
    List.Forall₂ (ErrorOf t.sys.utp.hist) (errorKeys y.utp.outbox) (t.dyingAfter a) := by
  cases System.step_cases hst with
  | mainSlot sig rest hout =>
    have hall := h.dying
    rw [hout] at hall
    cases sig with
    | utpError peerAddr connectID =>
      -- The first error of the outbox goes, and its socket with it.
      obtain ⟨s, ss, -, hrest, hdy⟩ := List.forall₂_cons_left_iff.mp hall
      simp only [Traced.dyingAfter, hout, hdy]
      exact hrest
    | _ =>
      simp only [Traced.dyingAfter, hout]
      exact hall
  | utpSlot req rest seed o u hout hu =>
    rcases UtpHandle.step_errorKeys hu with ⟨s, o', heq, -⟩ | ⟨-, hkeys⟩
    · cases req <;> cases heq
    · exact hkeys ▸ h.dying
  | utpEvent e o u hu =>
    rcases UtpHandle.step_errorKeys hu with ⟨s, o', heq, hkeys⟩ | ⟨hno, hkeys⟩
    · cases heq
      -- The new error has the key of its socket, or none if the address was replaced.
      have hnew : ErrorOf t.sys.utp.hist
          (t.sys.utp.utpSocketsAddr.key s [], t.sys.utp.userdata s) s :=
        (t.sys.utp.utpSocketsAddr.key_spec s []).symm.imp And.left
          (h.owned.installed.current _ s)
      exact hkeys ▸ List.rel_append h.dying (.cons hnew .nil)
    · have hdy : t.dyingAfter (.utpEvent e o) = t.dying := by
        cases e with
        | destroying s => exact absurd rfl (hno s o)
        | _ => rfl
      rw [hdy]
      exact hkeys ▸ h.dying
  | _ => exact h.dying

/-- The step lemma. -/
theorem Apart.step (h : Apart t) (hc : t.KeysApart a) (hst : t.step a = some t') : Apart t' := by
  obtain ⟨hsys, hcl, hdy⟩ := step_some hst
  refine
    { owned := h.owned.step hsys
      addrs := h.step_addrs hc hsys
      matched := h.step_matched hsys
      closers := ?_
      dying := ?_ }
  · rw [hcl]
    exact (step_closers hsys h.closers).imp (step_closerOf h.owned.registry hsys)
  · rw [hdy]
    exact (h.dyingAfter hsys).imp fun keys s hs => hs.imp_right (step_hist hsys)

/-- Channels without an address are apart. -/
theorem Apart.init (channels : ChanId → TransportChannel)
    (hnew : ∀ c, (channels c).iceNego = false) : Apart (Traced.init channels) where
  owned := IdsOwned.init hnew
  addrs := by
    have hnone : ∀ c, (channels c).iceNego ≠ true := by
      intro c hn
      rw [hnew c] at hn
      cases hn
    exact ⟨fun c hn => absurd hn (hnone c), fun c _ hn => absurd hn (hnone c)⟩
  matched := Matched.init
  closers := .nil
  dying := .nil

/-! ### Runs -/

/-- Along a run in which every negotiated channel has an address of its own, and the close
request of a channel without a negotiation finds no socket, a channel closes only sockets of
its own, and the error of a socket takes no entry of another channel. -/
theorem isolated_of_keysApart (role : ChanId → Bool) (garbage : ChanId → Int)
    (as : List SysAction)
    (hc : AllSteps step KeysApart (init (System.newChannels role garbage)) as) :
    AllSteps step Isolated (init (System.newChannels role garbage)) as :=
  allSteps_of_invariant (fun _ _ _ h hc hst => h.step hc hst) (fun _ _ h hc => h.isolated hc) as _
    (Apart.init _ fun _ => rfl) hc

/-- Two channels connect. One of them ends its connection, and so does a third channel, that
has not negotiated and whose id nobody has. -/
theorem isolated_of_keysApart_threeChannels :
    AllSteps step Isolated (init (System.newChannels (fun _ => true) fun _ => 7))
      [.onICENego 0 true false ['a', ':'], .onICENego 1 true false ['b', ':'], .utpSlot 1 [],
        .utpSlot 2 [], .close 0, .close 2, .utpSlot 0 [], .utpSlot 0 [],
        .utpEvent (.expire 0) [], .utpEvent (.destroying 0) [], .mainSlot, .mainSlot,
        .mainSlot] := by
  refine isolated_of_keysApart _ _ _ ?_
  refine AllSteps.cons (fun _ => ⟨by decide, fun c' hn => ?_⟩) rfl ?_
  · cases hn
  refine AllSteps.cons (fun _ => ⟨by decide, fun c' hn => ?_⟩) rfl ?_
  · by_cases hc : c' = 0
    · subst hc
      decide
    · rw [onICENego_channels_ne rfl hc] at hn
      cases hn
  iterate 2 refine AllSteps.cons (fun _ _ _ _ _ hout => by cases hout) rfl ?_
  iterate 2 refine AllSteps.cons trivial rfl ?_
  refine AllSteps.cons (fun _ _ _ x xs hout hcl hx => ?_) rfl ?_
  · cases hcl
    cases hx
  refine AllSteps.cons (fun _ _ _ x xs hout hcl hx => ?_) rfl ?_
  · cases hout
    rfl
  iterate 5 refine AllSteps.cons trivial rfl ?_
  trivial

/-- The keys of another channel. A channel that has not negotiated holds the id 2 by accident
and closes the socket of the channel with that id. And a channel that shares its address loses
its entry when the socket of the other one is destroyed. -/
theorem not_isolated_sharedKeys :
    (∃ t, run step (init (System.newChannels (fun _ => true) fun _ => 2))
        [.onICENego 0 true false ['a', ':'], .utpSlot 1 [], .close 1] = some t ∧
      ¬ t.Isolated (.utpSlot 0 [])) ∧
    ∃ t, run step (init (System.newChannels (fun c => c == 0) fun _ => 0))
        [.onICENego 0 true false ['a', ':'], .utpSlot 1 [], .onICENego 1 true false ['a', ':'],
          .close 0, .utpSlot 0 [], .utpEvent (.expire 0) [], .utpEvent (.destroying 0) [],
          .mainSlot] = some t ∧
      ¬ t.Isolated .mainSlot := by
  constructor
  · refine ⟨_, rfl, fun h => ?_⟩
    obtain ⟨x, xs, hx, hsock⟩ := h [] 2 [] rfl
    cases hx
    cases (hsock 0 rfl).1
  · refine ⟨_, rfl, fun h => ?_⟩
    obtain ⟨s, ss, hs, hsame⟩ := h ['a', ':'] 2 [] rfl
    cases hs
    have hsocket : HistEvent.install ['a', ':'] 0 ∈
        [HistEvent.install ['a', ':'] 0, .close 0, .destroyed 0] := List.mem_cons_self
    cases ((hsame 0 ⟨rfl, hsocket, Or.inl rfl⟩ 1 (by decide)).1 ['a', ':']).mpr rfl

end Traced

end EChannel.LibTrans
