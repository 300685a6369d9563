import EChannel.LibTrans.System

/-!
# `EChannel.Proofs.LibTrans.Registry`: which channel owns which connection id

A channel that has negotiated has one connection id, that no other channel has, and one
address (`Registry`). A step of the main thread negotiates a channel, which takes the next id,
or it leaves the ids and the addresses of the negotiated channels alone (`Kept`).

`SysStep` lists the steps of the system, as `BaseStep` does for the uTP thread, and `SlotStep`
the branches of the slots in the main thread.
-/

set_option autoImplicit false

namespace EChannel.LibTrans

open LibUtp

/-! ### The steps of the system -/

/-- The steps of the system, one constructor for each action. -/
inductive SysStep (y : System) : SysAction → System → Prop
  | onICENego (c : ChanId) (isSuccess isRelay : Bool) (address : QString) :
    SysStep y (.onICENego c isSuccess isRelay address)
      { y with main := y.main.onICENego c isSuccess isRelay address }
  | onICEReadPkt (pkt : Packet) (peerAddr : QString) :
    SysStep y (.onICEReadPkt pkt peerAddr) { y with main := y.main.onICEReadPkt pkt peerAddr }
  | write (c : ChanId) (data : QByteArray) :
    SysStep y (.write c data) { y with main := y.main.write c data }
  | close (c : ChanId) : SysStep y (.close c) { y with main := y.main.close c }
  | connectSuccess (peerAddr : QString) (c : ChanId)
    (hc : y.main.hashChannels.lookup peerAddr = some c) :
    SysStep y (.connectSuccess peerAddr) { y with main := y.main.connectSuccess c peerAddr }
  | mainSlot (sig : UtpSignal) (rest : List UtpSignal) (hout : y.utp.outbox = sig :: rest) :
    SysStep y .mainSlot { main := y.main.slot sig, utp := { y.utp with outbox := rest } }
  | utpSlot (req : UtpRequest) (rest : List UtpRequest) (seed : Nat) (o : Oracle)
    (u : UtpHandle) (hout : y.main.outbox = req :: rest)
    (hu : y.utp.step (System.utpAction req seed o) = some u) :
    SysStep y (.utpSlot seed o) { main := { y.main with outbox := rest }, utp := u }
  | utpEvent (e : UtpHandle.UtpEvent) (o : Oracle) (u : UtpHandle)
    (hu : y.utp.step (.event e o) = some u) : SysStep y (.utpEvent e o) { y with utp := u }

/-- What a step of the system does, one constructor for each kind. -/
theorem System.step_cases {y y' : System} {a : SysAction} (h : y.step a = some y') :
    SysStep y a y' := by
  cases a with
  | onICENego c isSuccess isRelay address => cases h; exact .onICENego c isSuccess isRelay address
  | onICEReadPkt pkt peerAddr => cases h; exact .onICEReadPkt pkt peerAddr
  | write c data => cases h; exact .write c data
  | close c => cases h; exact .close c
  | connectSuccess peerAddr =>
    simp only [System.step] at h
    split at h
    · cases h
      exact .connectSuccess peerAddr _ (by assumption)
    · cases h
  | mainSlot =>
    simp only [System.step] at h
    split at h
    · cases h
    · cases h
      exact .mainSlot _ _ (by assumption)
  | utpSlot seed o =>
    simp only [System.step] at h
    split at h
    · cases h
    · simp only [System.stepUtp] at h
      split at h
      · cases h
        exact .utpSlot _ _ seed o _ (by assumption) (by assumption)
      · cases h
  | utpEvent e o =>
    simp only [System.step, System.stepUtp] at h
    split at h
    · cases h
      exact .utpEvent e o _ (by assumption)
    · cases h

/-! ### The slots of the main thread -/

namespace UTPManager

/-- What a slot of the main thread does, one constructor for each branch. `dropped` is a signal
for an id or an address that is not registered, or `utpIdle`. -/
inductive SlotStep (m : UTPManager) : UtpSignal → UTPManager → Prop
  | reqUDPSend (peerAddr : QString) (pkt : Packet) (c : ChanId)
    (hl : m.hashChannels.lookup peerAddr = some c) :
    SlotStep m (.reqUDPSend peerAddr pkt) { m with iceOut := m.iceOut ++ [(c, pkt)] }
  | utpRecv (connectID : Int) (buf : QByteArray) (c : ChanId)
    (hl : m.hashIDChannels.lookup connectID = some c) :
    SlotStep m (.utpRecv connectID buf)
      (m.setChannel c { m.channels c with received := (m.channels c).received ++ buf })
  | utpAccept (peerAddr : QString) (c : ChanId)
    (hl : m.hashChannels.lookup peerAddr = some c) :
    SlotStep m (.utpAccept peerAddr)
      ((m.request (.setAcceptConnID peerAddr (m.channels c).utpConnectID)).connectSuccess c
        peerAddr)
  | acceptFailed (peerAddr : QString) (hl : m.hashChannels.lookup peerAddr = none) :
    SlotStep m (.utpAccept peerAddr) { m with assertFailed := true }
  | utpConnected (connectID : Int) (c : ChanId)
    (hl : m.hashIDChannels.lookup connectID = some c) :
    SlotStep m (.utpConnected connectID) (m.connectSuccess c (m.hashChannels.key c []))
  | utpError (peerAddr : QString) (connectID : Int) (c : ChanId)
    (hl : m.errorChannel peerAddr connectID = some c) :
    SlotStep m (.utpError peerAddr connectID)
      (conncetError { m with
        hashIDChannels := m.hashIDChannels.erase connectID
        hashChannels := m.hashChannels.erase peerAddr } c)
  | errorUnknown (peerAddr : QString) (connectID : Int)
    (hl : m.errorChannel peerAddr connectID = none) :
    SlotStep m (.utpError peerAddr connectID) { m with
      hashIDChannels := m.hashIDChannels.erase connectID
      hashChannels := m.hashChannels.erase peerAddr }
  | dropped (sig : UtpSignal) : SlotStep m sig m

/-- What a slot of the main thread does, one constructor for each signal that finds its
channel. -/
theorem slot_cases {m m' : UTPManager} {sig : UtpSignal} (h : m.slot sig = m') :
    SlotStep m sig m' := by
  subst h
  cases sig with
  | reqUDPSend peerAddr pkt =>
    simp only [slot, onUtpReqSend]
    split
    · rename_i c hl
      exact .reqUDPSend peerAddr pkt c hl
    · exact .dropped _
  | utpRecv connectID buf =>
    simp only [slot, onUtpRecv]
    split
    · rename_i c hl
      exact .utpRecv connectID buf c hl
    · exact .dropped _
  | utpAccept peerAddr =>
    simp only [slot, onUtpAccept]
    split
    · rename_i c hl
      exact .utpAccept peerAddr c hl
    · rename_i hl
      exact .acceptFailed peerAddr hl
  | utpConnected connectID =>
    simp only [slot, onUtpConnected]
    split
    · rename_i c hl
      exact .utpConnected connectID c hl
    · exact .dropped _
  | utpError peerAddr connectID =>
    simp only [slot, onUtpError]
    split
    · rename_i c hl
      exact .utpError peerAddr connectID c hl
    · rename_i hl
      exact .errorUnknown peerAddr connectID hl
  | utpIdle peerAddr => exact .dropped _

end UTPManager

/-! ### The registry of the main thread -/

namespace UTPManager

variable {m m' m'' : UTPManager} {c : ChanId}

/-- The negotiated channels have distinct ids, and the maps hold negotiated channels only,
each under its own address and its own id. -/
structure Registry (m : UTPManager) : Prop where
  connID : 1 ≤ m.connID
  range : ∀ c, (m.channels c).iceNego = true →
    1 < (m.channels c).utpConnectID ∧ (m.channels c).utpConnectID ≤ m.connID
  inj : ∀ c c', (m.channels c).iceNego = true → (m.channels c').iceNego = true →
    (m.channels c).utpConnectID = (m.channels c').utpConnectID → c = c'
  byAddr : ∀ a c, m.hashChannels.lookup a = some c →
    (m.channels c).iceNego = true ∧ (m.channels c).peerAddress = a
  byID : ∀ id c, m.hashIDChannels.lookup id = some c →
    (m.channels c).iceNego = true ∧ (m.channels c).utpConnectID = id

/-- A negotiated channel has this id and this address. -/
def Owner (m : UTPManager) (id : Int) (a : QString) : Prop :=
  ∃ c, (m.channels c).iceNego = true ∧ (m.channels c).utpConnectID = id ∧
    (m.channels c).peerAddress = a

/-- What a step of the main thread leaves alone unless it negotiates a channel: it adds
nothing to the maps, and negotiated channels keep their id and their address. -/
structure Kept (m m' : UTPManager) : Prop where
  connID : m'.connID = m.connID
  hashChannels : ∀ a c, m'.hashChannels.lookup a = some c → m.hashChannels.lookup a = some c
  hashIDChannels : ∀ id c, m'.hashIDChannels.lookup id = some c →
    m.hashIDChannels.lookup id = some c
  iceNego : ∀ c, (m'.channels c).iceNego = (m.channels c).iceNego
  utpConnectID : ∀ c, (m'.channels c).utpConnectID = (m.channels c).utpConnectID
  peerAddress : ∀ c, (m.channels c).iceNego = true →
    (m'.channels c).peerAddress = (m.channels c).peerAddress

/-- A step that keeps what is registered keeps the invariant. -/
theorem Registry.kept (h : Registry m) (hk : Kept m m') : Registry m' where
  connID := hk.connID ▸ h.connID
  range c hn := by
    rw [hk.utpConnectID, hk.connID]
    exact h.range c (hk.iceNego c ▸ hn)
  inj c c' hn hn' hid := by
    rw [hk.utpConnectID, hk.utpConnectID] at hid
    exact h.inj c c' (hk.iceNego c ▸ hn) (hk.iceNego c' ▸ hn') hid
  byAddr a c hl := by
    obtain ⟨hn, hp⟩ := h.byAddr a c (hk.hashChannels a c hl)
    exact ⟨(hk.iceNego c).trans hn, (hk.peerAddress c hn).trans hp⟩
  byID id c hl := by
    obtain ⟨hn, hid⟩ := h.byID id c (hk.hashIDChannels id c hl)
    exact ⟨(hk.iceNego c).trans hn, (hk.utpConnectID c).trans hid⟩

/-- No channel is registered at first. -/
theorem Registry.init {channels : ChanId → TransportChannel}
    (hnew : ∀ c, (channels c).iceNego = false) : Registry (init channels) := by
  have hnone : ∀ c, (channels c).iceNego ≠ true := fun c hn => by
    rw [hnew c] at hn
    cases hn
  exact
    { connID := Int.le_refl 1
      range := fun c hn => absurd hn (hnone c)
      inj := fun c _ hn => absurd hn (hnone c)
      byAddr := fun _ _ hl => by cases hl
      byID := fun _ _ hl => by cases hl }

namespace Kept

/-- A manager that does not change. -/
theorem refl (m : UTPManager) : Kept m m :=
  ⟨rfl, fun _ _ h => h, fun _ _ h => h, fun _ => rfl, fun _ => rfl, fun _ _ => rfl⟩

/-- Two changes in a row. -/
theorem trans (h : Kept m m') (h' : Kept m' m'') : Kept m m'' where
  connID := h'.connID.trans h.connID
  hashChannels a c hl := h.hashChannels a c (h'.hashChannels a c hl)
  hashIDChannels id c hl := h.hashIDChannels id c (h'.hashIDChannels id c hl)
  iceNego c := (h'.iceNego c).trans (h.iceNego c)
  utpConnectID c := (h'.utpConnectID c).trans (h.utpConnectID c)
  peerAddress c hn := (h'.peerAddress c ((h.iceNego c).trans hn)).trans (h.peerAddress c hn)

/-- Other members of a channel change. -/
theorem setChannel {ch : TransportChannel} (hn : ch.iceNego = (m.channels c).iceNego)
    (hid : ch.utpConnectID = (m.channels c).utpConnectID)
    (hp : (m.channels c).iceNego = true → ch.peerAddress = (m.channels c).peerAddress) :
    Kept m (m.setChannel c ch) := by
  have hch : ∀ {β : Type} (f : TransportChannel → β) (c' : ChanId),
      (c' = c → f ch = f (m.channels c)) →
      f ((m.setChannel c ch).channels c') = f (m.channels c') := by
    intro β f c' hf
    by_cases heq : c' = c
    · subst heq
      simpa [UTPManager.setChannel] using hf rfl
    · simp [UTPManager.setChannel, Function.update_of_ne heq]
  exact
    { connID := rfl
      hashChannels := fun _ _ hl => hl
      hashIDChannels := fun _ _ hl => hl
      iceNego := fun c' => hch TransportChannel.iceNego c' fun _ => hn
      utpConnectID := fun c' => hch TransportChannel.utpConnectID c' fun _ => hid
      peerAddress := fun c' hc' => hch TransportChannel.peerAddress c' fun heq =>
        hp (heq ▸ hc') }

/-- A request changes no channel. -/
theorem request (m : UTPManager) (r : UtpRequest) : Kept m (m.request r) :=
  ⟨rfl, fun _ _ h => h, fun _ _ h => h, fun _ => rfl, fun _ => rfl, fun _ _ => rfl⟩

/-- `write` changes what is kept to be written. -/
theorem write (m : UTPManager) (c : ChanId) (data : QByteArray) : Kept m (m.write c data) := by
  simp only [UTPManager.write]
  split
  · exact setChannel rfl rfl fun _ => rfl
  · refine trans ?_ (request _ _)
    exact setChannel rfl rfl fun _ => rfl

/-- `close` changes no key of the channel. -/
theorem close (m : UTPManager) (c : ChanId) : Kept m (m.close c) := by
  simp only [UTPManager.close]
  split
  · exact refl m
  · refine trans ?_ (request _ _)
    exact setChannel rfl rfl fun _ => rfl

/-- `connectSuccess` for an address that is empty or registered sets what is there already. -/
theorem connectSuccess (hreg : Registry m) {a : QString}
    (ha : a = [] ∨ m.hashChannels.lookup a = some c) : Kept m (m.connectSuccess c a) := by
  simp only [UTPManager.connectSuccess]
  split
  · exact setChannel rfl rfl fun _ => rfl
  · rename_i hne
    -- `m_peerAddress` is set again, to the value it has.
    have hp : a = (m.channels c).peerAddress :=
      (hreg.byAddr a c (ha.resolve_left hne)).2.symm
    split
    · exact setChannel rfl rfl fun _ => hp
    · refine trans ?_ (request _ _)
      exact setChannel rfl rfl fun _ => hp

/-- Entries leave the maps. -/
theorem erase (m : UTPManager) (peerAddr : QString) (connectID : Int) :
    Kept m { m with
      hashIDChannels := m.hashIDChannels.erase connectID
      hashChannels := m.hashChannels.erase peerAddr } := by
  exact ⟨rfl, fun _ _ hl => QHash.lookup_of_erase hl, fun _ _ hl => QHash.lookup_of_erase hl,
    fun _ => rfl, fun _ => rfl, fun _ _ => rfl⟩

/-- The slots of the main thread take channels out of the maps at most. -/
theorem slot (hreg : Registry m) (sig : UtpSignal) : Kept m (m.slot sig) := by
  generalize hm : m.slot sig = m'
  cases slot_cases hm with
  | reqUDPSend peerAddr pkt c hl =>
    exact ⟨rfl, fun _ _ h => h, fun _ _ h => h, fun _ => rfl, fun _ => rfl, fun _ _ => rfl⟩
  | utpRecv connectID buf c hl => exact setChannel rfl rfl fun _ => rfl
  | utpAccept peerAddr c hl =>
    have hreq := request m (.setAcceptConnID peerAddr (m.channels c).utpConnectID)
    exact hreq.trans (connectSuccess (hreg.kept hreq) (Or.inr hl))
  | acceptFailed peerAddr hl =>
    exact ⟨rfl, fun _ _ h => h, fun _ _ h => h, fun _ => rfl, fun _ => rfl, fun _ _ => rfl⟩
  | utpConnected connectID c hl =>
    exact connectSuccess hreg ((m.hashChannels.key_spec _ []).symm.imp And.left id)
  | utpError peerAddr connectID c hl =>
    refine trans (erase m peerAddr connectID) ?_
    exact setChannel rfl rfl fun _ => rfl
  | errorUnknown peerAddr connectID hl => exact erase m peerAddr connectID
  | dropped => exact refl m

end Kept

/-- The owner of an id stays its owner. -/
theorem Owner.kept {id : Int} {a : QString} (h : Owner m id a) (hk : Kept m m') :
    Owner m' id a := by
  obtain ⟨c, hn, hid, hp⟩ := h
  exact ⟨c, (hk.iceNego c).trans hn, (hk.utpConnectID c).trans hid,
    (hk.peerAddress c hn).trans hp⟩

/-! ### Negotiation -/

/-- A negotiation registers the channel, comes after one that did, or fails. -/
theorem onICENego_cases (m : UTPManager) (c : ChanId) (isSuccess isRelay : Bool)
    (address : QString) :
    (m.channels c).iceNego = false ∧ isSuccess = true ∨
      m.onICENego c isSuccess isRelay address = m ∨
      (m.channels c).iceNego = false ∧ m.onICENego c isSuccess isRelay address =
        m.setChannel c { m.channels c with peerAddress := address, isRelay, iceNego := false } := by
  cases hn : (m.channels c).iceNego with
  | true => exact Or.inr (Or.inl (by simp [onICENego, hn]))
  | false =>
    cases isSuccess with
    | true => exact Or.inl ⟨rfl, rfl⟩
    | false => exact Or.inr (Or.inr ⟨rfl, by simp [onICENego, hn]⟩)

/-- A failed negotiation registers nothing. -/
theorem Kept.negoFailed {isRelay : Bool} {address : QString} (h : (m.channels c).iceNego = false) :
    Kept m (m.setChannel c
      { m.channels c with peerAddress := address, isRelay, iceNego := false }) := by
  refine setChannel h.symm rfl fun hn => ?_
  rw [h] at hn
  cases hn

/-- The successful negotiation of a channel, written out. -/
theorem onICENego_success {isRelay : Bool} {address : QString}
    (h : (m.channels c).iceNego = false) :
    m.onICENego c true isRelay address =
      { m with
        connID := m.connID + 1
        hashChannels := m.hashChannels.insert address c
        hashIDChannels := m.hashIDChannels.insert (m.connID + 1) c
        channels := Function.update m.channels c
          { m.channels c with
            peerAddress := address, isRelay, utpConnectID := m.connID + 1, iceNego := true }
        outbox := if (m.channels c).isControl then
            m.outbox ++ [.connectToPeer address (m.connID + 1)]
          else m.outbox } := by
  simp only [UTPManager.onICENego, h, Bool.false_eq_true, if_false, if_true, createUtpSocket]
  split <;> simp [UTPManager.setChannel, UTPManager.request, *]

section Negotiated
variable {isRelay : Bool} {address : QString}

/-- A negotiation leaves the other channels alone. -/
theorem onICENego_channels_ne (h : (m.channels c).iceNego = false) {c' : ChanId}
    (hne : c' ≠ c) : (m.onICENego c true isRelay address).channels c' = m.channels c' := by
  rw [onICENego_success h]
  exact Function.update_of_ne hne _ _

/-- A negotiation gives the channel its address and the next id. -/
theorem onICENego_channels_self (h : (m.channels c).iceNego = false) :
    (m.onICENego c true isRelay address).channels c = { m.channels c with
      peerAddress := address, isRelay, utpConnectID := m.connID + 1, iceNego := true } := by
  rw [onICENego_success h]
  exact Function.update_self _ _ _

/-- A negotiated channel of the new state is the new one or an old one. -/
theorem negotiated_cases (h : (m.channels c).iceNego = false) {c' : ChanId}
    (hn : ((m.onICENego c true isRelay address).channels c').iceNego = true) :
    c' = c ∨ c' ≠ c ∧ (m.channels c').iceNego = true := by
  by_cases heq : c' = c
  · exact Or.inl heq
  · rw [onICENego_channels_ne h heq] at hn
    exact Or.inr ⟨heq, hn⟩

/-- A new registration takes the next id. -/
theorem Registry.nego (hreg : Registry m) (h : (m.channels c).iceNego = false) :
    Registry (m.onICENego c true isRelay address) := by
  have hne : ∀ c', (m.channels c').iceNego = true → c' ≠ c := by
    rintro c' hn rfl
    rw [h] at hn
    cases hn
  have hself : (m.onICENego c true isRelay address).channels c = _ :=
    onICENego_channels_self h
  have hother : ∀ {c'}, c' ≠ c →
      (m.onICENego c true isRelay address).channels c' = m.channels c' :=
    fun hc => onICENego_channels_ne h hc
  have hconn : (m.onICENego c true isRelay address).connID = m.connID + 1 := by
    rw [onICENego_success h]
  have hid := hreg.connID
  refine
    { connID := by rw [hconn]; omega
      range := fun c' hn => ?_
      inj := fun c₁ c₂ h₁ h₂ heq => ?_
      byAddr := fun a c' hl => ?_
      byID := fun id c' hl => ?_ }
  · rw [hconn]
    rcases negotiated_cases h hn with rfl | ⟨hc, hold⟩
    · rw [hself]
      exact ⟨show (1 : Int) < m.connID + 1 by omega,
        show m.connID + 1 ≤ m.connID + 1 by omega⟩
    · rw [hother hc]
      have := hreg.range c' hold
      omega
  · -- All ids in use are below the new one.
    rcases negotiated_cases h h₁ with rfl | ⟨hc₁, hold₁⟩
    · rcases negotiated_cases h h₂ with rfl | ⟨hc₂, hold₂⟩
      · rfl
      · rw [hself, hother hc₂] at heq
        have := hreg.range c₂ hold₂
        change m.connID + 1 = _ at heq
        omega
    · rcases negotiated_cases h h₂ with rfl | ⟨hc₂, hold₂⟩
      · rw [hself, hother hc₁] at heq
        have := hreg.range c₁ hold₁
        change _ = m.connID + 1 at heq
        omega
      · rw [hother hc₁, hother hc₂] at heq
        exact hreg.inj c₁ c₂ hold₁ hold₂ heq
  · rw [onICENego_success h] at hl
    rcases QHash.lookup_of_insert hl with ⟨rfl, rfl⟩ | ⟨-, hold⟩
    · rw [hself]
      exact ⟨rfl, rfl⟩
    · -- An older entry is of a channel that negotiated before, whose members stay.
      obtain ⟨hn, hp⟩ := hreg.byAddr a c' hold
      rw [hother (hne c' hn)]
      exact ⟨hn, hp⟩
  · rw [onICENego_success h] at hl
    rcases QHash.lookup_of_insert hl with ⟨rfl, rfl⟩ | ⟨-, hold⟩
    · rw [hself]
      exact ⟨rfl, rfl⟩
    · obtain ⟨hn, hp⟩ := hreg.byID id c' hold
      rw [hother (hne c' hn)]
      exact ⟨hn, hp⟩

/-- A negotiation takes no id from its owner. -/
theorem Owner.nego {id : Int} {a : QString} (ho : Owner m id a)
    (h : (m.channels c).iceNego = false) : Owner (m.onICENego c true isRelay address) id a := by
  obtain ⟨c', hn, hid, hp⟩ := ho
  have hc : c' ≠ c := by
    rintro rfl
    rw [h] at hn
    cases hn
  exact ⟨c', by rw [onICENego_channels_ne h hc]; exact ⟨hn, hid, hp⟩⟩

/-- The new channel owns the new id. -/
theorem owner_nego (h : (m.channels c).iceNego = false) :
    Owner (m.onICENego c true isRelay address) (m.connID + 1) address :=
  ⟨c, by rw [onICENego_channels_self h]; exact ⟨rfl, rfl, rfl⟩⟩

end Negotiated

/-- The id of an owner is in use. -/
theorem Owner.le {id : Int} {a : QString} (ho : Owner m id a) (hreg : Registry m) :
    1 < id ∧ id ≤ m.connID := by
  obtain ⟨c, hn, rfl, -⟩ := ho
  exact hreg.range c hn

/-- An id has one owner, with one address. -/
theorem Owner.addr_eq {id : Int} {a : QString} (ho : Owner m id a) (hreg : Registry m)
    (hn : (m.channels c).iceNego = true) (hid : (m.channels c).utpConnectID = id) :
    (m.channels c).peerAddress = a := by
  obtain ⟨c', hn', hid', hp⟩ := ho
  cases hreg.inj c c' hn hn' (hid.trans hid'.symm)
  exact hp

/-! ### The requests -/

/-- The id of a request belongs to the channel of its address. -/
def OwnedReq (m : UTPManager) : UtpRequest → Prop
  | .connectToPeer peerAddr connectID => Owner m connectID peerAddr
  | .setAcceptConnID peerAddr connectID => Owner m connectID peerAddr
  | _ => True

/-- A request stays owned when the owners stay. -/
theorem OwnedReq.mono {r : UtpRequest} (h : OwnedReq m r)
    (hmono : ∀ id a, Owner m id a → Owner m' id a) : OwnedReq m' r := by
  cases r with
  | connectToPeer a id => exact hmono id a h
  | setAcceptConnID a id => exact hmono id a h
  | _ => trivial

/-- `connectSuccess` requests the packs of its channel only. -/
theorem connectSuccess_outbox (m : UTPManager) (c : ChanId) (a : QString) :
    ∃ reqs, (m.connectSuccess c a).outbox = m.outbox ++ reqs ∧
      ∀ r ∈ reqs, r = .pack a (m.channels c).writeBuf := by
  simp only [UTPManager.connectSuccess]
  split
  · exact ⟨[], by simp [setChannel]⟩
  · split
    · exact ⟨[], by simp [setChannel]⟩
    · exact ⟨[_], rfl, by simp⟩

/-- A slot queues requests that carry owned ids. -/
theorem slot_outbox (hreg : Registry m) (sig : UtpSignal) :
    ∃ reqs, (m.slot sig).outbox = m.outbox ++ reqs ∧ ∀ r ∈ reqs, OwnedReq m r := by
  have hsuccess : ∀ (m' : UTPManager) (c : ChanId) (a : QString) (reqs₀ : List UtpRequest),
      m'.outbox = m.outbox ++ reqs₀ → (∀ r ∈ reqs₀, OwnedReq m r) →
      ∃ reqs, (m'.connectSuccess c a).outbox = m.outbox ++ reqs ∧
        ∀ r ∈ reqs, OwnedReq m r := by
    intro m' c a reqs₀ hout howned
    obtain ⟨reqs, hreqs, hpack⟩ := connectSuccess_outbox m' c a
    refine ⟨reqs₀ ++ reqs, by rw [hreqs, hout, List.append_assoc], fun r hr => ?_⟩
    rcases List.mem_append.mp hr with hold | hnew
    · exact howned r hold
    · rw [hpack r hnew]
      trivial
  generalize hm : m.slot sig = m'
  cases slot_cases hm with
  | utpAccept peerAddr c hl =>
    refine hsuccess _ c peerAddr [.setAcceptConnID peerAddr (m.channels c).utpConnectID] rfl ?_
    intro r hr
    rw [List.mem_singleton.mp hr]
    obtain ⟨hn, hp⟩ := hreg.byAddr peerAddr c hl
    exact ⟨c, hn, rfl, hp⟩
  | utpConnected connectID c hl =>
    exact hsuccess m _ _ [] (List.append_nil _).symm (by simp)
  | _ => exact ⟨[], (List.append_nil _).symm, by simp⟩

end UTPManager

/-- A step of the system negotiates a channel, or it leaves the registry alone. -/
theorem System.step_kept {y y' : System} {a : SysAction} (hreg : y.main.Registry)
    (h : y.step a = some y') :
    UTPManager.Kept y.main y'.main ∨ ∃ c isRelay address, a = .onICENego c true isRelay address ∧
      (y.main.channels c).iceNego = false ∧
      y'.main = y.main.onICENego c true isRelay address := by
  cases System.step_cases h with
  | onICENego c isSuccess isRelay address =>
    rcases y.main.onICENego_cases c isSuccess isRelay address with ⟨hn, rfl⟩ | heq | ⟨hn, heq⟩
    · exact Or.inr ⟨c, isRelay, address, rfl, hn, rfl⟩
    · rw [heq]
      exact Or.inl (UTPManager.Kept.refl _)
    · rw [heq]
      exact Or.inl (UTPManager.Kept.negoFailed hn)
  | onICEReadPkt pkt peerAddr => exact Or.inl (UTPManager.Kept.request _ _)
  | write c data => exact Or.inl (UTPManager.Kept.write _ c data)
  | close c => exact Or.inl (UTPManager.Kept.close _ c)
  | connectSuccess peerAddr c hc =>
    exact Or.inl (UTPManager.Kept.connectSuccess hreg (Or.inr hc))
  | mainSlot sig rest hout => exact Or.inl (UTPManager.Kept.slot hreg sig)
  | utpSlot req rest seed o u hout hu =>
    exact Or.inl ⟨rfl, fun _ _ hl => hl, fun _ _ hl => hl, fun _ => rfl, fun _ => rfl,
      fun _ _ => rfl⟩
  | utpEvent e o u hu => exact Or.inl (UTPManager.Kept.refl _)

end EChannel.LibTrans
