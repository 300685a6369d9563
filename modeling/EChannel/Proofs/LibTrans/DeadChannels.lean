import EChannel.Proofs.LibTrans.Registry

/-!
# `EChannel.Proofs.LibTrans.DeadChannels`: channels that `UTPManager` still refers to

A channel is registered under two keys, its address and its id. `onUtpError` finds the channel
by either key, calls `conncetError` on it, and the session deletes it. The entries it removes
are those of the keys in the signal. The uTP thread reads these two keys off its own tables
when libutp destroys the socket: the address is empty when the socket is no longer stored under
one, and the id is 0 when `setAcceptConnID` has not come through. The entry of the other key
then stays, and refers to a channel that is gone.

`noDeadChannel_iff`: with distinct addresses, the maps refer to no such channel exactly when
every `utpError` for a registered channel carries both its keys.
-/

set_option autoImplicit false

namespace EChannel.LibTrans

open LibUtp

namespace UTPManager

variable {m m' m'' : UTPManager} {c : ChanId}

/-- The maps hold no channel that `conncetError` was called on. -/
def NoDeadChannel (m : UTPManager) : Prop :=
  (∀ a c, m.hashChannels.lookup a = some c → (m.channels c).iceSocket = true) ∧
    ∀ id c, m.hashIDChannels.lookup id = some c → (m.channels c).iceSocket = true

/-- A channel that has negotiated and is not gone. -/
def Attached (m : UTPManager) (c : ChanId) : Prop :=
  (m.channels c).iceNego = true ∧ (m.channels c).iceSocket = true

/-- The channels that are there have distinct addresses, and each is stored under both its keys.
Only negotiated channels can go. -/
structure Attended (m : UTPManager) : Prop where
  registry : Registry m
  noDead : NoDeadChannel m
  entries : ∀ c, Attached m c →
    m.hashChannels.lookup (m.channels c).peerAddress = some c ∧
      m.hashIDChannels.lookup (m.channels c).utpConnectID = some c
  distinct : ∀ c c', Attached m c → Attached m c' →
    (m.channels c).peerAddress = (m.channels c').peerAddress → c = c'
  gone : ∀ c, (m.channels c).iceSocket = false → (m.channels c).iceNego = true

/-- No channel is registered at first. -/
theorem Attended.init {channels : ChanId → TransportChannel}
    (hnew : ∀ c, (channels c).iceNego = false) (hice : ∀ c, (channels c).iceSocket = true) :
    Attended (init channels) where
  registry := Registry.init hnew
  noDead := by
    constructor
    · intro _ _ hl
      cases hl
    · intro _ _ hl
      cases hl
  entries c hc := by
    have hn : (channels c).iceNego = true := hc.1
    rw [hnew c] at hn
    cases hn
  distinct c _ hc := by
    have hn : (channels c).iceNego = true := hc.1
    rw [hnew c] at hn
    cases hn
  gone c hgone := by
    have hs : (channels c).iceSocket = false := hgone
    rw [hice c] at hs
    cases hs

/-! ### Steps that neither register nor retire a channel -/

/-- The maps are the same, and no channel goes. -/
structure Still (m m' : UTPManager) : Prop where
  hashChannels : m'.hashChannels = m.hashChannels
  hashIDChannels : m'.hashIDChannels = m.hashIDChannels
  iceSocket : ∀ c, (m'.channels c).iceSocket = (m.channels c).iceSocket

namespace Still

/-- A manager that does not change. -/
theorem refl (m : UTPManager) : Still m m := ⟨rfl, rfl, fun _ => rfl⟩

/-- Two changes in a row. -/
theorem trans (h : Still m m') (h' : Still m' m'') : Still m m'' where
  hashChannels := h'.hashChannels.trans h.hashChannels
  hashIDChannels := h'.hashIDChannels.trans h.hashIDChannels
  iceSocket c := (h'.iceSocket c).trans (h.iceSocket c)

/-- A request keeps the maps. -/
theorem request (m : UTPManager) (r : UtpRequest) : Still m (m.request r) :=
  ⟨rfl, rfl, fun _ => rfl⟩

/-- A channel that keeps its ICE socket. -/
theorem setChannel {ch : TransportChannel} (hice : ch.iceSocket = (m.channels c).iceSocket) :
    Still m (m.setChannel c ch) := by
  refine ⟨rfl, rfl, fun c' => ?_⟩
  by_cases heq : c' = c
  · subst heq
    simpa [UTPManager.setChannel] using hice
  · simp [UTPManager.setChannel, Function.update_of_ne heq]

/-- `write` keeps the maps. -/
theorem write (m : UTPManager) (c : ChanId) (data : QByteArray) : Still m (m.write c data) := by
  simp only [UTPManager.write]
  split
  · exact setChannel rfl
  · refine trans ?_ (request _ _)
    exact setChannel rfl

/-- `close` keeps the maps. -/
theorem close (m : UTPManager) (c : ChanId) : Still m (m.close c) := by
  simp only [UTPManager.close]
  split
  · exact refl m
  · refine trans ?_ (request _ _)
    exact setChannel rfl

/-- `connectSuccess` keeps the maps. -/
theorem connectSuccess (m : UTPManager) (c : ChanId) (a : QString) :
    Still m (m.connectSuccess c a) := by
  simp only [UTPManager.connectSuccess]
  split
  · exact setChannel rfl
  · split
    · exact setChannel rfl
    · refine trans ?_ (request _ _)
      exact setChannel rfl

end Still

/-- An entry stays: nothing is registered, and no channel goes. -/
theorem Attended.still (h : Attended m) (hk : Kept m m') (hs : Still m m') : Attended m' := by
  have hback : ∀ c, Attached m' c → Attached m c := by
    intro c hc
    exact ⟨(hk.iceNego c).symm.trans hc.1, (hs.iceSocket c).symm.trans hc.2⟩
  have hpeer : ∀ c, Attached m' c → (m'.channels c).peerAddress = (m.channels c).peerAddress :=
    fun c hc => hk.peerAddress c (hback c hc).1
  refine
    { registry := h.registry.kept hk
      noDead := ⟨fun a c hl => ?_, fun id c hl => ?_⟩
      entries := fun c hc => ?_
      distinct := fun c c' hc hc' heq => ?_
      gone := fun c hgone => ?_ }
  · rw [hs.hashChannels] at hl
    exact (hs.iceSocket c).trans (h.noDead.1 a c hl)
  · rw [hs.hashIDChannels] at hl
    exact (hs.iceSocket c).trans (h.noDead.2 id c hl)
  · rw [hpeer c hc, hk.utpConnectID, hs.hashChannels, hs.hashIDChannels]
    exact h.entries c (hback c hc)
  · rw [hpeer c hc, hpeer c' hc'] at heq
    exact h.distinct c c' (hback c hc) (hback c' hc') heq
  · rw [hs.iceSocket] at hgone
    exact (hk.iceNego c).trans (h.gone c hgone)

/-! ### Negotiation -/

/-- A channel that is there is not registered at the address, unless it is `c`. -/
def FreshAddr (m : UTPManager) (c : ChanId) (address : QString) : Prop :=
  ∀ c', c' ≠ c → Attached m c' → (m.channels c').peerAddress ≠ address

/-- A new registration, at an address that is not in use. -/
theorem Attended.nego {isRelay : Bool} {address : QString} (h : Attended m)
    (hn : (m.channels c).iceNego = false) (hfresh : FreshAddr m c address) :
    Attended (m.onICENego c true isRelay address) := by
  have hself : (m.onICENego c true isRelay address).channels c = _ := onICENego_channels_self hn
  have hother : ∀ {c'}, c' ≠ c →
      (m.onICENego c true isRelay address).channels c' = m.channels c' :=
    fun hc => onICENego_channels_ne hn hc
  -- The channel that negotiates is not gone.
  have hice : (m.channels c).iceSocket = true := by
    cases hs : (m.channels c).iceSocket with
    | true => rfl
    | false => exact absurd (h.gone c hs) (by simp [hn])
  have hsocket : ∀ c', ((m.onICENego c true isRelay address).channels c').iceSocket =
      (m.channels c').iceSocket := by
    intro c'
    by_cases heq : c' = c
    · rw [heq, hself]
    · rw [hother heq]
  have hold : ∀ {c'}, c' ≠ c → Attached (m.onICENego c true isRelay address) c' →
      Attached m c' := by
    intro c' hne hc'
    rw [Attached, hother hne] at hc'
    exact hc'
  have hpeer : ((m.onICENego c true isRelay address).channels c).peerAddress = address := by
    rw [hself]
  have hid : ((m.onICENego c true isRelay address).channels c).utpConnectID = m.connID + 1 := by
    rw [hself]
  have hchans : (m.onICENego c true isRelay address).hashChannels =
      m.hashChannels.insert address c := by rw [onICENego_success hn]
  have hids : (m.onICENego c true isRelay address).hashIDChannels =
      m.hashIDChannels.insert (m.connID + 1) c := by rw [onICENego_success hn]
  refine
    { registry := h.registry.nego hn
      noDead := ⟨fun a c' hl => ?_, fun id c' hl => ?_⟩
      entries := fun c' hc' => ?_
      distinct := fun c₁ c₂ h₁ h₂ heq => ?_
      gone := fun c' hgone => ?_ }
  · rw [hchans] at hl
    rw [hsocket]
    rcases QHash.lookup_of_insert hl with ⟨-, rfl⟩ | ⟨-, hold⟩
    · exact hice
    · exact h.noDead.1 a c' hold
  · rw [hids] at hl
    rw [hsocket]
    rcases QHash.lookup_of_insert hl with ⟨-, rfl⟩ | ⟨-, hold⟩
    · exact hice
    · exact h.noDead.2 id c' hold
  · by_cases hc : c' = c
    · subst hc
      rw [hpeer, hid, hchans, hids]
      exact ⟨AList.lookup_insert _, AList.lookup_insert _⟩
    · -- The new id is beyond those in use, and the new address is free.
      have hatt := hold hc hc'
      have hrange := h.registry.range c' hatt.1
      rw [hother hc, hchans, hids, AList.lookup_insert_ne (hfresh c' hc hatt),
        AList.lookup_insert_ne (by omega)]
      exact h.entries c' hatt
  · by_cases hc₁ : c₁ = c
    · by_cases hc₂ : c₂ = c
      · exact hc₁.trans hc₂.symm
      · rw [hc₁, hpeer, hother hc₂] at heq
        exact absurd heq.symm (hfresh c₂ hc₂ (hold hc₂ h₂))
    · by_cases hc₂ : c₂ = c
      · rw [hc₂, hpeer, hother hc₁] at heq
        exact absurd heq (hfresh c₁ hc₁ (hold hc₁ h₁))
      · rw [hother hc₁, hother hc₂] at heq
        exact h.distinct c₁ c₂ (hold hc₁ h₁) (hold hc₂ h₂) heq
  · rw [hsocket] at hgone
    by_cases hc : c' = c
    · rw [hc, hice] at hgone
      cases hgone
    · rw [hother hc]
      exact h.gone c' hgone

/-! ### Errors -/

/-- The signal carries the address and the id of the channel that it is reported to, if there
is one. -/
def NamesBothKeys (m : UTPManager) (peerAddr : QString) (connectID : Int) : Prop :=
  ∀ c, m.errorChannel peerAddr connectID = some c →
    peerAddr = (m.channels c).peerAddress ∧ connectID = (m.channels c).utpConnectID

/-- The channel of an error is registered. -/
theorem Attended.errorChannel (h : Attended m) {peerAddr : QString} {connectID : Int}
    (hl : m.errorChannel peerAddr connectID = some c) : Attached m c := by
  unfold UTPManager.errorChannel at hl
  rcases Option.or_eq_some_iff.mp hl with hid | ⟨-, haddr⟩
  · exact ⟨(h.registry.byID connectID c hid).1, h.noDead.2 connectID c hid⟩
  · exact ⟨(h.registry.byAddr peerAddr c haddr).1, h.noDead.1 peerAddr c haddr⟩

/-- A signal that nobody is registered for removes nothing. -/
theorem Attended.errorUnknown (h : Attended m) {peerAddr : QString} {connectID : Int}
    (hl : m.errorChannel peerAddr connectID = none) : Attended { m with
      hashIDChannels := m.hashIDChannels.erase connectID
      hashChannels := m.hashChannels.erase peerAddr } := by
  unfold UTPManager.errorChannel at hl
  rw [Option.or_eq_none_iff] at hl
  -- No attached channel has either key, so the entries that go are of none.
  have hnone : ∀ c, Attached m c → (m.channels c).peerAddress ≠ peerAddr ∧
      (m.channels c).utpConnectID ≠ connectID := by
    intro c hc
    obtain ⟨haddr, hid⟩ := h.entries c hc
    constructor
    · intro heq
      rw [heq, hl.2] at haddr
      cases haddr
    · intro heq
      rw [heq, hl.1] at hid
      cases hid
  exact
    { registry := h.registry.kept (Kept.erase m peerAddr connectID)
      noDead := ⟨fun a c hl' => h.noDead.1 a c (QHash.lookup_of_erase hl'),
        fun id c hl' => h.noDead.2 id c (QHash.lookup_of_erase hl')⟩
      entries := fun c hc => by
        obtain ⟨haddr, hid⟩ := hnone c hc
        exact ⟨(AList.lookup_erase_ne haddr).trans (h.entries c hc).1,
          (AList.lookup_erase_ne hid).trans (h.entries c hc).2⟩
      distinct := h.distinct
      gone := h.gone }

/-- The state after an error: the entries of both keys are gone, and so is the channel. -/
def retired (m : UTPManager) (c : ChanId) (peerAddr : QString) (connectID : Int) : UTPManager :=
  conncetError { m with
    hashIDChannels := m.hashIDChannels.erase connectID
    hashChannels := m.hashChannels.erase peerAddr } c

/-- A retired channel has no ICE socket. -/
theorem retired_channels_self (m : UTPManager) (c : ChanId) (peerAddr : QString)
    (connectID : Int) :
    (m.retired c peerAddr connectID).channels c = { m.channels c with iceSocket := false } :=
  Function.update_self _ _ _

/-- The other channels are as they were. -/
theorem retired_channels_ne {c' : ChanId} (hne : c' ≠ c) (peerAddr : QString) (connectID : Int) :
    (m.retired c peerAddr connectID).channels c' = m.channels c' :=
  Function.update_of_ne hne _ _

/-- A channel that is retired keeps its address and its id. -/
theorem Kept.retired (m : UTPManager) (c : ChanId) (peerAddr : QString) (connectID : Int) :
    Kept m (m.retired c peerAddr connectID) := by
  refine trans (erase m peerAddr connectID) ?_
  exact setChannel rfl rfl fun _ => rfl

/-- An error with both keys takes the channel out of both maps, and no other. -/
theorem Attended.retired (h : Attended m) (hc : Attached m c) :
    Attended (m.retired c (m.channels c).peerAddress (m.channels c).utpConnectID) := by
  -- The retired channel is attached no more, and the others are as before.
  have hne : ∀ {c'}, Attached
      (m.retired c (m.channels c).peerAddress (m.channels c).utpConnectID) c' → c' ≠ c := by
    rintro c' hc' rfl
    rw [Attached, retired_channels_self] at hc'
    cases hc'.2
  have hold : ∀ {c'}, Attached
      (m.retired c (m.channels c).peerAddress (m.channels c).utpConnectID) c' →
      Attached m c' := by
    intro c' hc'
    rw [Attached, retired_channels_ne (hne hc')] at hc'
    exact hc'
  refine
    { registry := h.registry.kept (Kept.retired m c _ _)
      noDead := ⟨fun a c' hl => ?_, fun id c' hl => ?_⟩
      entries := fun c' hc' => ?_
      distinct := fun c₁ c₂ h₁ h₂ heq => ?_
      gone := fun c' hgone => ?_ }
  · have hlook := QHash.lookup_of_erase hl
    have hne' : c' ≠ c := by
      rintro rfl
      exact QHash.ne_of_lookup_erase hl (h.registry.byAddr a c' hlook).2.symm
    rw [retired_channels_ne hne']
    exact h.noDead.1 a c' hlook
  · have hlook := QHash.lookup_of_erase hl
    have hne' : c' ≠ c := by
      rintro rfl
      exact QHash.ne_of_lookup_erase hl (h.registry.byID id c' hlook).2.symm
    rw [retired_channels_ne hne']
    exact h.noDead.2 id c' hlook
  · have hatt := hold hc'
    rw [retired_channels_ne (hne hc')]
    -- Both entries of an attached channel differ from those that are erased.
    have haddr : (m.channels c').peerAddress ≠ (m.channels c).peerAddress := fun heq =>
      hne hc' (h.distinct c' c hatt hc heq)
    have hid : (m.channels c').utpConnectID ≠ (m.channels c).utpConnectID := fun heq =>
      hne hc' (h.registry.inj c' c hatt.1 hc.1 heq)
    exact ⟨(AList.lookup_erase_ne haddr).trans (h.entries c' hatt).1,
      (AList.lookup_erase_ne hid).trans (h.entries c' hatt).2⟩
  · rw [retired_channels_ne (hne h₁), retired_channels_ne (hne h₂)] at heq
    exact h.distinct c₁ c₂ (hold h₁) (hold h₂) heq
  · by_cases heq : c' = c
    · rw [heq, retired_channels_self]
      exact hc.1
    · rw [retired_channels_ne heq] at hgone ⊢
      exact h.gone c' hgone

/-- Without one of the keys, the entry of that key stays. -/
theorem Attended.names_of_noDead (h : Attended m) (hc : Attached m c) {peerAddr : QString}
    {connectID : Int} (hnd : NoDeadChannel (m.retired c peerAddr connectID)) :
    peerAddr = (m.channels c).peerAddress ∧ connectID = (m.channels c).utpConnectID := by
  -- `onUtpError` removes the keys of the signal, and the channel is stored under its own.
  obtain ⟨haddr, hid⟩ := h.entries c hc
  have hdead : ((m.retired c peerAddr connectID).channels c).iceSocket = false := by
    rw [retired_channels_self]
  constructor
  · by_contra hne
    have hstays : (m.hashChannels.erase peerAddr).lookup (m.channels c).peerAddress = some c :=
      (AList.lookup_erase_ne (Ne.symm hne)).trans haddr
    have := hnd.1 _ c hstays
    rw [hdead] at this
    cases this
  · by_contra hne
    have hstays : (m.hashIDChannels.erase connectID).lookup (m.channels c).utpConnectID =
        some c := (AList.lookup_erase_ne (Ne.symm hne)).trans hid
    have := hnd.2 _ c hstays
    rw [hdead] at this
    cases this

/-- A slot keeps the invariant, if an error carries both keys. -/
theorem Attended.slot (h : Attended m) (sig : UtpSignal)
    (hkeys : ∀ peerAddr connectID, sig = .utpError peerAddr connectID →
      NamesBothKeys m peerAddr connectID) : Attended (m.slot sig) := by
  have hk : Kept m (m.slot sig) := Kept.slot h.registry sig
  revert hk
  generalize hm : m.slot sig = m'
  intro hk
  cases slot_cases hm with
  | reqUDPSend peerAddr pkt c hl => exact h.still hk ⟨rfl, rfl, fun _ => rfl⟩
  | utpRecv connectID buf c hl => exact h.still hk (Still.setChannel rfl)
  | utpAccept peerAddr c hl =>
    exact h.still hk ((Still.request m _).trans (Still.connectSuccess _ c peerAddr))
  | acceptFailed peerAddr hl => exact h.still hk ⟨rfl, rfl, fun _ => rfl⟩
  | utpConnected connectID c hl => exact h.still hk (Still.connectSuccess m c _)
  | utpError peerAddr connectID c hl =>
    obtain ⟨haddr, hid⟩ := hkeys peerAddr connectID rfl c hl
    rw [haddr, hid]
    exact h.retired (h.errorChannel hl)
  | errorUnknown peerAddr connectID hl => exact h.errorUnknown hl
  | dropped => exact h

end UTPManager

/-! ### Runs -/

namespace System

variable {y y' : System}

/-- A negotiation does not give a channel the address of another one that is there. -/
def DistinctAddr (y : System) : SysAction → Prop
  | .onICENego c true _ address => y.main.FreshAddr c address
  | _ => True

/-- A `utpError` that a channel is registered for carries the address and the id of that
channel. -/
def ErrorNamesBothKeys (y : System) : SysAction → Prop
  | .mainSlot => ∀ peerAddr connectID rest, y.utp.outbox = .utpError peerAddr connectID :: rest →
    y.main.NamesBothKeys peerAddr connectID
  | _ => True

/-- The step lemma: with distinct addresses, and errors that name both keys. -/
theorem step_attended {a : SysAction} (h : y.main.Attended) (hd : DistinctAddr y a)
    (hst : y.step a = some y') (hkeys : ErrorNamesBothKeys y a) : y'.main.Attended := by
  cases System.step_cases hst with
  | onICENego c isSuccess isRelay address =>
    rcases y.main.onICENego_cases c isSuccess isRelay address with
      ⟨hn, rfl⟩ | heq | ⟨hn, heq⟩
    · exact h.nego hn hd
    · rw [heq]
      exact h
    · rw [heq]
      exact h.still (UTPManager.Kept.negoFailed hn) (UTPManager.Still.setChannel rfl)
  | onICEReadPkt pkt peerAddr =>
    exact h.still (UTPManager.Kept.request _ _) (UTPManager.Still.request _ _)
  | write c data => exact h.still (UTPManager.Kept.write _ c data) (UTPManager.Still.write _ c data)
  | close c => exact h.still (UTPManager.Kept.close _ c) (UTPManager.Still.close _ c)
  | connectSuccess peerAddr c hc =>
    exact h.still (UTPManager.Kept.connectSuccess h.registry (Or.inr hc))
      (UTPManager.Still.connectSuccess _ c peerAddr)
  | mainSlot sig rest hout =>
    refine h.slot sig fun peerAddr connectID hsig => ?_
    exact hkeys peerAddr connectID rest (hsig ▸ hout)
  | utpSlot req rest seed o u hout hu =>
    exact h.still ⟨rfl, fun _ _ hl => hl, fun _ _ hl => hl, fun _ => rfl, fun _ => rfl,
      fun _ _ => rfl⟩ ⟨rfl, rfl, fun _ => rfl⟩
  | utpEvent e o u hu => exact h

/-- A step that leaves no dead channel behind handled no error with one key. -/
theorem errorNamesBothKeys_of_noDead {a : SysAction} (h : y.main.Attended)
    (hst : y.step a = some y') (hnd : y'.main.NoDeadChannel) : ErrorNamesBothKeys y a := by
  cases System.step_cases hst with
  | mainSlot sig rest hout =>
    intro peerAddr connectID rest' hout' c hl
    rw [hout] at hout'
    cases hout'
    have hslot : y.main.slot (.utpError peerAddr connectID) =
        y.main.retired c peerAddr connectID := by
      simp only [UTPManager.slot, UTPManager.onUtpError, hl]
      rfl
    rw [hslot] at hnd
    exact h.names_of_noDead (h.errorChannel hl) hnd
  | _ => trivial

/-- In a run with distinct addresses, no state has a dead channel in `m_hashChannels` or
`m_hashIDChannels` exactly when every `utpError` for a registered channel carries both keys of
that channel. -/
theorem noDeadChannel_iff (role : ChanId → Bool) (garbage : ChanId → Int) (as : List SysAction)
    (u : System) (hrun : run step (init (newChannels role garbage)) as = some u)
    (hd : AllSteps step DistinctAddr (init (newChannels role garbage)) as) :
    Always step (fun y => y.main.NoDeadChannel) (init (newChannels role garbage)) as ↔
      AllSteps step ErrorNamesBothKeys (init (newChannels role garbage)) as :=
  always_iff_allSteps_of (fun _ _ _ h hdist hst hkeys => step_attended h hdist hst hkeys)
    (fun _ h => h.noDead)
    (fun _ _ _ h _ hst hnd => errorNamesBothKeys_of_noDead h hst hnd) as _ u
    (UTPManager.Attended.init (fun _ => rfl) fun _ => rfl) hd hrun

/-- The first negotiation meets nobody. -/
theorem freshAddr_init (role : ChanId → Bool) (garbage : ChanId → Int) (c : ChanId)
    (address : QString) : (UTPManager.init (newChannels role garbage)).FreshAddr c address := by
  intro c' _ hc'
  cases hc'.1

/-- A connection is accepted, gets its id, and ends. -/
theorem noDeadChannel_iff_accepted :
    Always step (fun y => y.main.NoDeadChannel) (init (newChannels (fun _ => false) fun _ => 0))
      [.onICENego 0 true false ['a', ':'], .utpEvent (.accept ['a', ':'] 5) [], .mainSlot,
        .mainSlot, .utpSlot 0 [], .utpEvent (.eof 0) [], .utpEvent (.expire 0) [],
        .utpEvent (.destroying 0) [], .mainSlot] := by
  refine (noDeadChannel_iff _ _ _ _ rfl ?_).mpr ?_
  · refine AllSteps.cons (freshAddr_init _ _ 0 _) rfl ?_
    iterate 8 refine AllSteps.cons trivial rfl ?_
    trivial
  · iterate 2 refine AllSteps.cons trivial rfl ?_
    iterate 2 refine AllSteps.cons (fun peerAddr connectID rest hout => by cases hout) rfl ?_
    iterate 4 refine AllSteps.cons trivial rfl ?_
    refine AllSteps.cons (fun peerAddr connectID rest hout c hc => ?_) rfl trivial
    cases hout
    cases hc
    exact ⟨rfl, rfl⟩

/-- The connection ends before `setAcceptConnID` has come through. The signal carries the id 0,
and `m_hashIDChannels` keeps the channel. -/
theorem not_noDeadChannel_lateAcceptConnID :
    ∃ u, run step (init (newChannels (fun _ => false) fun _ => 0))
        [.onICENego 0 true false ['a', ':'], .utpEvent (.accept ['a', ':'] 5) [],
          .utpEvent (.eof 0) [], .utpEvent (.expire 0) [], .utpEvent (.destroying 0) [],
          .mainSlot, .mainSlot, .mainSlot] = some u ∧
      AllSteps step DistinctAddr (init (newChannels (fun _ => false) fun _ => 0))
        [.onICENego 0 true false ['a', ':'], .utpEvent (.accept ['a', ':'] 5) [],
          .utpEvent (.eof 0) [], .utpEvent (.expire 0) [], .utpEvent (.destroying 0) [],
          .mainSlot, .mainSlot, .mainSlot] ∧
      ¬ u.main.NoDeadChannel := by
  refine ⟨_, rfl, ?_, fun hnd => ?_⟩
  · refine AllSteps.cons (freshAddr_init _ _ 0 _) rfl ?_
    iterate 7 refine AllSteps.cons trivial rfl ?_
    trivial
  · cases hnd.2 2 0 rfl

end System

end EChannel.LibTrans
