import EChannel.LibRdp.RdpSimHandler

/-!
# `EChannel.Proofs.LibRdp.Viewers`: which handler takes a viewer connection

Every handler is connected to `newConn`, and a handler takes the connection when its
`m_socketDescriptor` is 0. It asks neither for its role nor for a viewer, and the server cannot
tell which viewer has connected. A handler that has not been started, or that serves the
controlled side, takes the connection of another session's viewer, and two handlers that wait
take the same one.

`viewersApart_iff` is the exact condition. At each connection one handler at most waits, in the
control role, with a viewer and without a `SimSocket`; and `start` in the other role is called
for a connected channel without a `SimSocket` only. The latter fails too when the channel
reports `connected()` a second time: `m_isStartFailed` is still set, and `start` runs again.

A step calls one handler, which makes a `SimSocket` (`Made`) or not (`Kept`), or it is one of
`initChannel`, `newConn` and `onError`.
-/

set_option autoImplicit false

namespace EChannel.LibRdp

/-! ### One handler -/

namespace RdpSimHandler

variable {h h' : RdpSimHandler}

/-- The handler has the `SimSocket` it had. -/
structure Kept (h h' : RdpSimHandler) : Prop where
  isSome : h'.simSocket.isSome = h.simSocket.isSome
  simSockets : h'.simSockets = h.simSockets

/-- The handler makes a `SimSocket`. -/
structure Made (h h' : RdpSimHandler) : Prop where
  isSome : h'.simSocket.isSome = true
  simSockets : h'.simSockets = h.simSockets + 1

/-- The handler has made its `SimSocket` once, or not at all. -/
def Single (h : RdpSimHandler) : Prop := h.simSockets = if h.simSocket.isSome then 1 else 0

/-- A handler makes one `SimSocket` at most. -/
theorem Single.le_one (hs : Single h) : h.simSockets ≤ 1 := by
  rw [hs]
  split <;> omega

/-- A handler that keeps its `SimSocket` made no second one. -/
theorem Single.kept (hs : Single h) (hk : Kept h h') : Single h' := by
  rw [Single, hk.isSome, hk.simSockets]
  exact hs

/-- The first `SimSocket` of a handler is the only one. -/
theorem Single.made (hs : Single h) (hm : Made h h') (hnone : h.simSocket = none) :
    Single h' := by
  rw [Single, hm.isSome, hm.simSockets, hs, hnone]
  rfl

/-- A second `SimSocket` would count. -/
theorem Single.none_of_made (hs : Single h) (hm : Made h h') (hle : h'.simSockets ≤ 1) :
    h.simSocket = none := by
  cases hsim : h.simSocket with
  | none => rfl
  | some s =>
    rw [hm.simSockets, hs, hsim] at hle
    simp at hle

/-- `close` makes no `SimSocket`. -/
theorem kept_close (h : RdpSimHandler) : Kept h h.close := by
  unfold close
  split <;> exact ⟨rfl, rfl⟩

/-- `flush` makes no `SimSocket`. -/
theorem kept_flush (h : RdpSimHandler) : Kept h h.flush := by
  unfold flush
  split
  · rename_i s hs
    exact ⟨by rw [hs]; rfl, rfl⟩
  · exact ⟨rfl, rfl⟩

/-- `onRead` makes no `SimSocket`. -/
theorem kept_onRead (h : RdpSimHandler) (buf : QByteArray) : Kept h (h.onRead buf) := by
  have := kept_flush { h with rcvBuf := h.rcvBuf ++ buf }
  exact ⟨this.isSome, this.simSockets⟩

/-- `onSimConnected` makes no `SimSocket`. -/
theorem kept_onSimConnected (h : RdpSimHandler) : Kept h h.onSimConnected := by
  unfold onSimConnected
  split
  · exact ⟨rfl, rfl⟩
  · exact kept_flush h

/-- `startVNCViewer` makes no `SimSocket`. -/
theorem kept_startVNCViewer (h : RdpSimHandler) (programExists : Bool) :
    Kept h (h.startVNCViewer programExists) := by
  unfold startVNCViewer
  split
  · exact ⟨rfl, rfl⟩
  · exact kept_close h

/-- `start` makes a `SimSocket` in the controlled role, for a connected channel. -/
theorem start_cases (h : RdpSimHandler) (isControl programExists : Bool) :
    h.isConnected = true ∧ isControl = false ∧ Made h (h.start isControl programExists) ∨
      ¬ (h.isConnected = true ∧ isControl = false) ∧ Kept h (h.start isControl programExists) := by
  by_cases hc : h.isConnected = true
  · cases isControl with
    | true =>
      have heq : h.start true programExists =
          startVNCViewer { h with isControl := true } programExists := by simp [start, hc]
      have hk := kept_startVNCViewer { h with isControl := true } programExists
      rw [heq]
      exact Or.inr ⟨by simp, hk.isSome, hk.simSockets⟩
    | false =>
      have heq : h.start false programExists = createSimSocket { h with isControl := false } 0 := by
        simp [start, hc]
      rw [heq]
      exact Or.inl ⟨hc, rfl, rfl, rfl⟩
  · have heq : h.start isControl programExists =
        { h with isControl, isStartFailed := true } := by simp [start, hc]
    rw [heq]
    exact Or.inr ⟨fun hboth => hc hboth.1, rfl, rfl⟩

/-- `onConnected` repeats a `start` that has failed. -/
theorem onConnected_cases (h : RdpSimHandler) (programExists : Bool) :
    h.isStartFailed = true ∧ h.isControl = false ∧ Made h (h.onConnected programExists) ∨
      ¬ (h.isStartFailed = true ∧ h.isControl = false) ∧ Kept h (h.onConnected programExists) := by
  by_cases hf : h.isStartFailed = true
  · have heq : h.onConnected programExists =
        start { h with isConnected := true } h.isControl programExists := by
      simp [onConnected, hf]
    rw [heq]
    rcases start_cases { h with isConnected := true } h.isControl programExists with
      ⟨-, hctl, hm⟩ | ⟨hno, hk⟩
    · exact Or.inl ⟨hf, hctl, hm.isSome, hm.simSockets⟩
    · exact Or.inr ⟨fun hc => hno ⟨rfl, hc.2⟩, hk.isSome, hk.simSockets⟩
  · have heq : h.onConnected programExists = { h with isConnected := true } := by
      simp [onConnected, hf]
    rw [heq]
    exact Or.inr ⟨fun hboth => hf hboth.1, rfl, rfl⟩

/-- `onNewSimConnection` makes a `SimSocket` for the first descriptor, and does nothing for a
second. -/
theorem onNewSimConnection_cases (h : RdpSimHandler) (socketDescriptor : Int) :
    h.socketDescriptor = 0 ∧ Made h (h.onNewSimConnection socketDescriptor) ∨
      h.socketDescriptor ≠ 0 ∧ h.onNewSimConnection socketDescriptor = h := by
  unfold onNewSimConnection
  split
  · rename_i hz
    exact Or.inl ⟨hz, rfl, rfl⟩
  · rename_i hz
    exact Or.inr ⟨hz, rfl⟩

end RdpSimHandler

open RdpSimHandler

namespace RdpInstance

variable {m m' : RdpInstance}

/-! ### The property -/

/-- A connection is taken by one handler at most, in the control role and with a viewer, and no
handler replaces its `SimSocket`. -/
structure ViewersApart (m : RdpInstance) : Prop where
  once : ∀ x ∈ m.adoptions, ∀ y ∈ m.adoptions, x.conn = y.conn → x.handler = y.handler
  byControl : ∀ x ∈ m.adoptions, x.isControl = true ∧ x.viewerProcess = true
  noReplace : ∀ id h, m.objects id = some h → h.simSockets ≤ 1

/-! ### The condition -/

/-- The handler takes the next connection. -/
def Waits (m : RdpInstance) (id : HandlerId) (h : RdpSimHandler) : Prop :=
  id ∈ m.slots ∧ m.objects id = some h ∧ h.socketDescriptor = 0

/-- A session that is started in the controlled role, with its channel connected, has no
`SimSocket` yet. -/
def StartsFresh (m : RdpInstance) (sessionId : QString) : Prop :=
  ∀ id h, m.handlers.lookup sessionId = some id → m.objects id = some h →
    h.isConnected = true → h.simSocket = none

/-- One handler at most waits for a viewer, and it has launched one. A `SimSocket` is made for a
handler without one. -/
def ServesOne (m : RdpInstance) : RdpAction → Prop
  | .sendRDPAssitant sessionId _ => m.StartsFresh sessionId
  | .recvRDPControl sessionId _ => m.StartsFresh sessionId
  | .channelConnected id _ => ∀ h, m.objects id = some h → h.isStartFailed = true →
    h.isControl = false → h.simSocket = none
  | .newConn _ => (∀ id h id' h', m.Waits id h → m.Waits id' h' → id = id') ∧
    ∀ id h, m.Waits id h → h.isControl = true ∧ h.viewerProcess = true ∧ h.simSocket = none
  | _ => True

/-! ### The steps -/

/-- The steps: a call of one handler that makes no `SimSocket`, one that does, which the
condition is about, and the three that concern the handlers as a whole. -/
inductive RdpStep (m : RdpInstance) : RdpAction → RdpInstance → Prop
  | same (a : RdpAction) (hok : m.ServesOne a) : RdpStep m a m
  | kept (a : RdpAction) (id : HandlerId) (h h' : RdpSimHandler) (hok : m.ServesOne a)
    (ho : m.objects id = some h) (hk : Kept h h') : RdpStep m a (m.setHandler id h')
  | made (a : RdpAction) (id : HandlerId) (h h' : RdpSimHandler) (ho : m.objects id = some h)
    (hm : Made h h') (hiff : m.ServesOne a ↔ h.simSocket = none) :
    RdpStep m a (m.setHandler id h')
  | created (sessionId : QString) (isControl isConnected : Bool)
    (hnone : m.handlers.lookup sessionId = none) :
    RdpStep m (.initChannel sessionId isControl isConnected)
      { m.setHandler m.nextHandler (RdpSimHandler.new sessionId isControl isConnected) with
        handlers := m.handlers.insert sessionId m.nextHandler
        nextHandler := m.nextHandler + 1
        slots := m.slots ++ [m.nextHandler] }
  | newConn (socketDescriptor : Int) :
    RdpStep m (.newConn socketDescriptor) (m.newConn socketDescriptor)
  | deleted (id₀ id : HandlerId) (sessionId : QString) : RdpStep m (.channelError id₀)
      { m with
        handlers := m.handlers.erase sessionId
        objects := Function.update m.objects id none
        slots := m.slots.erase id }

/-- A call of the handler of a session. -/
theorem callSession_cases (sessionId : QString) (f : RdpSimHandler → RdpSimHandler) :
    (∃ id h, m.handlers.lookup sessionId = some id ∧ m.objects id = some h ∧
        m.callSession sessionId f = m.setHandler id (f h)) ∨
      (∀ id h, m.handlers.lookup sessionId = some id → m.objects id ≠ some h) ∧
        m.callSession sessionId f = m := by
  unfold callSession call
  cases hl : m.handlers.lookup sessionId with
  | none =>
    refine Or.inr ⟨fun id h hid => ?_, rfl⟩
    cases hid
  | some id =>
    cases ho : m.objects id with
    | none =>
      refine Or.inr ⟨fun id' h hid => ?_, by simp only [ho]⟩
      cases hid
      rw [ho]
      simp
    | some h => exact Or.inl ⟨id, h, rfl, ho, by simp only [ho]⟩

/-- A session that is started in the controlled role. -/
theorem initConnection_controlled {a : RdpAction} {sessionId : QString} (programExists : Bool)
    (ha : m.ServesOne a ↔ m.StartsFresh sessionId) :
    RdpStep m a (m.initConnection sessionId false programExists) := by
  unfold initConnection
  rcases m.callSession_cases sessionId fun h => h.start false programExists with
    ⟨id, h, hl, ho, heq⟩ | ⟨hno, heq⟩
  · rw [heq]
    rcases h.start_cases false programExists with ⟨hc, -, hm⟩ | ⟨hc, hk⟩
    · refine .made a id h _ ho hm (ha.trans ⟨fun hf => hf id h hl ho hc, fun hnone => ?_⟩)
      intro id' h' hl' ho' _
      cases hl.symm.trans hl'
      cases ho.symm.trans ho'
      exact hnone
    · refine .kept a id h _ (ha.mpr fun id' h' hl' ho' hc' => ?_) ho hk
      cases hl.symm.trans hl'
      cases ho.symm.trans ho'
      exact absurd ⟨hc', rfl⟩ hc
  · rw [heq]
    exact .same a (ha.mpr fun id h hl ho _ => absurd ho (hno id h hl))

/-- A call that makes no `SimSocket`, in a step that the condition does not concern. -/
theorem callSession_kept {a : RdpAction} {sessionId : QString}
    {f : RdpSimHandler → RdpSimHandler} (hok : m.ServesOne a) (hf : ∀ h, Kept h (f h)) :
    RdpStep m a (m.callSession sessionId f) := by
  rcases m.callSession_cases sessionId f with ⟨id, h, -, ho, heq⟩ | ⟨-, heq⟩
  · rw [heq]
    exact .kept a id h _ hok ho (hf h)
  · rw [heq]
    exact .same a hok

/-- `start` makes no `SimSocket` in the controlling role. -/
theorem kept_start_control (h : RdpSimHandler) (programExists : Bool) :
    Kept h (h.start true programExists) := by
  rcases h.start_cases true programExists with ⟨-, hf, -⟩ | ⟨-, hk⟩
  · cases hf
  · exact hk

/-- What a step does, one constructor for each kind. -/
theorem step_cases {a : RdpAction} (hst : m.step a = some m') : RdpStep m a m' := by
  -- A slot of the channel or of the `SimSocket` of a handler.
  have hslot : ∀ {id : HandlerId} {f : RdpSimHandler → RdpSimHandler}, m.ServesOne a →
      (∀ h, Kept h (f h)) → ((m.objects id).map fun h => m.setHandler id (f h)) = some m' →
      RdpStep m a m' := by
    intro id f hok hf hst
    obtain ⟨h, ho, heq⟩ := Option.map_eq_some_iff.mp hst
    rw [← heq]
    exact .kept a id h _ hok ho (hf h)
  cases a with
  | initChannel sessionId isControl isConnected =>
    cases hst
    unfold initChannel
    cases hl : m.handlers.lookup sessionId with
    | some id => exact .same _ trivial
    | none => exact .created sessionId isControl isConnected hl
  | sendRDPAssitant sessionId programExists =>
    cases hst
    exact initConnection_controlled programExists Iff.rfl
  | recvRDPAssitant sessionId programExists =>
    cases hst
    exact callSession_kept trivial fun h => kept_start_control h programExists
  | sendRDPControl sessionId programExists =>
    cases hst
    exact callSession_kept trivial fun h => kept_start_control h programExists
  | recvRDPControl sessionId programExists =>
    cases hst
    exact initConnection_controlled programExists Iff.rfl
  | terminate sessionId =>
    cases hst
    exact callSession_kept trivial kept_close
  | newConn socketDescriptor =>
    cases hst
    exact .newConn socketDescriptor
  | channelConnected id programExists =>
    obtain ⟨h, ho, heq⟩ := Option.map_eq_some_iff.mp hst
    rw [← heq]
    rcases h.onConnected_cases programExists with ⟨hf, hc, hm⟩ | ⟨hno, hk⟩
    · refine .made _ id h _ ho hm ⟨fun hok => hok h ho hf hc, fun hnone h' ho' _ _ => ?_⟩
      cases ho.symm.trans ho'
      exact hnone
    · refine .kept _ id h _ (fun h' ho' hf hc => ?_) ho hk
      cases ho.symm.trans ho'
      exact absurd ⟨hf, hc⟩ hno
  | channelRead id buf => exact hslot trivial (fun h => kept_onRead h buf) hst
  | channelError id =>
    obtain ⟨h, ho, heq⟩ := Option.map_eq_some_iff.mp hst
    rw [← heq]
    unfold onError
    cases hl : m.handlers.lookup h.sessionId with
    | some id' => exact .deleted id id' h.sessionId
    | none => exact .same _ trivial
  | simConnected id => exact hslot trivial kept_onSimConnected hst
  | simRead id data =>
    have hk : ∀ h : RdpSimHandler, Kept h (h.onSimRead data) := fun h => ⟨rfl, rfl⟩
    exact hslot trivial hk hst
  | simDisconnected id => exact hslot trivial kept_close hst

/-! ### A connection -/

/-- What a handler puts on record when it takes the connection. -/
def adoption (m : RdpInstance) (socketDescriptor : Int) (id : HandlerId) (h : RdpSimHandler) :
    Adoption :=
  { conn := m.conns, handler := id, socketDescriptor, isControl := h.isControl,
    viewerProcess := h.viewerProcess }

/-- The slots of the handlers `ids` have run: each that had no descriptor has taken the
connection, and nothing else has changed. -/
structure Delivered (socketDescriptor : Int) (ids : List HandlerId) (m m' : RdpInstance) :
    Prop where
  nextHandler : m'.nextHandler = m.nextHandler
  slots : m'.slots = m.slots
  conns : m'.conns = m.conns
  objects : ∀ id, m'.objects id =
    if id ∈ ids then (m.objects id).map fun h => h.onNewSimConnection socketDescriptor
    else m.objects id
  adoptions : ∀ x, x ∈ m'.adoptions ↔ x ∈ m.adoptions ∨
    ∃ id h, id ∈ ids ∧ m.objects id = some h ∧ h.socketDescriptor = 0 ∧
      x = m.adoption socketDescriptor id h

/-- One slot. -/
theorem deliver_delivered (m : RdpInstance) (socketDescriptor : Int) (id : HandlerId) :
    Delivered socketDescriptor [id] m (m.deliver socketDescriptor id) := by
  unfold deliver
  cases ho : m.objects id with
  | none =>
    refine ⟨rfl, rfl, rfl, fun id' => ?_, fun x => ?_⟩
    · by_cases hid : id' = id
      · rw [if_pos (List.mem_singleton.mpr hid), hid, ho]
        rfl
      · rw [if_neg (by simpa using hid)]
    · simp [ho]
  | some h =>
    refine ⟨rfl, rfl, rfl, fun id' => ?_, fun x => ?_⟩
    · by_cases hid : id' = id
      · rw [if_pos (List.mem_singleton.mpr hid), hid, ho]
        exact Function.update_self _ _ _
      · rw [if_neg (by simpa using hid)]
        exact Function.update_of_ne hid _ _
    · simp only
      split
      · rename_i hz
        simp [ho, hz, adoption]
      · rename_i hz
        simp [ho, hz]

/-- A slot, and the slots of other handlers after it. They see what they would have seen
before. -/
theorem Delivered.cons {socketDescriptor : Int} {id : HandlerId} {ids : List HandlerId}
    {m₁ : RdpInstance} (hnot : id ∉ ids) (h₁ : Delivered socketDescriptor [id] m m₁)
    (h₂ : Delivered socketDescriptor ids m₁ m') : Delivered socketDescriptor (id :: ids) m m' := by
  -- The first delivery leaves the later handlers as they were.
  have hlater : ∀ id', id' ∈ ids → m₁.objects id' = m.objects id' := by
    intro id' hmem
    have hne : id' ∉ [id] := by
      rw [List.mem_singleton]
      rintro rfl
      exact hnot hmem
    rw [h₁.objects, if_neg hne]
  -- What a handler adopts depends on the connections only, and these stay.
  have hsame : ∀ id' h, m₁.adoption socketDescriptor id' h =
      m.adoption socketDescriptor id' h := by
    intro id' h
    rw [adoption, h₁.conns]
    rfl
  refine
    { nextHandler := h₂.nextHandler.trans h₁.nextHandler
      slots := h₂.slots.trans h₁.slots
      conns := h₂.conns.trans h₁.conns
      objects := fun id' => ?_
      adoptions := fun x => ?_ }
  · rw [h₂.objects]
    by_cases hmem : id' ∈ ids
    · rw [if_pos hmem, if_pos (List.mem_cons_of_mem id hmem), hlater id' hmem]
    · rw [if_neg hmem, h₁.objects]
      by_cases hid : id' = id
      · rw [if_pos (List.mem_singleton.mpr hid), if_pos (hid ▸ List.mem_cons_self)]
      · rw [if_neg (by simpa using hid), if_neg (by simp [hid, hmem])]
  · rw [h₂.adoptions, h₁.adoptions]
    constructor
    · rintro ((hold | ⟨id', h, hmem, ho, hz, heq⟩) | ⟨id', h, hmem, ho, hz, heq⟩)
      · exact Or.inl hold
      · rw [List.mem_singleton] at hmem
        exact Or.inr ⟨id', h, hmem ▸ List.mem_cons_self, ho, hz, heq⟩
      · rw [hlater id' hmem] at ho
        exact Or.inr ⟨id', h, List.mem_cons_of_mem id hmem, ho, hz, heq.trans (hsame id' h)⟩
    · rintro (hold | ⟨id', h, hmem, ho, hz, heq⟩)
      · exact Or.inl (Or.inl hold)
      · rcases List.mem_cons.mp hmem with rfl | hmem
        · exact Or.inl (Or.inr ⟨id', h, List.mem_singleton.mpr rfl, ho, hz, heq⟩)
        · refine Or.inr ⟨id', h, hmem, ?_, hz, heq.trans (hsame id' h).symm⟩
          rw [hlater id' hmem]
          exact ho

/-- All slots, one after another. -/
theorem foldl_delivered (socketDescriptor : Int) : ∀ (ids : List HandlerId) (m : RdpInstance),
    ids.Nodup → Delivered socketDescriptor ids m (ids.foldl (deliver socketDescriptor) m) := by
  intro ids
  induction ids with
  | nil =>
    intro m _
    exact ⟨rfl, rfl, rfl, fun id => by simp, fun x => by simp⟩
  | cons id ids ih =>
    intro m hnd
    obtain ⟨hnot, hrest⟩ := List.nodup_cons.mp hnd
    rw [List.foldl_cons]
    exact Delivered.cons hnot (m.deliver_delivered socketDescriptor id) (ih _ hrest)

/-! ### The invariant -/

/-- The handlers have made their `SimSocket` once at most, `newConn` is connected to each of them
once, and the connections on record have lower numbers than the next one. -/
structure Tracked (m : RdpInstance) : Prop where
  apart : ViewersApart m
  single : ∀ id h, m.objects id = some h → Single h
  nodup : m.slots.Nodup
  below : ∀ id ∈ m.slots, id < m.nextHandler
  past : ∀ x ∈ m.adoptions, x.conn < m.conns

namespace Tracked

/-- The manager without a handler. -/
theorem init : Tracked init where
  apart :=
    { once := fun _ hx => by cases hx
      byControl := fun _ hx => by cases hx
      noReplace := fun _ _ ho => by cases ho }
  single _ _ ho := by cases ho
  nodup := List.nodup_nil
  below _ hmem := by cases hmem
  past _ hx := by cases hx

/-- A handler gets new members. -/
theorem setHandler (ht : Tracked m) {id : HandlerId} {h : RdpSimHandler} (hs : Single h) :
    Tracked (m.setHandler id h) := by
  have hobj : ∀ id' h', (m.setHandler id h).objects id' = some h' → Single h' := by
    intro id' h' ho
    rcases update_cases ho with ⟨-, heq⟩ | ⟨-, hold⟩
    · cases heq
      exact hs
    · exact ht.single id' h' hold
  exact
    { apart :=
        { once := ht.apart.once
          byControl := ht.apart.byControl
          noReplace := fun id' h' ho => (hobj id' h' ho).le_one }
      single := hobj
      nodup := ht.nodup
      below := ht.below
      past := ht.past }

/-- A new handler. -/
theorem created (ht : Tracked m) (sessionId : QString) (isControl isConnected : Bool) :
    Tracked { m.setHandler m.nextHandler (RdpSimHandler.new sessionId isControl isConnected) with
      handlers := m.handlers.insert sessionId m.nextHandler
      nextHandler := m.nextHandler + 1
      slots := m.slots ++ [m.nextHandler] } := by
  have hset : Tracked (m.setHandler m.nextHandler
      (RdpSimHandler.new sessionId isControl isConnected)) := ht.setHandler rfl
  refine
    { apart := { hset.apart with }
      single := hset.single
      nodup := ?_
      below := fun id hmem => ?_
      past := hset.past }
  · refine List.nodup_append.mpr ⟨ht.nodup, List.nodup_singleton _, fun id hid id' hid' => ?_⟩
    rw [List.mem_singleton.mp hid']
    exact Nat.ne_of_lt (ht.below id hid)
  · rcases List.mem_append.mp hmem with hold | hnew
    · exact Nat.lt_succ_of_lt (ht.below id hold)
    · rw [List.mem_singleton.mp hnew]
      exact Nat.lt_succ_self _

/-- A handler is deleted. -/
theorem deleted (ht : Tracked m) (id : HandlerId) (sessionId : QString) :
    Tracked { m with
      handlers := m.handlers.erase sessionId
      objects := Function.update m.objects id none
      slots := m.slots.erase id } := by
  have hobj : ∀ id' h', Function.update m.objects id none id' = some h' →
      m.objects id' = some h' := by
    intro id' h' ho
    rcases update_cases ho with ⟨-, heq⟩ | ⟨-, hold⟩
    · cases heq
    · exact hold
  exact
    { apart :=
        { once := ht.apart.once
          byControl := ht.apart.byControl
          noReplace := fun id' h' ho => ht.apart.noReplace id' h' (hobj id' h' ho) }
      single := fun id' h' ho => ht.single id' h' (hobj id' h' ho)
      nodup := ht.nodup.erase id
      below := fun id' hmem => ht.below id' (List.mem_of_mem_erase hmem)
      past := ht.past }

/-- The state after a connection. -/
theorem newConn_delivered (ht : Tracked m) (socketDescriptor : Int) :
    Delivered socketDescriptor m.slots m { m.newConn socketDescriptor with conns := m.conns } := by
  have h := foldl_delivered socketDescriptor m.slots m ht.nodup
  exact ⟨h.nextHandler, h.slots, rfl, h.objects, h.adoptions⟩

/-- What is on record after a connection. -/
theorem mem_newConn (ht : Tracked m) {socketDescriptor : Int} {x : Adoption} :
    x ∈ (m.newConn socketDescriptor).adoptions ↔ x ∈ m.adoptions ∨
      ∃ id h, m.Waits id h ∧ x = m.adoption socketDescriptor id h := by
  rw [(ht.newConn_delivered socketDescriptor).adoptions]
  refine or_congr_right ⟨?_, ?_⟩
  · rintro ⟨id, h, hmem, ho, hz, heq⟩
    exact ⟨id, h, ⟨hmem, ho, hz⟩, heq⟩
  · rintro ⟨id, h, ⟨hmem, ho, hz⟩, heq⟩
    exact ⟨id, h, hmem, ho, hz, heq⟩

/-- A handler after a connection: it has taken it, or it is as it was. -/
theorem newConn_objects (ht : Tracked m) {socketDescriptor : Int} {id : HandlerId}
    {h' : RdpSimHandler} (ho' : (m.newConn socketDescriptor).objects id = some h') :
    (∃ h, m.Waits id h ∧ Made h h') ∨ m.objects id = some h' := by
  have hobj := (ht.newConn_delivered socketDescriptor).objects id
  change (m.newConn socketDescriptor).objects id = _ at hobj
  rw [ho'] at hobj
  split at hobj
  · rename_i hmem
    obtain ⟨h, ho, heq⟩ := Option.map_eq_some_iff.mp hobj.symm
    rcases h.onNewSimConnection_cases socketDescriptor with ⟨hz, hm⟩ | ⟨-, hsame⟩
    · rw [heq] at hm
      exact Or.inl ⟨h, ⟨hmem, ho, hz⟩, hm⟩
    · rw [hsame] at heq
      exact Or.inr (heq ▸ ho)
  · exact Or.inr hobj.symm

/-- A handler that waits has made a `SimSocket` after the connection. -/
theorem newConn_made (ht : Tracked m) (socketDescriptor : Int) {id : HandlerId}
    {h : RdpSimHandler} (hw : m.Waits id h) :
    ∃ h', (m.newConn socketDescriptor).objects id = some h' ∧ Made h h' := by
  obtain ⟨hmem, ho, hz⟩ := hw
  have hobj := (ht.newConn_delivered socketDescriptor).objects id
  change (m.newConn socketDescriptor).objects id = _ at hobj
  rw [if_pos hmem, ho] at hobj
  refine ⟨h.onNewSimConnection socketDescriptor, hobj, ?_⟩
  rcases h.onNewSimConnection_cases socketDescriptor with ⟨-, hm⟩ | ⟨hno, -⟩
  · exact hm
  · exact absurd hz hno

/-- A new connection that one handler takes keeps the invariant. -/
theorem newConn (ht : Tracked m) {socketDescriptor : Int}
    (hok : m.ServesOne (.newConn socketDescriptor)) :
    Tracked (m.newConn socketDescriptor) := by
  obtain ⟨hone, hviewer⟩ := hok
  have hdel := ht.newConn_delivered socketDescriptor
  have hsingle : ∀ id h', (m.newConn socketDescriptor).objects id = some h' → Single h' := by
    intro id h' ho'
    rcases ht.newConn_objects ho' with ⟨h, hw, hm⟩ | ho
    · exact (ht.single id h hw.2.1).made hm (hviewer id h hw).2.2
    · exact ht.single id h' ho
  refine
    { apart :=
        { once := fun x hx y hy hconn => ?_
          byControl := fun x hx => ?_
          noReplace := fun id h' ho' => (hsingle id h' ho').le_one }
      single := hsingle
      nodup := hdel.slots ▸ ht.nodup
      below := fun id hmem => ?_
      past := fun x hx => ?_ }
  · -- The connections on record before have other numbers.
    rcases ht.mem_newConn.mp hx with hx | ⟨id, h, hw, rfl⟩
    · rcases ht.mem_newConn.mp hy with hy | ⟨id', h', hw', rfl⟩
      · exact ht.apart.once x hx y hy hconn
      · exact absurd hconn (Nat.ne_of_lt (ht.past x hx))
    · rcases ht.mem_newConn.mp hy with hy | ⟨id', h', hw', rfl⟩
      · exact absurd hconn.symm (Nat.ne_of_lt (ht.past y hy))
      · exact hone id h id' h' hw hw'
  · rcases ht.mem_newConn.mp hx with hx | ⟨id, h, hw, rfl⟩
    · exact ht.apart.byControl x hx
    · exact ⟨(hviewer id h hw).1, (hviewer id h hw).2.1⟩
  · rw [show (m.newConn socketDescriptor).nextHandler = m.nextHandler from hdel.nextHandler]
    rw [show (m.newConn socketDescriptor).slots = m.slots from hdel.slots] at hmem
    exact ht.below id hmem
  · rcases ht.mem_newConn.mp hx with hx | ⟨id, h, hw, rfl⟩
    · exact Nat.lt_succ_of_lt (ht.past x hx)
    · exact Nat.lt_succ_self _

/-- The step lemma. -/
theorem step {a : RdpAction} (ht : Tracked m) (hst : m.step a = some m') (hok : m.ServesOne a) :
    Tracked m' := by
  cases step_cases hst with
  | same => exact ht
  | kept _ id h h' _ ho hk => exact ht.setHandler ((ht.single id h ho).kept hk)
  | made _ id h h' ho hm hiff =>
    exact ht.setHandler ((ht.single id h ho).made hm (hiff.mp hok))
  | created sessionId isControl isConnected hnone =>
    exact ht.created sessionId isControl isConnected
  | newConn socketDescriptor => exact ht.newConn hok
  | deleted id₀ id sessionId => exact ht.deleted id sessionId

/-- A connection after which the property holds met the condition. -/
theorem servesOne_newConn (ht : Tracked m) {socketDescriptor : Int}
    (hva : ViewersApart (m.newConn socketDescriptor)) :
    m.ServesOne (.newConn socketDescriptor) := by
  have hmem : ∀ id h, m.Waits id h →
      m.adoption socketDescriptor id h ∈ (m.newConn socketDescriptor).adoptions :=
    fun id h hw => ht.mem_newConn.mpr (Or.inr ⟨id, h, hw, rfl⟩)
  refine ⟨fun id h id' h' hw hw' => ?_, fun id h hw => ?_⟩
  · exact hva.once _ (hmem id h hw) _ (hmem id' h' hw') rfl
  · obtain ⟨hctl, hview⟩ := hva.byControl _ (hmem id h hw)
    obtain ⟨h', ho', hm⟩ := ht.newConn_made socketDescriptor hw
    exact ⟨hctl, hview,
      (ht.single id h hw.2.1).none_of_made hm (hva.noReplace id h' ho')⟩

/-- A step into viewers that are apart met the condition. -/
theorem servesOne {a : RdpAction} (ht : Tracked m) (hst : m.step a = some m')
    (hva : ViewersApart m') : m.ServesOne a := by
  cases step_cases hst with
  | same _ hok => exact hok
  | kept _ _ _ _ hok => exact hok
  | made _ id h h' ho hm hiff =>
    refine hiff.mpr ((ht.single id h ho).none_of_made hm (hva.noReplace id h' ?_))
    exact Function.update_self _ _ _
  | created => trivial
  | newConn socketDescriptor => exact ht.servesOne_newConn hva
  | deleted => trivial

end Tracked

/-! ### Runs -/

/-- Along a run with any number of handlers, every viewer connection belongs to one session that
has launched a viewer, and no `SimSocket` is replaced, exactly when each step meets the
condition. -/
theorem viewersApart_iff (as : List RdpAction) (u : RdpInstance)
    (hrun : run step init as = some u) :
    Always step ViewersApart init as ↔ AllSteps step ServesOne init as :=
  always_iff_allSteps (fun _ _ _ (ht : Tracked _) hst hok => ht.step hst hok)
    (fun _ ht => ht.apart) (fun _ _ _ ht hst hva => ht.servesOne hst hva) as init u
    Tracked.init hrun

/-- A session in the control role launches its viewer, which connects; a second session comes
after that. -/
theorem viewersApart_iff_oneViewer :
    Always step ViewersApart init
      [.initChannel ['s'] false true, .sendRDPControl ['s'] true, .newConn 5,
        .initChannel ['t'] true false] := by
  refine (viewersApart_iff _ _ rfl).mpr ?_
  iterate 2 refine AllSteps.cons trivial rfl ?_
  refine AllSteps.cons ⟨?_, ?_⟩ rfl (AllSteps.cons trivial rfl trivial)
  · rintro id h id' h' ⟨hmem, -, -⟩ ⟨hmem', -, -⟩
    exact (List.mem_singleton.mp hmem).trans (List.mem_singleton.mp hmem').symm
  · rintro id h ⟨hmem, ho, -⟩
    cases List.mem_singleton.mp hmem
    cases ho
    exact ⟨rfl, rfl, rfl⟩

/-- Two sessions. One launches its viewer, the other was not started: the handlers of both take
the connection of the viewer. -/
theorem not_viewersApart_notStarted :
    ∃ u, run step init
        [.initChannel ['s'] false true, .initChannel ['t'] false true,
          .sendRDPControl ['s'] true, .newConn 5] = some u ∧
      u.adoptions = [⟨0, 0, 5, true, true⟩, ⟨0, 1, 5, false, false⟩] ∧ ¬ ViewersApart u := by
  refine ⟨_, rfl, rfl, fun h => ?_⟩
  cases (h.byControl ⟨0, 1, 5, false, false⟩ (List.mem_cons_of_mem _ List.mem_cons_self)).1

end RdpInstance

end EChannel.LibRdp
