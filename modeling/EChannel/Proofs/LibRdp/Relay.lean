import EChannel.LibRdp.SimSocket

/-!
# `EChannel.Proofs.LibRdp.Relay`: the local connection gets what the channel delivered

A payload of the channel passes through `m_rcvBuf`, a `sigWrite` event and `SimSocket::m_buf`.
`Carried` is the invariant: the bytes the socket took, `m_buf`, the events in the queue and
`m_rcvBuf` are, one behind the other, the payloads so far. The main thread appends at the right
end and moves `m_rcvBuf` into the queue as a whole; the other thread takes events at the left end
of the queue, so that no step changes the order.

The loop of `onWrite` gives the buffer to the socket in pieces and clears it. Nothing is lost
there as long as no round breaks off (`eq_drop_of_writeLoop`).
-/

set_option autoImplicit false

namespace EChannel.LibRdp

/-! ### The handler -/

namespace RdpSimHandler

/-- What a slot leaves alone that may call `createSimSocket` or `close`. -/
structure SlotSpec (h h' : RdpSimHandler) : Prop where
  rcvBuf : h'.rcvBuf = h.rcvBuf
  created : h'.simSockets = h.simSockets ∧ h'.simSocket = h.simSocket ∨
    h'.simSockets = h.simSockets + 1 ∧ h'.simSocket.isSome = true

/-- `close` keeps to the specification of the slots. -/
theorem slotSpec_close (h : RdpSimHandler) : SlotSpec h h.close := by
  unfold close
  split
  · exact ⟨rfl, Or.inl ⟨rfl, rfl⟩⟩
  · exact ⟨rfl, Or.inl ⟨rfl, rfl⟩⟩

/-- `start` keeps to the specification of the slots. -/
theorem slotSpec_start (h : RdpSimHandler) (isControl programExists : Bool) :
    SlotSpec h (h.start isControl programExists) := by
  unfold start
  dsimp only
  split
  · split
    · unfold startVNCViewer
      split
      · exact ⟨rfl, Or.inl ⟨rfl, rfl⟩⟩
      · exact ⟨(slotSpec_close _).rcvBuf, (slotSpec_close { h with isControl }).created⟩
    · exact ⟨rfl, Or.inr ⟨rfl, rfl⟩⟩
  · exact ⟨rfl, Or.inl ⟨rfl, rfl⟩⟩

/-- `onConnected` keeps to the specification of the slots. -/
theorem slotSpec_onConnected (h : RdpSimHandler) (programExists : Bool) :
    SlotSpec h (h.onConnected programExists) := by
  unfold onConnected
  dsimp only
  split
  · exact ⟨(slotSpec_start { h with isConnected := true } h.isControl programExists).rcvBuf,
      (slotSpec_start { h with isConnected := true } h.isControl programExists).created⟩
  · exact ⟨rfl, Or.inl ⟨rfl, rfl⟩⟩

/-- `onNewSimConnection` keeps to the specification of the slots. -/
theorem slotSpec_onNewSimConnection (h : RdpSimHandler) (socketDescriptor : Int) :
    SlotSpec h (h.onNewSimConnection socketDescriptor) := by
  unfold onNewSimConnection
  split
  · exact ⟨rfl, Or.inr ⟨rfl, rfl⟩⟩
  · exact ⟨rfl, Or.inl ⟨rfl, rfl⟩⟩

/-- `flush` empties the buffer if there is a `SimSocket`. -/
theorem flush_spec (h : RdpSimHandler) :
    h.flush.simSockets = h.simSockets ∧ h.flush.simSocket.isSome = h.simSocket.isSome ∧
      h.flush.rcvBuf = if h.simSocket.isSome then [] else h.rcvBuf := by
  unfold flush
  cases hs : h.simSocket with
  | none => exact ⟨rfl, by rw [hs], rfl⟩
  | some o => exact ⟨rfl, rfl, rfl⟩

end RdpSimHandler

/-! ### The loop of `onWrite` -/

namespace SimConn

/-- Without an error the loop hands over everything behind the first `writelen` bytes. -/
theorem eq_drop_of_writeLoop {buf : QByteArray} : ∀ {results : List WriteResult} {writelen : Nat}
    {taken : QByteArray}, (∀ res ∈ results, res ≠ .invalid ∧ res ≠ .failed) →
    writeLoop buf writelen results = some taken → taken = buf.drop writelen := by
  intro results
  induction results with
  | nil =>
    intro writelen taken _ h
    cases h
  | cons res results ih =>
    intro writelen taken hok h
    have hres := hok res List.mem_cons_self
    cases res with
    | invalid => exact absurd rfl hres.1
    | failed => exact absurd rfl hres.2
    | wrote writesize =>
      rw [writeLoop] at h
      split at h
      · rename_i hle
        split at h
        · -- Another round follows.
          obtain ⟨rest, hrest, rfl⟩ := Option.map_eq_some_iff.mp h
          have hdrop := ih (fun r hr => hok r (List.mem_cons_of_mem _ hr)) hrest
          rw [hdrop, ← List.drop_drop, List.take_append_drop]
        · -- The loop ends with this round, and the round took all that was left.
          rename_i hge
          split at h
          · cases h
            refine List.take_of_length_le ?_
            rw [List.length_drop]
            omega
          · cases h
      · cases h

/-- `onWrite` keeps the bytes that the socket took and those that wait, in their order. -/
theorem accepted_of_onWrite {o o' : SimConn} {buf : QByteArray} {results : List WriteResult}
    (hok : ∀ res ∈ results, res ≠ .invalid ∧ res ≠ .failed)
    (h : o.onWrite buf results = some o') :
    o'.accepted ++ o'.buf = o.accepted ++ o.buf ++ buf := by
  unfold onWrite at h
  dsimp only at h
  split at h
  · -- Without a socket the bytes wait in `m_buf`.
    split at h
    · cases h
      exact (List.append_assoc _ _ _).symm
    · cases h
  · obtain ⟨taken, htaken, rfl⟩ := Option.map_eq_some_iff.mp h
    have hall : taken = o.buf ++ buf := eq_drop_of_writeLoop hok htaken
    show (o.accepted ++ taken) ++ [] = _
    rw [List.append_nil, hall, List.append_assoc]

end SimConn

/-! ### The relay -/

namespace Relay

variable {r : Relay} {p : QByteArray}

/-- The payloads so far are `p`, and with one `SimSocket` at most they are all there. -/
structure Carried (p : QByteArray) (r : Relay) : Prop where
  count : r.handler.simSockets = r.conns.length
  isSome_iff : r.handler.simSocket.isSome = true ↔ r.conns ≠ []
  stream : r.conns.length ≤ 1 →
    r.accepted ++ r.simBuf ++ r.inFlight ++ r.handler.rcvBuf = p

/-- An event that is emitted adds its payload at the end of what is in flight. -/
theorem inFlight_emit (r : Relay) (ev : SimEvent) :
    (r.emit ev).inFlight = r.inFlight ++ ev.payload := by
  unfold inFlight emit
  rw [List.flatMap_append]
  exact congrArg _ (List.append_nil _)

/-- A new `SimSocket`, a `sigClose`, or neither. -/
theorem Carried.slot (h : Carried p r) {f : RdpSimHandler → RdpSimHandler}
    (hf : RdpSimHandler.SlotSpec r.handler (f r.handler)) : Carried p (r.slot f) := by
  unfold Relay.slot
  dsimp only
  rcases hf.created with ⟨hsame, hsock⟩ | ⟨hnew, hsock⟩
  · have hkeep : Carried p { r with handler := f r.handler } := by
      refine ⟨hsame.trans h.count, ?_, ?_⟩
      · show (f r.handler).simSocket.isSome = true ↔ _
        rw [hsock]
        exact h.isSome_iff
      · intro hone
        show r.accepted ++ r.simBuf ++ r.inFlight ++ (f r.handler).rcvBuf = p
        rw [hf.rcvBuf]
        exact h.stream hone
    rw [if_neg (fun hne => hne hsame)]
    split
    · refine ⟨hkeep.count, hkeep.isSome_iff, fun hone => ?_⟩
      rw [inFlight_emit]
      exact (congrArg (_ ++ · ++ _) (List.append_nil _)).trans (hkeep.stream hone)
    · exact hkeep
  · -- `createSimSocket` has run. Its object is the last of the list.
    rw [if_pos (by omega)]
    refine ⟨?_, iff_of_true hsock (List.append_ne_nil_of_right_ne_nil _ (List.cons_ne_nil _ _)), ?_⟩
    · show (f r.handler).simSockets = (r.conns ++ [_]).length
      rw [hnew, h.count, List.length_append]
      rfl
    · intro hone
      have hlen : (r.conns ++ [SimConn.init (f r.handler).isControl]).length ≤ 1 := hone
      rw [List.length_append] at hlen
      -- The new object has taken nothing, and nothing waits in it.
      have hacc : (r.conns ++ [SimConn.init (f r.handler).isControl]).flatMap SimConn.accepted =
          r.accepted := by
        rw [List.flatMap_append]
        exact List.append_nil _
      have hbuf : (r.conns ++ [SimConn.init (f r.handler).isControl]).flatMap SimConn.buf =
          r.simBuf := by
        rw [List.flatMap_append]
        exact List.append_nil _
      rw [inFlight_emit]
      show (r.conns ++ [SimConn.init (f r.handler).isControl]).flatMap SimConn.accepted ++
        (r.conns ++ [SimConn.init (f r.handler).isControl]).flatMap SimConn.buf ++
        (r.inFlight ++ []) ++ (f r.handler).rcvBuf = p
      rw [hacc, hbuf, List.append_nil, hf.rcvBuf]
      exact h.stream (by omega)

/-- `m_rcvBuf` goes into the queue, with a payload of the channel behind it. -/
theorem Carried.flushed (h : Carried p r) {f : RdpSimHandler → RdpSimHandler} {buf : QByteArray}
    (hf : f r.handler = { r.handler with rcvBuf := r.handler.rcvBuf ++ buf }.flush) :
    Carried (p ++ buf) (r.flushed f (r.handler.rcvBuf ++ buf)) := by
  have hspec := RdpSimHandler.flush_spec { r.handler with rcvBuf := r.handler.rcvBuf ++ buf }
  rw [← hf] at hspec
  obtain ⟨hcount, hsome, hrcv⟩ := hspec
  have hiff : (f r.handler).simSocket.isSome = true ↔ r.conns ≠ [] := by
    rw [hsome]
    exact h.isSome_iff
  unfold Relay.flushed
  dsimp only
  by_cases hsock : r.handler.simSocket.isSome = true
  · -- The bytes leave `m_rcvBuf` and are behind those in the queue.
    rw [if_pos hsock] at hrcv ⊢
    refine ⟨hcount.trans h.count, hiff, fun hone => ?_⟩
    rw [inFlight_emit]
    show r.accepted ++ r.simBuf ++ (r.inFlight ++ (r.handler.rcvBuf ++ buf)) ++
      (f r.handler).rcvBuf = p ++ buf
    rw [hrcv, List.append_nil, ← h.stream hone]
    simp only [List.append_assoc]
  · rw [if_neg hsock] at hrcv ⊢
    refine ⟨hcount.trans h.count, hiff, fun hone => ?_⟩
    show r.accepted ++ r.simBuf ++ r.inFlight ++ (f r.handler).rcvBuf = p ++ buf
    rw [hrcv, ← h.stream hone]
    simp only [List.append_assoc]

/-- A block from the peer is carried behind what came before. -/
theorem Carried.onRead (h : Carried p r) (buf : QByteArray) : Carried (p ++ buf) (r.onRead buf) :=
  h.flushed rfl

/-- The connected viewer gets what was kept for it. -/
theorem Carried.onSimConnected (h : Carried p r) : Carried p r.onSimConnected := by
  unfold Relay.onSimConnected
  split
  · exact h
  · rename_i hne
    have hf : r.handler.onSimConnected =
        { r.handler with rcvBuf := r.handler.rcvBuf ++ [] }.flush := by
      rw [RdpSimHandler.onSimConnected, if_neg hne, List.append_nil]
    have hnext := h.flushed hf
    rwa [List.append_nil, List.append_nil] at hnext

/-- A slot of the main thread loses no byte. -/
theorem Carried.handle (h : Carried p r) (sig : SimSignal) : Carried p (r.handle sig) := by
  cases sig with
  | sigSimConnected => exact h.onSimConnected
  | sigSimRead data => exact ⟨h.count, h.isSome_iff, h.stream⟩
  | sigSimDisconnected => exact h.slot (RdpSimHandler.slotSpec_close _)

/-- The thread ran a slot of an object. The bytes that the slot took from the queue are now with
the object. -/
theorem Carried.ran {i : Nat} {o : SimConn} {res : SimConn × List SimSignal} {buf : QByteArray}
    {q : List (Nat × SimEvent)} (h : Carried p r) (ho : r.conns[i]? = some o)
    (hres : res.1.accepted ++ res.1.buf = o.accepted ++ o.buf ++ buf)
    (hq : r.inFlight = buf ++ q.flatMap fun e => e.2.payload) :
    Carried p ({ r with toSim := q }.ran i res) := by
  obtain ⟨hi, -⟩ := List.getElem?_eq_some_iff.mp ho
  refine ⟨?_, ?_, ?_⟩
  · show r.handler.simSockets = (r.conns.set i res.1).length
    rw [List.length_set]
    exact h.count
  · show r.handler.simSocket.isSome = true ↔ r.conns.set i res.1 ≠ []
    rw [h.isSome_iff, ne_eq, ne_eq, ← List.length_eq_zero_iff, ← List.length_eq_zero_iff,
      List.length_set]
  · intro hone
    have hlen : (r.conns.set i res.1).length ≤ 1 := hone
    rw [List.length_set] at hlen
    -- There is one object only, and it is the one that ran.
    have hi0 : i = 0 := by omega
    subst hi0
    have hconns : r.conns = [o] := by
      cases hc : r.conns with
      | nil =>
        rw [hc] at ho
        cases ho
      | cons o' os =>
        rw [hc] at ho hlen
        have hos : os = [] := List.length_eq_zero_iff.mp (by simpa using hlen)
        rw [hos, Option.some.inj ho]
    have hstream := h.stream hlen
    show ((r.conns.set 0 res.1).flatMap SimConn.accepted) ++
      ((r.conns.set 0 res.1).flatMap SimConn.buf) ++ (q.flatMap fun e => e.2.payload) ++
        r.handler.rcvBuf = p
    rw [hq, accepted, simBuf, hconns] at hstream
    rw [hconns]
    simp only [List.set_cons_zero, List.flatMap_cons, List.flatMap_nil, List.append_nil]
      at hstream ⊢
    rw [hres, ← hstream]
    simp only [List.append_assoc]

/-- A slot that neither takes nor drops bytes. -/
theorem Carried.ran_same {i : Nat} {o : SimConn} {res : SimConn × List SimSignal}
    (h : Carried p r) (ho : r.conns[i]? = some o) (hacc : res.1.accepted = o.accepted)
    (hbuf : res.1.buf = o.buf) : Carried p (r.ran i res) := by
  have hres : res.1.accepted ++ res.1.buf = o.accepted ++ o.buf ++ [] := by
    rw [hacc, hbuf, List.append_nil]
  exact h.ran ho hres (show r.inFlight = [] ++ r.inFlight from rfl)

/-- An event without bytes leaves the queue. -/
theorem Carried.dequeue {e : Nat × SimEvent} {q : List (Nat × SimEvent)} (h : Carried p r)
    (hq : r.toSim = e :: q) (he : e.2.payload = []) : Carried p { r with toSim := q } := by
  refine ⟨h.count, h.isSome_iff, fun hone => ?_⟩
  have hflight : r.inFlight = q.flatMap fun e => e.2.payload := by
    rw [inFlight, hq, List.flatMap_cons, he]
    rfl
  have hstream := h.stream hone
  rw [hflight] at hstream
  exact hstream

/-- Closing the connection of the viewer leaves the bytes alone. -/
theorem onCloseConnection_same (o : SimConn) :
    o.onCloseConnection.1.accepted = o.accepted ∧ o.onCloseConnection.1.buf = o.buf := by
  unfold SimConn.onCloseConnection
  split
  · exact ⟨rfl, rfl⟩
  · exact ⟨rfl, rfl⟩

/-- The thread of the sockets takes the first event. -/
theorem Carried.serve {i : Nat} {ev : SimEvent} {q : List (Nat × SimEvent)} {o : SimConn}
    {results : List WriteResult} {t : Relay} (h : Carried p r) (hq : r.toSim = (i, ev) :: q)
    (ho : r.conns[i]? = some o) (hok : ∀ res ∈ results, res ≠ .invalid ∧ res ≠ .failed)
    (ht : { r with toSim := q }.serve i o results ev = some t) : Carried p t := by
  cases ev with
  | sigCreateSocket =>
    obtain ⟨-, hran⟩ := Option.ite_none_right_eq_some.mp ht
    cases hran
    exact (h.dequeue hq rfl).ran_same ho rfl rfl
  | sigWrite buf =>
    obtain ⟨o', ho', rfl⟩ := Option.map_eq_some_iff.mp ht
    have hflight : r.inFlight = buf ++ q.flatMap fun e => e.2.payload := by
      rw [inFlight, hq, List.flatMap_cons]
      rfl
    exact h.ran ho (SimConn.accepted_of_onWrite hok ho') hflight
  | sigClose =>
    obtain ⟨-, hran⟩ := Option.ite_none_right_eq_some.mp ht
    cases hran
    obtain ⟨hacc, hbuf⟩ := onCloseConnection_same o
    exact (h.dequeue hq rfl).ran_same ho hacc hbuf

/-- An event of a `QTcpSocket`. -/
theorem Carried.tcpEvent {i : Nat} {f : SimConn → SimConn × List SimSignal} {t : Relay}
    (h : Carried p r) (hf : ∀ o, (f o).1.accepted = o.accepted ∧ (f o).1.buf = o.buf)
    (ht : (match r.conns[i]? with
      | some o => if o.tcpSocket = true then some (r.ran i (f o)) else none
      | none => none) = some t) : Carried p t := by
  split at ht
  · rename_i o ho
    obtain ⟨-, hran⟩ := Option.ite_none_right_eq_some.mp ht
    cases hran
    exact h.ran_same ho (hf o).1 (hf o).2
  · cases ht

/-- A step without a payload carries on what there is. -/
theorem Carried.step_other {a : RelayAction} {t : Relay} (h : Carried p r) (hok : a.WritesOk)
    (ha : ∀ buf, a ≠ .channelRead buf) (ht : r.step a = some t) : Carried p t := by
  cases a with
  | channelRead buf => exact absurd rfl (ha buf)
  | start isControl programExists =>
    cases ht
    exact h.slot (RdpSimHandler.slotSpec_start _ isControl programExists)
  | channelConnected programExists =>
    cases ht
    exact h.slot (RdpSimHandler.slotSpec_onConnected _ programExists)
  | newConn socketDescriptor =>
    cases ht
    exact h.slot (RdpSimHandler.slotSpec_onNewSimConnection _ socketDescriptor)
  | close =>
    cases ht
    exact h.slot (RdpSimHandler.slotSpec_close _)
  | mainThread =>
    simp only [Relay.step] at ht
    split at ht
    · rename_i sig toMain _
      cases ht
      have hpop : Carried p { r with toMain := toMain } := ⟨h.count, h.isSome_iff, h.stream⟩
      exact hpop.handle sig
    · cases ht
  | simThread results =>
    simp only [Relay.step] at ht
    split at ht
    · rename_i i ev q hq
      split at ht
      · rename_i o ho
        exact h.serve hq ho hok ht
      · cases ht
    · cases ht
  | tcpConnected i => exact h.tcpEvent (fun _ => ⟨rfl, rfl⟩) ht
  | tcpRead i data => exact h.tcpEvent (fun _ => ⟨rfl, rfl⟩) ht
  | tcpDisconnected i => exact h.tcpEvent (fun _ => ⟨rfl, rfl⟩) ht

/-- Every step carries the payloads on, in their order. -/
theorem Carried.step {a : RelayAction} {t : Relay} (h : Carried p r) (hok : a.WritesOk)
    (ht : r.step a = some t) : Carried (p ++ a.payload) t := by
  cases a with
  | channelRead buf =>
    cases ht
    exact h.onRead buf
  | _ =>
    show Carried (p ++ []) t
    rw [List.append_nil]
    exact h.step_other hok (fun _ => RelayAction.noConfusion) ht

/-- A run carries all its payloads. -/
theorem Carried.run : ∀ {as : List RelayAction} {r u : Relay} {p : QByteArray}, Carried p r →
    (∀ a ∈ as, a.WritesOk) → EChannel.run Relay.step r as = some u →
    Carried (p ++ as.flatMap RelayAction.payload) u := by
  intro as
  -- The payloads so far are the accumulator, so they are generalised.
  induction as with
  | nil =>
    intro r u p h _ hrun
    cases hrun
    rw [List.flatMap_nil, List.append_nil]
    exact h
  | cons a as ih =>
    intro r u p h hok hrun
    obtain ⟨t, hst, hrest⟩ := run_cons hrun
    have hnext := h.step (hok a List.mem_cons_self) hst
    rw [List.flatMap_cons, ← List.append_assoc]
    exact ih hnext (fun b hb => hok b (List.mem_cons_of_mem _ hb)) hrest

/-- In every state of a session with one `SimSocket` at most, the bytes the local connection has
taken, those in the `SimSocket`, those on the way to it and those in the handler are the payloads
of the channel, as long as the connection is valid and takes what it is given. -/
theorem relay_exact {sessionId : QString} {isControl isConnected : Bool} {as : List RelayAction}
    {r : Relay} (hrun : EChannel.run Relay.step (Relay.init sessionId isControl isConnected) as =
      some r)
    (hok : ∀ a ∈ as, a.WritesOk) (hone : r.handler.simSockets ≤ 1) :
    r.accepted ++ r.simBuf ++ r.inFlight ++ r.handler.rcvBuf =
      as.flatMap RelayAction.payload := by
  have hinit : Carried [] (Relay.init sessionId isControl isConnected) :=
    ⟨rfl, iff_of_false Bool.noConfusion fun h => h rfl, fun _ => rfl⟩
  have hcarried := hinit.run hok hrun
  exact hcarried.stream (by rw [← hcarried.count]; exact hone)

/-- A payload before the local connection is there and one behind it, which the connection takes
in two parts. -/
def relayed : List RelayAction :=
  [.channelRead [1, 2], .start false true, .simThread [], .tcpConnected 0, .channelRead [3],
    .mainThread, .simThread [.wrote 1, .wrote 2]]

/-- Three bytes that arrive in pieces, and a viewer that takes part of them at a time. -/
theorem relay_exact_relayed :
    (EChannel.run Relay.step (Relay.init [] false true) relayed).map (fun r =>
      (r.accepted, r.accepted ++ r.simBuf ++ r.inFlight ++ r.handler.rcvBuf)) =
        some ([1, 2, 3], [1, 2, 3]) := by
  obtain ⟨r, hrun⟩ : ∃ r, EChannel.run Relay.step (Relay.init [] false true) relayed = some r :=
    Option.isSome_iff_exists.mp (by decide)
  have hend : (EChannel.run Relay.step (Relay.init [] false true) relayed).map (fun r =>
      (r.accepted, r.handler.simSockets)) = some ([1, 2, 3], 1) := by decide
  rw [hrun, Option.map_some, Option.some.injEq, Prod.mk.injEq] at hend
  have hok : ∀ a ∈ relayed, a.WritesOk := by
    simp [relayed, RelayAction.WritesOk]
  have hexact := relay_exact hrun hok (Nat.le_of_eq hend.2)
  rw [hrun, Option.map_some, hexact, hend.1]
  rfl

end Relay

end EChannel.LibRdp
