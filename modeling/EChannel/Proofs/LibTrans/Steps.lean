import EChannel.LibTrans.UtpHandle

/-!
# `EChannel.Proofs.LibTrans.Steps`: what one step of the uTP thread does

Every step has two parts: what the slot or the callback does itself, and the call of
`processWrite` that ends most of them. `BaseStep` lists the first part, with the guards of
libutp, one constructor for each action. `WriteClosed` lists what `processWrite` can do to
the head of the queue, and a predicate that is closed under these moves is kept by
`processWrite`. `step_rule` puts the two together: an invariant holds after a step when it
holds after the base step and is closed under the writes.
-/

set_option autoImplicit false

namespace EChannel.LibTrans

open LibUtp

namespace UtpHandle

/-! ### Slots with several branches

An invariant of `setAcceptConnID` or `onCloseSocket` is shown for the branches that change
something. -/

/-- The rule for `setAcceptConnID`: nothing happens, or the socket of the address gets the
id. -/
theorem setAcceptConnID_rule {P : UtpHandle → Prop} {st : UtpHandle} {peerAddr : QString}
    {connectID : Int} (hst : P st)
    (hset : ∀ s sock, st.utpSocketsAddr.lookup peerAddr = some s → st.sockets s = some sock →
      P (st.setSocket s { sock with userdata := connectID })) :
    P (st.setAcceptConnID peerAddr connectID) := by
  unfold setAcceptConnID
  split
  · exact hst
  · rename_i s hl
    split
    · exact hst
    · rename_i sock hs
      exact hset s sock hl hs

/-- The rule for `utp_close`: the call is recorded, and the socket, if it is there, closes. -/
theorem utpClose_rule {P : UtpHandle → Prop} {st : UtpHandle} {s : SockId}
    (hnone : st.sockets s = none → P (st.record (.close s)))
    (hsome : ∀ sock, st.sockets s = some sock →
      P ((st.setSocket s sock.close).record (.close s))) : P (st.utpClose s) := by
  unfold utpClose
  cases hs : st.sockets s with
  | none => exact hnone hs
  | some sock => exact hsome sock hs

/-- The rule for `onCloseSocket`: nothing happens, or a socket is closed. -/
theorem onCloseSocket_rule {P : UtpHandle → Prop} {st : UtpHandle} {peerAddr : QString}
    {connectID : Int} (hst : P st) (hclose : ∀ s, P (st.utpClose s)) :
    P (st.onCloseSocket peerAddr connectID) := by
  unfold onCloseSocket
  split
  · exact hclose _
  · split
    · exact hclose _
    · exact hst

/-! ### The queue is a field that `utp_write` does not touch -/

/-- The last queue counts. -/
@[simp] theorem withQueue_withQueue (st : UtpHandle) (q q' : List PackInfo) :
    (st.withQueue q).withQueue q' = st.withQueue q' := rfl

/-- The queue that is there already. -/
theorem withQueue_self {st : UtpHandle} {q : List PackInfo} (h : st.writeQueue = q) :
    st.withQueue q = st := by
  subst h
  rfl

/-- `utp_write` does not look at the write queue. -/
theorem utpWrite_withQueue (st : UtpHandle) (q : List PackInfo) (s : SockId) (pack : PackInfo)
    (r : WriteResult) :
    (st.withQueue q).utpWrite s pack r
      = ((st.utpWrite s pack r).1.withQueue q, (st.utpWrite s pack r).2) := by
  unfold utpWrite withQueue
  cases st.sockets s <;> rfl

/-- A `utp_write` takes at most what is left of the pack. -/
theorem utpWrite_le (st : UtpHandle) (s : SockId) (pack : PackInfo) (r : WriteResult) :
    (st.utpWrite s pack r).2 ≤ pack.buf.length - pack.pos := by
  unfold utpWrite
  cases st.sockets s with
  | none => exact Nat.zero_le _
  | some sock => exact UTPSocket.write_le _ _ _

/-- `utp_write` is recorded with what it took. -/
@[simp] theorem utpWrite_hist (st : UtpHandle) (s : SockId) (pack : PackInfo)
    (r : WriteResult) :
    (st.utpWrite s pack r).1.hist = st.hist ++ [.offer s pack (st.utpWrite s pack r).2] := by
  unfold utpWrite
  cases st.sockets s <;> rfl

/-- `utp_write` keeps the listed addresses. -/
@[simp] theorem utpWrite_okChannels (st : UtpHandle) (s : SockId) (pack : PackInfo)
    (r : WriteResult) : (st.utpWrite s pack r).1.okChannels = st.okChannels := by
  unfold utpWrite
  cases st.sockets s <;> rfl

/-- `utp_write` keeps the sockets of the addresses. -/
@[simp] theorem utpWrite_utpSocketsAddr (st : UtpHandle) (s : SockId) (pack : PackInfo)
    (r : WriteResult) : (st.utpWrite s pack r).1.utpSocketsAddr = st.utpSocketsAddr := by
  unfold utpWrite
  cases st.sockets s <;> rfl

/-- `utp_write` makes no socket. -/
@[simp] theorem utpWrite_nextSock (st : UtpHandle) (s : SockId) (pack : PackInfo)
    (r : WriteResult) : (st.utpWrite s pack r).1.nextSock = st.nextSock := by
  unfold utpWrite
  cases st.sockets s <;> rfl

/-- `utp_write` signals nothing. -/
@[simp] theorem utpWrite_outbox (st : UtpHandle) (s : SockId) (pack : PackInfo)
    (r : WriteResult) : (st.utpWrite s pack r).1.outbox = st.outbox := by
  unfold utpWrite
  cases st.sockets s <;> rfl

/-! ### The induction rule of the write loop

`processWrite` does four things to the queue, and each is a transition on the state between
two `utp_write` calls, with the position of the head pack up to date. A predicate that the
four transitions keep is kept by `processWrite`. -/

/-- A predicate that is kept by everything `processWrite` does to the head of the queue. -/
structure WriteClosed (P : UtpHandle → Prop) : Prop where
  discard : ∀ (st : UtpHandle) (pack : PackInfo) (rest : List PackInfo),
    st.writeQueue = pack :: rest → pack.peerAddr ∉ st.okChannels → P st →
    P ((st.withQueue rest).record (.discard pack.start st.okChannels))
  offer : ∀ (st : UtpHandle) (pack : PackInfo) (rest : List PackInfo) (s : SockId)
    (r : WriteResult),
    st.writeQueue = pack :: rest → pack.peerAddr ∈ st.okChannels →
    st.utpSocketsAddr.lookup pack.peerAddr = some s →
    pack.pos + (st.utpWrite s pack r).2 < pack.buf.length → P st →
    P ((st.utpWrite s pack r).1.withQueue
      ({ pack with pos := pack.pos + (st.utpWrite s pack r).2 } :: rest))
  complete : ∀ (st : UtpHandle) (pack : PackInfo) (rest : List PackInfo) (s : SockId)
    (r : WriteResult),
    st.writeQueue = pack :: rest → pack.peerAddr ∈ st.okChannels →
    st.utpSocketsAddr.lookup pack.peerAddr = some s → pack.pos < pack.buf.length →
    pack.pos + (st.utpWrite s pack r).2 = pack.buf.length → P st →
    P ((((st.utpWrite s pack r).1.emit (.utpIdle pack.peerAddr)).withQueue rest).record
      (.finish pack.start))
  skip : ∀ (st : UtpHandle) (pack : PackInfo) (rest : List PackInfo) (s : SockId),
    st.writeQueue = pack :: rest → pack.peerAddr ∈ st.okChannels →
    st.utpSocketsAddr.lookup pack.peerAddr = some s → ¬ pack.pos < pack.buf.length → P st →
    P ((st.withQueue rest).record (.finish pack.start))

/-- The state that `processWriteLoop` goes on with after `writeData`. -/
def afterWrite (rest : List PackInfo) (pack : PackInfo)
    (res : UtpHandle × Option PackInfo × Oracle) : UtpHandle :=
  match res with
  | (st', none, _) => (st'.withQueue rest).record (.finish pack.start)
  | (st', some pack', _) => st'.withQueue (pack' :: rest)

/-- The inner loop keeps a closed predicate. The induction is on the answers of libutp; the
state carries the head pack with the position reached so far. -/
theorem writeLoop_closed {P : UtpHandle → Prop} (hP : WriteClosed P) (rest : List PackInfo)
    (s : SockId) (o : Oracle) :
    ∀ (st : UtpHandle) (pack : PackInfo), pack.peerAddr ∈ st.okChannels →
      st.utpSocketsAddr.lookup pack.peerAddr = some s → P (st.withQueue (pack :: rest)) →
      P (afterWrite rest pack (st.writeLoop s pack o)) := by
  -- One refused write leaves the pack where it is.
  have hrefused : ∀ (st : UtpHandle) (pack : PackInfo) (r : WriteResult),
      pack.peerAddr ∈ st.okChannels → st.utpSocketsAddr.lookup pack.peerAddr = some s →
      P (st.withQueue (pack :: rest)) → pack.pos < pack.buf.length →
      (st.utpWrite s pack r).2 = 0 →
      P ((st.utpWrite s pack r).1.withQueue (pack :: rest)) := by
    intro st pack r hok hsock hp hlt hzero
    have h := hP.offer (st.withQueue (pack :: rest)) pack rest s r rfl hok hsock
      (by rw [utpWrite_withQueue]; omega) hp
    rw [utpWrite_withQueue] at h
    simpa [hzero] using h
  have hskip : ∀ (st : UtpHandle) (pack : PackInfo), pack.peerAddr ∈ st.okChannels →
      st.utpSocketsAddr.lookup pack.peerAddr = some s → P (st.withQueue (pack :: rest)) →
      ¬ pack.pos < pack.buf.length → P ((st.withQueue rest).record (.finish pack.start)) := by
    intro st pack hok hsock hp hge
    exact hP.skip (st.withQueue (pack :: rest)) pack rest s rfl hok hsock hge hp
  induction o with
  | nil =>
    intro st pack hok hsock hp
    unfold writeLoop
    by_cases hlt : pack.pos < pack.buf.length
    · rw [if_pos hlt]
      refine hrefused st pack ⟨0, false⟩ hok hsock hp hlt ?_
      unfold utpWrite
      cases st.sockets s with
      | none => rfl
      | some sock => simp [UTPSocket.write]
    · rw [if_neg hlt]
      exact hskip st pack hok hsock hp hlt
  | cons r o ih =>
    intro st pack hok hsock hp
    unfold writeLoop
    by_cases hlt : pack.pos < pack.buf.length
    · rw [if_pos hlt]
      have hle := utpWrite_le st s pack r
      by_cases hzero : (st.utpWrite s pack r).2 = 0
      · simp only [hzero, if_true]
        exact hrefused st pack r hok hsock hp hlt hzero
      · simp only [hzero, if_false]
        by_cases hfull : pack.pos + (st.utpWrite s pack r).2 = pack.buf.length
        · simp only [hfull, if_true]
          have h := hP.complete (st.withQueue (pack :: rest)) pack rest s r rfl hok hsock hlt
            (by rw [utpWrite_withQueue]; exact hfull) hp
          rw [utpWrite_withQueue] at h
          exact h
        · simp only [hfull, if_false]
          have h := hP.offer (st.withQueue (pack :: rest)) pack rest s r rfl hok hsock
            (by rw [utpWrite_withQueue]; omega) hp
          rw [utpWrite_withQueue] at h
          exact ih _ { pack with pos := pack.pos + (st.utpWrite s pack r).2 }
            (by simpa using hok) (by simpa using hsock) h
    · rw [if_neg hlt]
      exact hskip st pack hok hsock hp hlt

/-- A closed predicate is kept by `processWrite`. -/
theorem processWrite_closed {P : UtpHandle → Prop} (hP : WriteClosed P) (st : UtpHandle)
    (o : Oracle) (h : P st) : P (st.processWrite o) := by
  -- The loop runs over the queue it started with; the field holds what is left of it.
  suffices hloop : ∀ (q : List PackInfo) (st : UtpHandle) (o : Oracle), st.writeQueue = q →
      P st → P (processWriteLoop q st o) from hloop st.writeQueue st o rfl h
  intro q
  induction q with
  | nil => intro st o _ h; exact h
  | cons pack rest ih =>
    intro st o hq h
    unfold processWriteLoop
    by_cases hok : pack.peerAddr ∈ st.okChannels
    · rw [if_pos hok]
      have hafter : P (afterWrite rest pack (st.writeData pack o)) := by
        unfold writeData
        cases hsock : st.utpSocketsAddr.lookup pack.peerAddr with
        | none => simpa [afterWrite, withQueue_self hq] using h
        | some s =>
          exact writeLoop_closed hP rest s o st pack hok hsock (by rwa [withQueue_self hq])
      rcases hres : st.writeData pack o with ⟨st', _ | pack', o'⟩
      · rw [hres] at hafter
        exact ih _ o' rfl hafter
      · rw [hres] at hafter
        exact hafter
    · rw [if_neg hok]
      exact ih _ o rfl (hP.discard st pack rest hq hok h)

end UtpHandle

/-! ### What the writes leave alone -/

/-- The events that `processWrite` records. -/
def HistEvent.isWrite : HistEvent → Bool
  | .offer _ _ _ | .finish _ | .discard _ _ => true
  | _ => false

/-- The signals that `processWrite` emits. -/
def UtpSignal.isIdle : UtpSignal → Bool
  | .utpIdle _ => true
  | _ => false

namespace UtpHandle

/-- What `processWrite` leaves alone: the maps and `m_okChannels` stay, a socket can only
become full, and what it adds to the history and to the signals concerns packs. -/
structure Wrote (st st' : UtpHandle) : Prop where
  nextSock : st'.nextSock = st.nextSock
  utpSockets : st'.utpSockets = st.utpSockets
  utpSocketsAddr : st'.utpSocketsAddr = st.utpSocketsAddr
  okChannels : st'.okChannels = st.okChannels
  sockets : ∀ s, st'.sockets s = st.sockets s ∨ ∃ sock, st.sockets s = some sock ∧
    sock.state = .connected ∧ st'.sockets s = some { sock with state := .connectedFull }
  hist : ∃ es, st'.hist = st.hist ++ es ∧ ∀ e ∈ es, e.isWrite = true
  outbox : ∃ sigs, st'.outbox = st.outbox ++ sigs ∧ ∀ sig ∈ sigs, sig.isIdle = true

namespace Wrote

variable {st st' st'' : UtpHandle}

/-- A state that does not change. -/
theorem refl (st : UtpHandle) : Wrote st st :=
  ⟨rfl, rfl, rfl, rfl, fun _ => Or.inl rfl, ⟨[], by simp⟩, ⟨[], by simp⟩⟩

/-- Two rounds of writing in a row. -/
theorem trans (h : Wrote st st') (h' : Wrote st' st'') : Wrote st st'' := by
  obtain ⟨es, hes, hw⟩ := h.hist
  obtain ⟨es', hes', hw'⟩ := h'.hist
  obtain ⟨sigs, hsigs, hi⟩ := h.outbox
  obtain ⟨sigs', hsigs', hi'⟩ := h'.outbox
  refine
    { nextSock := h'.nextSock.trans h.nextSock
      utpSockets := h'.utpSockets.trans h.utpSockets
      utpSocketsAddr := h'.utpSocketsAddr.trans h.utpSocketsAddr
      okChannels := h'.okChannels.trans h.okChannels
      sockets := fun s => ?_
      hist := ⟨es ++ es', by rw [hes', hes, List.append_assoc], fun e he => ?_⟩
      outbox := ⟨sigs ++ sigs', by rw [hsigs', hsigs, List.append_assoc], fun sig hs => ?_⟩ }
  · rcases h'.sockets s with heq | ⟨sock, hs, hstate, hs'⟩
    · rw [heq]
      exact h.sockets s
    · rcases h.sockets s with heq | ⟨sock₀, -, -, hs₀⟩
      · rw [heq] at hs
        exact Or.inr ⟨sock, hs, hstate, hs'⟩
      · -- A socket that has become full is not connected any more, so it stays full.
        rw [hs₀] at hs
        cases hs
        cases hstate
  · exact (List.mem_append.mp he).elim (hw e) (hw' e)
  · exact (List.mem_append.mp hs).elim (hi sig) (hi' sig)

/-- The queue is replaced. -/
theorem withQueue (st : UtpHandle) (q : List PackInfo) : Wrote st (st.withQueue q) :=
  ⟨rfl, rfl, rfl, rfl, fun _ => Or.inl rfl, ⟨[], by simp [UtpHandle.withQueue]⟩,
    ⟨[], by simp [UtpHandle.withQueue]⟩⟩

/-- An event of the write queue is recorded. -/
theorem record (st : UtpHandle) {e : HistEvent} (he : e.isWrite = true) :
    Wrote st (st.record e) :=
  ⟨rfl, rfl, rfl, rfl, fun _ => Or.inl rfl, ⟨[e], rfl, by simpa using he⟩,
    ⟨[], by simp [UtpHandle.record]⟩⟩

/-- An idle signal is emitted. -/
theorem emit (st : UtpHandle) {sig : UtpSignal} (h : sig.isIdle = true) :
    Wrote st (st.emit sig) :=
  ⟨rfl, rfl, rfl, rfl, fun _ => Or.inl rfl, ⟨[], by simp [UtpHandle.emit]⟩,
    ⟨[sig], rfl, by simpa using h⟩⟩

/-- `utp_write` is called. -/
theorem utpWrite (st : UtpHandle) (s : SockId) (pack : PackInfo) (r : WriteResult) :
    Wrote st (st.utpWrite s pack r).1 := by
  unfold UtpHandle.utpWrite
  cases hs : st.sockets s with
  | none => exact record st rfl
  | some sock =>
    refine trans ?_ (record _ rfl)
    refine ⟨rfl, rfl, rfl, rfl, fun s' => ?_, ⟨[], by simp [setSocket]⟩,
      ⟨[], by simp [setSocket]⟩⟩
    by_cases heq : s' = s
    · subst heq
      simp only [setSocket, Function.update_self, hs]
      rcases sock.write_fst (pack.buf.length - pack.pos) r with hw | ⟨hstate, hw⟩
      · exact Or.inl (by rw [hw])
      · exact Or.inr ⟨sock, rfl, hstate, by rw [hw]⟩
    · exact Or.inl (Function.update_of_ne heq _ _)

/-- What the loop over the write queue does, is writing. -/
theorem closed (st₀ : UtpHandle) : WriteClosed (Wrote st₀) where
  discard st _ rest _ _ h := h.trans ((withQueue st rest).trans (record _ rfl))
  offer st pack _ s r _ _ _ _ h := h.trans ((utpWrite st s pack r).trans (withQueue _ _))
  complete st pack rest s r _ _ _ _ _ h :=
    h.trans ((utpWrite st s pack r).trans
      ((emit _ rfl).trans ((withQueue _ rest).trans (record _ rfl))))
  skip st _ rest _ _ _ _ _ h := h.trans ((withQueue st rest).trans (record _ rfl))

end Wrote

/-- The frame of `processWrite`. -/
theorem processWrite_wrote (st : UtpHandle) (o : Oracle) : Wrote st (st.processWrite o) :=
  processWrite_closed (Wrote.closed st) st o (Wrote.refl st)

end UtpHandle

/-! ### The base steps -/

namespace UtpHandle

/-- `save2WriteQueue` before its `processWrite`. -/
def enqueue (st : UtpHandle) (peerAddr : QString) (buf : QByteArray) : UtpHandle :=
  let pack : PackInfo := { peerAddr, buf, pos := 0, ticket := st.hist.length }
  (st.withQueue (st.writeQueue ++ [pack])).record (.enqueue pack)

/-- `acceptSyn` before the `processWrite` of `callback_on_accept`. -/
def acceptBase (st : UtpHandle) (peerAddr : QString) (connid : Nat) : UtpHandle :=
  { st with
      nextSock := st.nextSock + 1
      sockets := Function.update st.sockets st.nextSock
        (some (UTPSocket.accepted peerAddr connid))
      utpSocketsAddr := st.utpSocketsAddr.insert peerAddr st.nextSock
      okChannels := st.okChannels ++ [peerAddr]
      outbox := st.outbox ++ [.reqUDPSend peerAddr (.state connid), .utpAccept peerAddr]
      hist := st.hist ++ [.install peerAddr st.nextSock, .established st.nextSock] }

/-- `UTP_STATE_CONNECT` for the socket `s` before its `processWrite`. -/
def connectBase (st : UtpHandle) (s : SockId) (sock : UTPSocket) : UtpHandle :=
  { st with
      sockets := Function.update st.sockets s (some { sock with state := .connected })
      okChannels := st.okChannels ++ [st.utpSocketsAddr.key s []]
      outbox := st.outbox ++ [.utpConnected sock.userdata]
      hist := st.hist ++ [.established s] }

/-- `UTP_STATE_DESTROYING` for the socket `s`, which libutp then frees. -/
def destroyBase (st : UtpHandle) (s : SockId) (sock : UTPSocket) : UtpHandle :=
  { st with
      sockets := Function.update st.sockets s none
      utpSockets := st.utpSockets.erase sock.userdata
      utpSocketsAddr := st.utpSocketsAddr.erase (st.utpSocketsAddr.key s [])
      outbox := st.outbox ++ [.utpError (st.utpSocketsAddr.key s []) sock.userdata]
      hist := st.hist ++ [.destroyed s] }

/-- What an action does before it calls `processWrite`. -/
inductive BaseStep (st : UtpHandle) : UtpAction → UtpHandle → Prop
  | connectToPeer (peerAddr : QString) (connectID : Int) (seed : Nat) (hcolon : ':' ∈ peerAddr)
    (hfree : keyFree st.sockets peerAddr seed st.nextSock = true) :
    BaseStep st (.connectToPeer peerAddr connectID seed)
      (st.connectToPeer peerAddr connectID seed)
  | setAcceptConnID (peerAddr : QString) (connectID : Int) :
    BaseStep st (.setAcceptConnID peerAddr connectID) (st.setAcceptConnID peerAddr connectID)
  | onCloseSocket (peerAddr : QString) (connectID : Int) :
    BaseStep st (.onCloseSocket peerAddr connectID) (st.onCloseSocket peerAddr connectID)
  | enqueue (peerAddr : QString) (buf : QByteArray) (o : Oracle) :
    BaseStep st (.save2WriteQueue peerAddr buf o) (st.enqueue peerAddr buf)
  | processLoop (o : Oracle) : BaseStep st (.processLoop o) st
  | accept (peerAddr : QString) (connid : Nat) (o : Oracle) (hcolon : ':' ∈ peerAddr)
    (hfree : keyFree st.sockets peerAddr (connid + 1) st.nextSock = true) :
    BaseStep st (.event (.accept peerAddr connid) o) (st.acceptBase peerAddr connid)
  | connect (s : SockId) (sock : UTPSocket) (o : Oracle) (hs : st.sockets s = some sock)
    (hstate : sock.state = .synSent) :
    BaseStep st (.event (.connect s) o) (st.connectBase s sock)
  | writable (s : SockId) (sock : UTPSocket) (o : Oracle) (hs : st.sockets s = some sock)
    (hstate : sock.state = .connectedFull) :
    BaseStep st (.event (.writable s) o) (st.setSocket s { sock with state := .connected })
  | read (s : SockId) (sock : UTPSocket) (buf : QByteArray) (o : Oracle)
    (hs : st.sockets s = some sock) (hstate : sock.isConnected = true) :
    BaseStep st (.event (.read s buf) o)
      ((st.emit (.utpRecv sock.userdata buf)).record (.read s sock.userdata buf))
  | eof (s : SockId) (sock : UTPSocket) (o : Oracle) (hs : st.sockets s = some sock)
    (hstate : sock.isConnected = true) :
    BaseStep st (.event (.eof s) o)
      ((st.setSocket s { sock with state := .destroyDelay }).record (.close s))
  | error (s : SockId) (sock : UTPSocket) (o : Oracle) (hs : st.sockets s = some sock) :
    BaseStep st (.event (.error s) o) (st.setSocket s sock.fail)
  | expire (s : SockId) (sock : UTPSocket) (o : Oracle) (hs : st.sockets s = some sock)
    (hstate : sock.state = .gotFin ∨ sock.state = .destroyDelay ∨ sock.state = .finSent) :
    BaseStep st (.event (.expire s) o) (st.setSocket s sock.expire)
  | destroying (s : SockId) (sock : UTPSocket) (o : Oracle) (hs : st.sockets s = some sock)
    (hstate : sock.state = .destroy) :
    BaseStep st (.event (.destroying s) o) (st.destroyBase s sock)
  | sendto (peerAddr : QString) (pkt : Packet) (o : Oracle) :
    BaseStep st (.event (.sendto peerAddr pkt) o) (st.emit (.reqUDPSend peerAddr pkt))

/-- The `processWrite` that ends an action, if it calls it. -/
def endStep (st : UtpHandle) : UtpAction → UtpHandle
  | .save2WriteQueue _ _ o => st.processWrite o
  | .processLoop o => st.processWrite o
  | .event (.accept _ _) o => st.processWrite o
  | .event (.connect _) o => st.processWrite o
  | .event (.writable _) o => st.processWrite o
  | _ => st

/-- A report about a socket needs the socket. -/
theorem exists_socket {st st' : UtpHandle} {s : SockId} {f : UTPSocket → Option UtpHandle}
    (h : (match st.sockets s with
      | none => none
      | some sock => f sock) = some st') :
    ∃ sock, st.sockets s = some sock ∧ f sock = some st' := by
  cases hs : st.sockets s with
  | none =>
    rw [hs] at h
    cases h
  | some sock =>
    rw [hs] at h
    exact ⟨sock, rfl, h⟩

/-- Every step is a base step and then `processWrite`, or the base step alone. -/
theorem step_base {st st' : UtpHandle} {a : UtpAction} (h : st.step a = some st') :
    ∃ mid, BaseStep st a mid ∧ st' = mid.endStep a := by
  cases a with
  | connectToPeer peerAddr connectID seed =>
    simp only [step] at h
    split at h
    · rename_i hg
      cases h
      exact ⟨_, .connectToPeer peerAddr connectID seed hg.1 hg.2, rfl⟩
    · cases h
  | setAcceptConnID peerAddr connectID =>
    cases h
    exact ⟨_, .setAcceptConnID peerAddr connectID, rfl⟩
  | onCloseSocket peerAddr connectID =>
    cases h
    exact ⟨_, .onCloseSocket peerAddr connectID, rfl⟩
  | save2WriteQueue peerAddr buf o =>
    cases h
    exact ⟨_, .enqueue peerAddr buf o, rfl⟩
  | processLoop o =>
    cases h
    exact ⟨_, .processLoop o, rfl⟩
  | event e o =>
    cases e with
    | accept peerAddr connid =>
      simp only [step, onEvent] at h
      split at h
      · rename_i hg
        cases h
        -- The callback writes the members one after the other, `acceptBase` in one go.
        refine ⟨_, .accept peerAddr connid o hg.1 hg.2, ?_⟩
        simp [acceptSyn, callbackOnAccept, acceptBase, endStep, emit, record, setSocket]
      · cases h
    | connect s =>
      -- An event of a socket has a step only while the socket exists.
      obtain ⟨sock, hs, h⟩ := exists_socket h
      split at h
      · rename_i hstate
        cases h
        refine ⟨_, .connect s sock o hs hstate, ?_⟩
        simp [callbackOnConnect, connectBase, endStep, emit, record, setSocket, userdata]
      · cases h
    | writable s =>
      obtain ⟨sock, hs, h⟩ := exists_socket h
      split at h
      · rename_i hstate
        cases h
        exact ⟨_, .writable s sock o hs hstate, rfl⟩
      · cases h
    | read s buf =>
      obtain ⟨sock, hs, h⟩ := exists_socket h
      split at h
      · rename_i hstate
        cases h
        refine ⟨_, .read s sock buf o hs hstate, ?_⟩
        simp [callbackOnRead, endStep, userdata, hs]
      · cases h
    | eof s =>
      obtain ⟨sock, hs, h⟩ := exists_socket h
      split at h
      · rename_i hstate
        cases h
        refine ⟨_, .eof s sock o hs hstate, ?_⟩
        simp [utpClose, endStep, setSocket, UTPSocket.close]
      · cases h
    | error s =>
      obtain ⟨sock, hs, h⟩ := exists_socket h
      cases h
      exact ⟨_, .error s sock o hs, rfl⟩
    | expire s =>
      obtain ⟨sock, hs, h⟩ := exists_socket h
      split at h
      · rename_i hstate
        cases h
        exact ⟨_, .expire s sock o hs hstate, rfl⟩
      · cases h
    | destroying s =>
      obtain ⟨sock, hs, h⟩ := exists_socket h
      split at h
      · rename_i hstate
        cases h
        refine ⟨_, .destroying s sock o hs hstate, ?_⟩
        simp [callbackOnDestroying, destroyBase, endStep, emit, record, userdata, hs]
      · cases h
    | sendto peerAddr pkt =>
      cases h
      exact ⟨_, .sendto peerAddr pkt o, rfl⟩

/-- `endStep` keeps what the writes keep. -/
theorem endStep_closed {P : UtpHandle → Prop} (hP : WriteClosed P) (st : UtpHandle)
    (a : UtpAction) (h : P st) : P (st.endStep a) := by
  cases a with
  | save2WriteQueue peerAddr buf o => exact processWrite_closed hP st o h
  | processLoop o => exact processWrite_closed hP st o h
  | event e o =>
    cases e with
    | accept => exact processWrite_closed hP st o h
    | connect => exact processWrite_closed hP st o h
    | writable => exact processWrite_closed hP st o h
    | _ => exact h
  | _ => exact h

/-- The frame of the end of a step. -/
theorem endStep_wrote (st : UtpHandle) (a : UtpAction) : Wrote st (st.endStep a) :=
  endStep_closed (Wrote.closed st) st a (Wrote.refl st)

/-- The rule for a step: what the base step establishes and the writes keep. -/
theorem step_rule {P : UtpHandle → Prop} (hP : WriteClosed P) {st st' : UtpHandle}
    {a : UtpAction} (h : st.step a = some st') (hbase : ∀ mid, BaseStep st a mid → P mid) :
    P st' := by
  obtain ⟨mid, hmid, rfl⟩ := step_base h
  exact endStep_closed hP mid a (hbase mid hmid)

end UtpHandle

end EChannel.LibTrans
