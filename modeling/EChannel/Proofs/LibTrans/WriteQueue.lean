import EChannel.LibTrans.History
import EChannel.Proofs.LibTrans.Steps

/-!
# `EChannel.Proofs.LibTrans.WriteQueue`: what `processWrite` does to the packs

A pack enters the queue once and leaves it once, finished or discarded, and the bytes between
its position and its end are what libutp has not taken of it. `WriteInv` states this as an
accounting between `m_okChannels`, the queue and the history, with one lemma for each kind of
event. `Accounted` is the same for a state of the uTP thread. Every step keeps it: a base step
enqueues a pack or is `Quiet`, and the writes are closed under it.
-/

set_option autoImplicit false

namespace EChannel.LibTrans

open LibUtp

/-! ### The accounting invariant -/

/-- What holds between `m_okChannels`, the write queue and the history in every run:

- `fifo`, `tickets`, `ticket_lt`: packs leave the queue in the order in which they came, and
  their tickets tell them apart;
- `offered`: only enqueued packs are offered to libutp;
- `pos`, `tail_pos`, `pos_ok`: the position stays within the buffer, only the head of the
  queue has been started, and only for a listed peer;
- `ofQueue`, `ofFinished`, `ofDiscarded`: how much of each pack libutp has taken;
- `stream`: what libutp has taken for each peer, in order. -/
structure WriteInv (ok : List QString) (q : List PackInfo) (h : List HistEvent) : Prop where
  fifo : enqueued h = left h ++ q.map PackInfo.start
  tickets : (enqueued h).Pairwise fun p p' => p.ticket < p'.ticket
  ticket_lt : ∀ p ∈ enqueued h, p.ticket < h.length
  offered : ∀ s p n, HistEvent.offer s p n ∈ h → p.start ∈ enqueued h
  pos : ∀ p ∈ q, p.pos ≤ p.buf.length
  tail_pos : ∀ p ∈ q.tail, p.pos = 0
  pos_ok : ∀ p ∈ q, 0 < p.pos → p.peerAddr ∈ ok
  ofQueue : ∀ p ∈ q, takenOf p.ticket h = p.buf.take p.pos
  ofFinished : ∀ p ∈ finished h, takenOf p.ticket h = p.buf
  ofDiscarded : ∀ p ok', HistEvent.discard p ok' ∈ h →
    p.peerAddr ∉ ok' ∧ takenOf p.ticket h = []
  stream : ∀ a, takenFor a h =
    ((finished h).filter (fun p => p.peerAddr = a)).flatMap PackInfo.buf ++
      (q.filter (fun p => p.peerAddr = a)).flatMap (fun p => p.buf.take p.pos)

namespace WriteInv

variable {ok : List QString} {q rest : List PackInfo} {pack : PackInfo} {h : List HistEvent}

/-- The empty queue and the empty history. -/
theorem init : WriteInv [] [] [] := by
  constructor <;> simp [enqueued, left, finished, takenFor, taken]

/-- A finished pack has left the queue. -/
theorem mem_left_of_finished {p : PackInfo} (hp : p ∈ finished h) : p ∈ left h := by
  obtain ⟨e, he, hval⟩ := List.mem_filterMap.mp hp
  refine List.mem_filterMap.mpr ⟨e, he, ?_⟩
  cases e <;> simp_all [HistEvent.finished?, HistEvent.left?]

/-- A discarded pack has left the queue. -/
theorem mem_left_of_discard {p : PackInfo} {ok' : List QString}
    (hp : HistEvent.discard p ok' ∈ h) : p ∈ left h :=
  List.mem_filterMap.mpr ⟨_, hp, rfl⟩

/-- Packs that left the queue have smaller tickets than the packs in it. -/
theorem ticket_lt_of_left (hI : WriteInv ok q h) {p p' : PackInfo} (hp : p ∈ left h)
    (hp' : p' ∈ q) : p.ticket < p'.ticket := by
  have hpair := hI.tickets
  rw [hI.fifo, List.pairwise_append] at hpair
  exact hpair.2.2 p hp p'.start (List.mem_map_of_mem hp')

/-- The packs behind the head have larger tickets. -/
theorem ticket_lt_of_tail (hI : WriteInv ok (pack :: rest) h) {p : PackInfo} (hp : p ∈ rest) :
    pack.ticket < p.ticket := by
  have hpair := hI.tickets
  rw [hI.fifo, List.pairwise_append, List.map_cons, List.pairwise_cons] at hpair
  exact hpair.2.1.1 p.start (List.mem_map_of_mem hp)

/-- Everything the queue still holds has been enqueued. -/
theorem mem_enqueued_of_queue (hI : WriteInv ok q h) {p : PackInfo} (hp : p ∈ q) :
    p.start ∈ enqueued h := by
  rw [hI.fifo]
  exact List.mem_append_right _ (List.mem_map_of_mem hp)

/-- Nothing has been taken of a pack that is not enqueued yet. -/
theorem takenOf_length (hI : WriteInv ok q h) : takenOf h.length h = [] := by
  refine taken_eq_nil fun s p n hoff => ?_
  have hlt := hI.ticket_lt _ (hI.offered s p n hoff)
  simp only [PackInfo.start] at hlt
  simp only [decide_eq_false_iff_not]
  omega

/-- Events that concern no pack, and a longer `m_okChannels`, change nothing. -/
theorem neutral (hI : WriteInv ok q h) {ok' : List QString} {es : List HistEvent}
    (hok : ok ⊆ ok') (hes : ∀ e ∈ es, e.isNeutral = true) : WriteInv ok' q (h ++ es) := by
  obtain ⟨henq, hfin, -, hleft, htaken⟩ := neutral_history hes
  have hof : ∀ t, takenOf t es = [] := fun t => htaken _
  have hfor : ∀ a, takenFor a es = [] := fun a => htaken _
  refine
    { fifo := by simpa [henq, hleft] using hI.fifo
      tickets := by simpa [henq] using hI.tickets
      ticket_lt := fun p hp => ?_
      offered := fun s p n hoff => ?_
      pos := hI.pos
      tail_pos := hI.tail_pos
      pos_ok := fun p hp hpos => hok (hI.pos_ok p hp hpos)
      ofQueue := fun p hp => by simpa [hof] using hI.ofQueue p hp
      ofFinished := fun p hp => by simpa [hof] using hI.ofFinished p (by simpa [hfin] using hp)
      ofDiscarded := fun p ok'' hdis => ?_
      stream := fun a => by simpa [hfor, hfin] using hI.stream a }
  · have := hI.ticket_lt p (by simpa [henq] using hp)
    rw [List.length_append]
    omega
  · rcases List.mem_append.mp hoff with hold | hnew
    · simpa [henq] using hI.offered s p n hold
    · cases hes _ hnew
  · rcases List.mem_append.mp hdis with hold | hnew
    · simpa [hof] using hI.ofDiscarded p ok'' hold
    · cases hes _ hnew

/-- `save2WriteQueue` puts a pack at the end of the queue. -/
theorem enqueue (hI : WriteInv ok q h) (peerAddr : QString) (buf : QByteArray) :
    WriteInv ok (q ++ [⟨peerAddr, buf, 0, h.length⟩])
      (h ++ [.enqueue ⟨peerAddr, buf, 0, h.length⟩]) := by
  -- The new event is an entry, and nothing is taken, finished or dropped by it.
  have henq : enqueued [HistEvent.enqueue ⟨peerAddr, buf, 0, h.length⟩]
      = [⟨peerAddr, buf, 0, h.length⟩] := rfl
  have hof : ∀ t, takenOf t [HistEvent.enqueue ⟨peerAddr, buf, 0, h.length⟩] = [] :=
    fun _ => rfl
  have hfor : ∀ a, takenFor a [HistEvent.enqueue ⟨peerAddr, buf, 0, h.length⟩] = [] :=
    fun _ => rfl
  have hleft : left [HistEvent.enqueue ⟨peerAddr, buf, 0, h.length⟩] = [] := rfl
  have hfin : finished [HistEvent.enqueue ⟨peerAddr, buf, 0, h.length⟩] = [] := rfl
  refine
    { fifo := by simp [henq, hleft, hI.fifo, PackInfo.start]
      tickets := ?_
      ticket_lt := fun p hp => ?_
      offered := fun s p n hoff => ?_
      pos := fun p hp => ?_
      tail_pos := fun p hp => ?_
      pos_ok := fun p hp hpos => ?_
      ofQueue := fun p hp => ?_
      ofFinished := fun p hp => by simpa [hof] using hI.ofFinished p (by simpa [hfin] using hp)
      ofDiscarded := fun p ok'' hdis => ?_
      stream := fun a => ?_ }
  · -- The ticket is the length of the history, above all earlier ones.
    rw [enqueued_append, henq, List.pairwise_append]
    refine ⟨hI.tickets, List.pairwise_singleton _ _, fun p hp p' hp' => ?_⟩
    rw [List.mem_singleton.mp hp']
    exact hI.ticket_lt p hp
  · rw [List.length_append, List.length_singleton]
    rw [enqueued_append, henq] at hp
    rcases List.mem_append.mp hp with hold | hnew
    · have := hI.ticket_lt p hold
      omega
    · rw [List.mem_singleton.mp hnew]
      exact Nat.lt_succ_self _
  · have hold : HistEvent.offer s p n ∈ h := by simpa using hoff
    rw [enqueued_append]
    exact List.mem_append_left _ (hI.offered s p n hold)
  · rcases List.mem_append.mp hp with hold | hnew
    · exact hI.pos p hold
    · rw [List.mem_singleton.mp hnew]
      exact Nat.zero_le _
  · cases q with
    | nil => simp at hp
    | cons p' q' =>
      rcases List.mem_append.mp hp with hold | hnew
      · exact hI.tail_pos p hold
      · rw [List.mem_singleton.mp hnew]
  · rcases List.mem_append.mp hp with hold | hnew
    · exact hI.pos_ok p hold hpos
    · rw [List.mem_singleton.mp hnew] at hpos
      exact absurd hpos (Nat.lt_irrefl 0)
  · rcases List.mem_append.mp hp with hold | hnew
    · simpa [hof] using hI.ofQueue p hold
    · rw [List.mem_singleton.mp hnew]
      simp [hof, hI.takenOf_length]
  · have hold : HistEvent.discard p ok'' ∈ h := by simpa using hdis
    simpa [hof] using hI.ofDiscarded p ok'' hold
  · rw [takenFor_append, hfor, List.append_nil, finished_append, hfin, List.append_nil,
      hI.stream a, List.filter_append, List.flatMap_append]
    by_cases ha : peerAddr = a <;> simp [ha]

/-- A `utp_write` moves bytes of the head pack from the queue to the stream. -/
theorem offer (hI : WriteInv ok (pack :: rest) h) (s : SockId) (n : Nat)
    (hok : pack.peerAddr ∈ ok) (hn : pack.pos + n ≤ pack.buf.length) :
    WriteInv ok ({ pack with pos := pack.pos + n } :: rest) (h ++ [.offer s pack n]) := by
  have hof : ∀ t, takenOf t [HistEvent.offer s pack n]
      = if pack.ticket = t then pack.rest.take n else [] := by
    intro t
    simp [takenOf, taken, HistEvent.taken]
  have hfor : ∀ a, takenFor a [HistEvent.offer s pack n]
      = if pack.peerAddr = a then pack.rest.take n else [] := by
    intro a
    simp [takenFor, taken, HistEvent.taken]
  have henq : enqueued [HistEvent.offer s pack n] = [] := rfl
  have hleft : left [HistEvent.offer s pack n] = [] := rfl
  have hfin : finished [HistEvent.offer s pack n] = [] := rfl
  have hsplit : pack.buf.take pack.pos ++ pack.rest.take n = pack.buf.take (pack.pos + n) := by
    rw [PackInfo.rest, ← List.take_add]
  -- The packs in front of the head and behind it have other tickets, so their share is the same.
  have hleft_ne : ∀ p ∈ left h, pack.ticket ≠ p.ticket := fun p hp =>
    Nat.ne_of_gt (hI.ticket_lt_of_left hp List.mem_cons_self)
  refine
    { fifo := by simpa [henq, hleft, PackInfo.start] using hI.fifo
      tickets := by simpa [henq] using hI.tickets
      ticket_lt := fun p hp => ?_
      offered := fun s' p m hoff => ?_
      pos := fun p hp => ?_
      tail_pos := hI.tail_pos
      pos_ok := fun p hp hpos => ?_
      ofQueue := fun p hp => ?_
      ofFinished := fun p hp => ?_
      ofDiscarded := fun p ok' hdis => ?_
      stream := fun a => ?_ }
  · have := hI.ticket_lt p (by simpa [henq] using hp)
    rw [List.length_append]
    omega
  · rw [enqueued_append, henq, List.append_nil]
    rcases List.mem_append.mp hoff with hold | hnew
    · exact hI.offered s' p m hold
    · cases List.mem_singleton.mp hnew
      exact hI.mem_enqueued_of_queue List.mem_cons_self
  · rcases List.mem_cons.mp hp with rfl | hrest
    · exact hn
    · exact hI.pos p (List.mem_cons_of_mem _ hrest)
  · rcases List.mem_cons.mp hp with rfl | hrest
    · exact hok
    · exact hI.pos_ok p (List.mem_cons_of_mem _ hrest) hpos
  · rcases List.mem_cons.mp hp with rfl | hrest
    · rw [takenOf_append, hof, if_pos rfl, hI.ofQueue pack List.mem_cons_self, hsplit]
    · have hne := Nat.ne_of_lt (hI.ticket_lt_of_tail hrest)
      rw [takenOf_append, hof, if_neg hne, List.append_nil,
        hI.ofQueue p (List.mem_cons_of_mem _ hrest)]
  · have hp' : p ∈ finished h := by simpa [hfin] using hp
    rw [takenOf_append, hof, if_neg (hleft_ne p (mem_left_of_finished hp')), List.append_nil,
      hI.ofFinished p hp']
  · have hold : HistEvent.discard p ok' ∈ h := by simpa using hdis
    rw [takenOf_append, hof, if_neg (hleft_ne p (mem_left_of_discard hold)), List.append_nil]
    exact hI.ofDiscarded p ok' hold
  · have htail : ∀ a, (rest.filter (fun p => p.peerAddr = a)).flatMap
        (fun p => p.buf.take p.pos) = [] := by
      intro a
      refine List.flatMap_eq_nil_iff.mpr fun p hp => ?_
      rw [hI.tail_pos p (List.mem_of_mem_filter hp), List.take_zero]
    have hstream := hI.stream a
    rw [takenFor_append, hfor, finished_append, hfin, List.append_nil, hstream]
    by_cases ha : pack.peerAddr = a
    · simp [ha, htail, hsplit]
    · simp [ha]

/-- The head of the queue leaves it with the event `e`, finished or discarded. -/
theorem leave (hI : WriteInv ok (pack :: rest) h) {e : HistEvent}
    (hleft : e.left? = some pack.start)
    (hfin : ∀ p ∈ finished [e], takenOf p.ticket h = p.buf)
    (hdis : ∀ p ok', e = .discard p ok' → p.peerAddr ∉ ok' ∧ takenOf p.ticket h = [])
    (hstream : ∀ a, ((finished [e]).filter (fun p => p.peerAddr = a)).flatMap PackInfo.buf
      = ([pack].filter (fun p => p.peerAddr = a)).flatMap (fun p => p.buf.take p.pos)) :
    WriteInv ok rest (h ++ [e]) := by
  -- An event with which a pack leaves is neither an entry nor an offer.
  have henq : enqueued [e] = [] := by cases e <;> first | rfl | cases hleft
  have htaken : ∀ sel, taken sel [e] = [] := by cases e <;> first | exact fun _ => rfl | cases hleft
  have hof : ∀ t, takenOf t [e] = [] := fun _ => htaken _
  have hfor : ∀ a, takenFor a [e] = [] := fun _ => htaken _
  have hlast : left [e] = [pack.start] := by simp [left, hleft]
  refine
    { fifo := by simpa [henq, hlast] using hI.fifo
      tickets := by simpa [henq] using hI.tickets
      ticket_lt := fun p hp => ?_
      offered := fun s p m hoff => ?_
      pos := fun p hp => hI.pos p (List.mem_cons_of_mem _ hp)
      tail_pos := fun p hp => hI.tail_pos p (List.mem_of_mem_tail hp)
      pos_ok := fun p hp hpos => hI.pos_ok p (List.mem_cons_of_mem _ hp) hpos
      ofQueue := fun p hp => by simpa [hof] using hI.ofQueue p (List.mem_cons_of_mem _ hp)
      ofFinished := fun p hp => ?_
      ofDiscarded := fun p ok' hd => ?_
      stream := fun a => ?_ }
  · have := hI.ticket_lt p (by simpa [henq] using hp)
    rw [List.length_append]
    omega
  · rw [enqueued_append, henq, List.append_nil]
    rcases List.mem_append.mp hoff with hold | hnew
    · exact hI.offered s p m hold
    · cases List.mem_singleton.mp hnew
      cases hleft
  · rw [takenOf_append, hof, List.append_nil]
    rw [finished_append] at hp
    exact (List.mem_append.mp hp).elim (hI.ofFinished p) (hfin p)
  · rw [takenOf_append, hof, List.append_nil]
    rcases List.mem_append.mp hd with hold | hnew
    · exact hI.ofDiscarded p ok' hold
    · exact hdis p ok' (List.mem_singleton.mp hnew).symm
  · rw [takenFor_append, hfor, List.append_nil, finished_append, List.filter_append,
      List.flatMap_append, hstream, hI.stream a, List.append_assoc, ← List.flatMap_append,
      ← List.filter_append, List.singleton_append]

/-- A pack whose bytes have all been taken leaves the queue as finished. -/
theorem finish (hI : WriteInv ok (pack :: rest) h) (hfull : pack.pos = pack.buf.length) :
    WriteInv ok rest (h ++ [.finish pack.start]) := by
  have hbuf : pack.buf.take pack.pos = pack.buf := by rw [hfull, List.take_length]
  refine hI.leave rfl (fun p hp => ?_) (fun p ok' heq => by cases heq) fun a => ?_
  · rw [List.mem_singleton.mp hp]
    exact (hI.ofQueue pack List.mem_cons_self).trans hbuf
  · show ([pack.start].filter _).flatMap _ = _
    by_cases ha : pack.peerAddr = a <;> simp [ha, hbuf]

/-- A pack for a peer that is not listed leaves the queue as discarded, and libutp has taken
nothing of it. -/
theorem discard (hI : WriteInv ok (pack :: rest) h) (hok : pack.peerAddr ∉ ok) :
    WriteInv ok rest (h ++ [.discard pack.start ok]) := by
  -- A started pack has a listed address, and addresses stay listed.
  have hzero : pack.pos = 0 := by
    by_contra hne
    exact hok (hI.pos_ok pack List.mem_cons_self (Nat.pos_of_ne_zero hne))
  have hbuf : pack.buf.take pack.pos = [] := by rw [hzero, List.take_zero]
  refine hI.leave rfl (fun p hp => by cases hp) (fun p ok' heq => ?_) fun a => ?_
  · cases heq
    exact ⟨hok, (hI.ofQueue pack List.mem_cons_self).trans hbuf⟩
  · show [] = _
    by_cases ha : pack.peerAddr = a <;> simp [ha, hbuf]

end WriteInv

/-! ### Every step keeps the accounting -/

/-- The peer of a `utpIdle` signal. -/
def UtpSignal.idle? : UtpSignal → Option QString
  | .utpIdle peerAddr => some peerAddr
  | _ => none

/-- The peers of the `utpIdle` signals, in order. -/
def idles (sigs : List UtpSignal) : List QString := sigs.filterMap UtpSignal.idle?

/-- The idle signals of two lists in a row. -/
@[simp] theorem idles_append (sigs sigs' : List UtpSignal) :
    idles (sigs ++ sigs') = idles sigs ++ idles sigs' := by
  simp [idles]

namespace UtpHandle

/-- What a base step does besides enqueueing: the queue stays, no address leaves
`m_okChannels`, and neither the history nor the signals speak of packs. -/
structure Quiet (st st' : UtpHandle) : Prop where
  queue : st'.writeQueue = st.writeQueue
  ok : st.okChannels ⊆ st'.okChannels
  hist : ∃ es, st'.hist = st.hist ++ es ∧ ∀ e ∈ es, HistEvent.isNeutral e = true
  outbox : idles st'.outbox = idles st.outbox

/-- A state that does not change. -/
theorem Quiet.refl (st : UtpHandle) : Quiet st st :=
  ⟨rfl, fun _ h => h, ⟨[], by simp⟩, rfl⟩

/-- Two quiet steps in a row. -/
theorem Quiet.trans {st st' st'' : UtpHandle} (h : Quiet st st') (h' : Quiet st' st'') :
    Quiet st st'' := by
  obtain ⟨es, hes, hn⟩ := h.hist
  obtain ⟨es', hes', hn'⟩ := h'.hist
  refine ⟨h'.queue.trans h.queue, fun _ hx => h'.ok (h.ok hx), ⟨es ++ es', ?_, ?_⟩,
    h'.outbox.trans h.outbox⟩
  · rw [hes', hes, List.append_assoc]
  · intro e he
    exact (List.mem_append.mp he).elim (hn e) (hn' e)

/-- An event that is not of the write queue is recorded. -/
theorem quiet_record (st : UtpHandle) {e : HistEvent} (he : e.isNeutral = true) :
    Quiet st (st.record e) :=
  ⟨rfl, fun _ h => h, ⟨[e], rfl, by simpa using he⟩, rfl⟩

/-- A signal that is not an idle signal is emitted. -/
theorem quiet_emit (st : UtpHandle) {sig : UtpSignal} (h : sig.idle? = none) :
    Quiet st (st.emit sig) :=
  ⟨rfl, fun _ h => h, ⟨[], by simp [emit]⟩, by simp [emit, idles, h]⟩

/-- A socket changes. -/
theorem quiet_setSocket (st : UtpHandle) (s : SockId) (sock : UTPSocket) :
    Quiet st (st.setSocket s sock) :=
  ⟨rfl, fun _ h => h, ⟨[], by simp [setSocket]⟩, rfl⟩

/-- `utp_close` is quiet. -/
theorem quiet_utpClose (st : UtpHandle) (s : SockId) : Quiet st (st.utpClose s) :=
  utpClose_rule (fun _ => quiet_record st rfl) fun sock _ =>
    (quiet_setSocket st s sock.close).trans (quiet_record _ rfl)

/-- A base step enqueues a pack or is quiet. -/
theorem BaseStep.quiet {st mid : UtpHandle} {a : UtpAction} (h : BaseStep st a mid) :
    Quiet st mid ∨ ∃ peerAddr buf o, a = .save2WriteQueue peerAddr buf o ∧
      mid = st.enqueue peerAddr buf := by
  cases h with
  | connectToPeer peerAddr connectID seed hcolon hfree =>
    exact Or.inl ⟨rfl, fun _ h => h,
      ⟨[.install peerAddr st.nextSock], rfl, by simp [HistEvent.isNeutral]⟩,
      by simp [UtpHandle.connectToPeer, emit, record, setSocket, idles, UtpSignal.idle?]⟩
  | setAcceptConnID peerAddr connectID =>
    exact Or.inl (setAcceptConnID_rule (Quiet.refl st) fun s _ _ _ => quiet_setSocket st s _)
  | onCloseSocket peerAddr connectID =>
    exact Or.inl (onCloseSocket_rule (Quiet.refl st) (quiet_utpClose st))
  | enqueue peerAddr buf o => exact Or.inr ⟨peerAddr, buf, o, rfl, rfl⟩
  | processLoop o => exact Or.inl (Quiet.refl st)
  | accept peerAddr connid o hcolon hfree =>
    exact Or.inl ⟨rfl, fun _ h => List.mem_append_left _ h,
      ⟨_, rfl, by simp [HistEvent.isNeutral]⟩, by simp [acceptBase, idles, UtpSignal.idle?]⟩
  | connect s sock o hs hstate =>
    exact Or.inl ⟨rfl, fun _ h => List.mem_append_left _ h,
      ⟨_, rfl, by simp [HistEvent.isNeutral]⟩, by simp [connectBase, idles, UtpSignal.idle?]⟩
  | writable s sock o hs hstate => exact Or.inl (quiet_setSocket st s _)
  | read s sock buf o hs hstate =>
    exact Or.inl ((quiet_emit st rfl).trans (quiet_record _ rfl))
  | eof s sock o hs hstate =>
    exact Or.inl ((quiet_setSocket st s _).trans (quiet_record _ rfl))
  | error s sock o hs => exact Or.inl (quiet_setSocket st s _)
  | expire s sock o hs hstate => exact Or.inl (quiet_setSocket st s _)
  | destroying s sock o hs hstate =>
    exact Or.inl ⟨rfl, fun _ h => h, ⟨_, rfl, by simp [HistEvent.isNeutral]⟩,
      by simp [destroyBase, idles, UtpSignal.idle?]⟩
  | sendto peerAddr pkt o => exact Or.inl (quiet_emit st rfl)

/-- The accounting of the write queue in a state of the uTP thread. A pack that is queued
has bytes left, unless it never had any. -/
structure Accounted (st : UtpHandle) : Prop where
  inv : WriteInv st.okChannels st.writeQueue st.hist
  unfinished : ∀ p ∈ st.writeQueue, p.pos < p.buf.length ∨ p.buf = []

/-- Nothing is queued at first. -/
theorem accounted_init : Accounted init := ⟨WriteInv.init, by simp [init]⟩

/-- The loop over the write queue keeps the account. -/
theorem accounted_closed : WriteClosed Accounted where
  discard st pack rest hq hok h := by
    obtain ⟨hinv, hunf⟩ := h
    rw [hq] at hinv hunf
    exact ⟨hinv.discard hok, fun p hp => hunf p (List.mem_cons_of_mem _ hp)⟩
  offer st pack rest s r hq hok hsock hlt h := by
    obtain ⟨hinv, hunf⟩ := h
    rw [hq] at hinv hunf
    refine ⟨?_, fun p hp => ?_⟩
    · have := hinv.offer s (st.utpWrite s pack r).2 hok (Nat.le_of_lt hlt)
      simpa [withQueue] using this
    · rcases List.mem_cons.mp hp with rfl | hrest
      · exact Or.inl hlt
      · exact hunf p (List.mem_cons_of_mem _ hrest)
  complete st pack rest s r hq hok hsock hlt hfull h := by
    obtain ⟨hinv, hunf⟩ := h
    rw [hq] at hinv hunf
    refine ⟨?_, fun p hp => hunf p (List.mem_cons_of_mem _ hp)⟩
    have := (hinv.offer s (st.utpWrite s pack r).2 hok (Nat.le_of_eq hfull)).finish hfull
    simpa [withQueue, record, emit, PackInfo.start] using this
  skip st pack rest s hq hok hsock hge h := by
    obtain ⟨hinv, hunf⟩ := h
    rw [hq] at hinv hunf
    have hfull : pack.pos = pack.buf.length :=
      Nat.le_antisymm (hinv.pos pack List.mem_cons_self) (Nat.not_lt.mp hge)
    exact ⟨hinv.finish hfull, fun p hp => hunf p (List.mem_cons_of_mem _ hp)⟩

/-- The part of a step before the loop over the write queue keeps the account. -/
theorem Accounted.base {st mid : UtpHandle} {a : UtpAction} (h : Accounted st)
    (hmid : BaseStep st a mid) : Accounted mid := by
  rcases hmid.quiet with hq | ⟨peerAddr, buf, -, -, rfl⟩
  · obtain ⟨es, hes, hneutral⟩ := hq.hist
    refine ⟨?_, fun p hp => h.unfinished p (hq.queue ▸ hp)⟩
    rw [hq.queue, hes]
    exact h.inv.neutral hq.ok hneutral
  · refine ⟨h.inv.enqueue peerAddr buf, fun p hp => ?_⟩
    rcases List.mem_append.mp hp with hold | hnew
    · exact h.unfinished p hold
    · rw [List.mem_singleton.mp hnew]
      exact (List.eq_nil_or_concat buf).symm.imp
        (fun ⟨l, x, hl⟩ => by simp [hl]) id

/-- The step lemma of the accounting. -/
theorem Accounted.step {st st' : UtpHandle} {a : UtpAction} (h : Accounted st)
    (hstep : st.step a = some st') : Accounted st' :=
  step_rule accounted_closed hstep fun _ hmid => h.base hmid

end UtpHandle

end EChannel.LibTrans
