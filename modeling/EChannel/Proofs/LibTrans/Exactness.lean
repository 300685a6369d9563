import EChannel.Proofs.LibTrans.Sockets
import EChannel.Proofs.LibTrans.WriteQueue

/-!
# `EChannel.Proofs.LibTrans.Exactness`: the write queue loses and repeats nothing

The accounting of `WriteQueue` is per peer address. Here it is read per socket: when each
address gets one socket only, what `utp_write` took on that socket and what the queue still
holds for the address make up what was enqueued for it, less the packs that were discarded
whole. `Installed` ties the sockets of the recorded `utp_write` calls to the addresses they
were installed for, and `IdlesMatch` ties the `utpIdle` signals to the finished packs.
-/

set_option autoImplicit false

namespace EChannel.LibTrans

open LibUtp

/-! ### Finished and discarded packs -/

/-- The packs that left the queue and satisfy `K`, when every discarded pack fails it. -/
theorem left_filter {K K' : PackInfo → Bool} :
    ∀ (h : List HistEvent), (∀ p ∈ finished h, K p = K' p) →
      (∀ p ∈ discarded h, K p = false) → (left h).filter K = (finished h).filter K' := by
  intro h
  induction h with
  | nil => intro _ _; rfl
  | cons e h ih =>
    intro hfin hdis
    cases e with
    | finish p =>
      have hp : K p = K' p := hfin p List.mem_cons_self
      have htail : (left h).filter K = (finished h).filter K' :=
        ih (fun p' hp' => hfin p' (List.mem_cons_of_mem _ hp')) hdis
      show (p :: left h).filter K = (p :: finished h).filter K'
      rw [List.filter_cons, List.filter_cons, hp, htail]
    | discard p ok =>
      have hp : K p = false := hdis p List.mem_cons_self
      have htail : (left h).filter K = (finished h).filter K' :=
        ih hfin (fun p' hp' => hdis p' (List.mem_cons_of_mem _ hp'))
      show (p :: left h).filter K = (finished h).filter K'
      rw [List.filter_cons, hp, htail]
      rfl
    | _ => exact ih hfin hdis

/-- A pack that left the queue once is not both finished and discarded. -/
theorem not_discarded_of_finished {p : PackInfo} :
    ∀ (h : List HistEvent), (left h).Nodup → p ∈ finished h → p ∉ discarded h := by
  intro h
  induction h with
  | nil => intro _ hfin; cases hfin
  | cons e h ih =>
    intro hnodup hfin hdis
    cases e with
    | finish p' =>
      have hnd := List.nodup_cons.mp (show (p' :: left h).Nodup from hnodup)
      rcases List.mem_cons.mp (show p ∈ p' :: finished h from hfin) with rfl | hfin'
      · obtain ⟨e, he, hval⟩ := List.mem_filterMap.mp hdis
        refine hnd.1 (List.mem_filterMap.mpr ⟨e, ?_, ?_⟩)
        · rcases List.mem_cons.mp he with rfl | he'
          · cases hval
          · exact he'
        · cases e <;> simp_all [HistEvent.discarded?, HistEvent.left?]
      · exact ih hnd.2 hfin' hdis
    | discard p' ok =>
      have hnd := List.nodup_cons.mp (show (p' :: left h).Nodup from hnodup)
      rcases List.mem_cons.mp (show p ∈ p' :: discarded h from hdis) with rfl | hdis'
      · exact hnd.1 (WriteInv.mem_left_of_finished hfin)
      · exact ih hnd.2 hfin hdis'
    | _ => exact ih hnodup hfin hdis

namespace WriteInv

variable {ok : List QString} {q : List PackInfo} {h : List HistEvent}

/-- A discarded pack was not listed and lost no byte to libutp. -/
theorem takenOf_of_discarded (hI : WriteInv ok q h) {p : PackInfo} (hp : p ∈ discarded h) :
    takenOf p.ticket h = [] := by
  obtain ⟨e, he, hval⟩ := List.mem_filterMap.mp hp
  cases e with
  | discard p' ok' =>
    cases hval
    exact (hI.ofDiscarded p ok' he).2
  | _ => cases hval

/-- The packs that left the queue are distinct. -/
theorem left_nodup (hI : WriteInv ok q h) : (left h).Nodup := by
  have hpair := hI.tickets
  rw [hI.fifo, List.pairwise_append] at hpair
  refine List.Pairwise.imp ?_ hpair.1
  intro p p' hlt heq
  rw [heq] at hlt
  exact Nat.lt_irrefl _ hlt

/-- A queued pack has not left the queue. -/
theorem not_discarded_of_queue (hI : WriteInv ok q h) {p : PackInfo} (hp : p ∈ q) :
    p.start ∉ discarded h := by
  intro hdis
  obtain ⟨e, he, hval⟩ := List.mem_filterMap.mp hdis
  have hleft : p.start ∈ left h := by
    refine List.mem_filterMap.mpr ⟨e, he, ?_⟩
    cases e <;> simp_all [HistEvent.discarded?, HistEvent.left?]
  have hlt : p.start.ticket < p.ticket := hI.ticket_lt_of_left hleft hp
  exact Nat.lt_irrefl _ hlt

/-- What libutp took for a peer and what the queue still holds for it make up what was
enqueued for it, without the discarded packs. -/
theorem takenFor_append_rest (hI : WriteInv ok q h) (a : QString) :
    takenFor a h ++ (q.filter (fun p => p.peerAddr = a)).flatMap PackInfo.rest
      = ((enqueued h).filter (fun p => p.peerAddr = a ∧ p ∉ discarded h)).flatMap
          PackInfo.buf := by
  have hleft : (left h).filter (fun p => p.peerAddr = a ∧ p ∉ discarded h)
      = (finished h).filter (fun p => p.peerAddr = a) := by
    refine left_filter h (fun p hp => ?_) (fun p hp => ?_)
    · simp [not_discarded_of_finished h hI.left_nodup hp]
    · simp [hp]
  have hqueue : (q.map PackInfo.start).filter (fun p => p.peerAddr = a ∧ p ∉ discarded h)
      = (q.filter (fun p => p.peerAddr = a)).map PackInfo.start := by
    rw [List.filter_map]
    refine congrArg _ (List.filter_congr fun p hp => decide_eq_decide.mpr ?_)
    exact ⟨And.left, fun ha => ⟨ha, hI.not_discarded_of_queue hp⟩⟩
  rw [hI.fifo, List.filter_append, hleft, hqueue, List.flatMap_append, hI.stream a,
    List.append_assoc]
  congr 1
  -- Only the head has been started, so the taken parts of the queue come before all rests.
  cases q with
  | nil => rfl
  | cons pack rest =>
    have htail : ∀ p ∈ rest.filter (fun p => p.peerAddr = a), p.pos = 0 := fun p hp =>
      hI.tail_pos p (List.mem_of_mem_filter hp)
    have htaken : (rest.filter (fun p => p.peerAddr = a)).flatMap
        (fun p => p.buf.take p.pos) = [] :=
      List.flatMap_eq_nil_iff.mpr fun p hp => by rw [htail p hp, List.take_zero]
    have hrest : (rest.filter (fun p => p.peerAddr = a)).flatMap PackInfo.rest
        = (rest.filter (fun p => p.peerAddr = a)).flatMap PackInfo.buf :=
      List.flatMap_congr fun p hp => by rw [PackInfo.rest, htail p hp, List.drop_zero]
    by_cases ha : pack.peerAddr = a
    · simp only [ha, decide_true, List.filter_cons_of_pos, List.flatMap_cons, htaken, hrest,
        List.append_nil, List.flatMap_map, List.map_cons, PackInfo.rest, PackInfo.start,
        ← List.append_assoc, List.take_append_drop]
    · simp [ha, htaken, hrest, PackInfo.start, List.flatMap_map]

end WriteInv

/-! ### The sockets of the recorded calls -/

/-- The socket that was installed for a peer, if there was one. -/
def socketOf (a : QString) (h : List HistEvent) : Option SockId :=
  h.findSome? fun e =>
    match e with
    | .install a' s => if a' = a then some s else none
    | _ => none

/-- The peer address gets one socket at most. -/
def SoleSocket (a : QString) (h : List HistEvent) : Prop :=
  ∀ s s', HistEvent.install a s ∈ h → HistEvent.install a s' ∈ h → s = s'

/-- The socket of an address was installed for it. -/
theorem socketOf_some {a : QString} {s : SockId} {h : List HistEvent}
    (hs : socketOf a h = some s) : HistEvent.install a s ∈ h := by
  obtain ⟨e, he, hval⟩ := List.exists_of_findSome?_eq_some hs
  cases e with
  | install a' s' =>
    simp only [Option.ite_none_right_eq_some, Option.some.injEq] at hval
    obtain ⟨rfl, rfl⟩ := hval
    exact he
  | _ => cases hval

/-- Without a socket of the address, none was installed for it. -/
theorem socketOf_none {a : QString} {h : List HistEvent} (hs : socketOf a h = none)
    (s : SockId) : HistEvent.install a s ∉ h := by
  intro hmem
  have := List.findSome?_eq_none_iff.mp hs _ hmem
  simp at this

namespace UtpHandle

/-! ### The idle signals -/

/-- The `utpIdle` signals are those of the finished packs with at least one byte, in the
order in which the packs were finished. -/
def IdlesMatch (st : UtpHandle) : Prop :=
  idles st.outbox = ((finished st.hist).filter (fun p => p.buf ≠ [])).map PackInfo.peerAddr

/-- The writes keep the idle signals in step. `skip` is the case of an empty pack, for which
nothing is emitted. -/
theorem idlesMatch_closed : WriteClosed fun st => Accounted st ∧ IdlesMatch st where
  discard st pack rest hq hok h := by
    refine ⟨accounted_closed.discard st pack rest hq hok h.1, ?_⟩
    have hfin : finished [HistEvent.discard pack.start st.okChannels] = [] := rfl
    simpa [IdlesMatch, record, withQueue, hfin] using h.2
  offer st pack rest s r hq hok hs hlt h := by
    refine ⟨accounted_closed.offer st pack rest s r hq hok hs hlt h.1, ?_⟩
    have hfin : finished [HistEvent.offer s pack (st.utpWrite s pack r).2] = [] := rfl
    simpa [IdlesMatch, withQueue, hfin] using h.2
  complete st pack rest s r hq hok hs hlt hfull h := by
    refine ⟨accounted_closed.complete st pack rest s r hq hok hs hlt hfull h.1, ?_⟩
    have hoff : finished [HistEvent.offer s pack (st.utpWrite s pack r).2] = [] := rfl
    have hfin : finished [HistEvent.finish pack.start] = [pack.start] := rfl
    have hne : pack.start.buf ≠ [] := by
      intro hnil
      rw [show pack.buf = [] from hnil] at hlt
      exact Nat.not_lt_zero _ hlt
    have hkeep : [pack.start].filter (fun p => p.buf ≠ []) = [pack.start] :=
      List.filter_cons_of_pos (decide_eq_true hne)
    have hidle : idles [UtpSignal.utpIdle pack.peerAddr] = [pack.peerAddr] := rfl
    have hold : idles st.outbox = _ := h.2
    simp only [IdlesMatch, record, withQueue, emit, utpWrite_outbox, utpWrite_hist,
      idles_append, finished_append, hoff, hfin, hidle, List.append_nil, List.filter_append,
      List.map_append, hold, hkeep]
    rfl
  skip st pack rest s hq hok hs hge h := by
    refine ⟨accounted_closed.skip st pack rest s hq hok hs hge h.1, ?_⟩
    -- The write loop is not entered, although a queued pack with bytes has some left.
    have hnil : pack.buf = [] :=
      (h.1.unfinished pack (hq ▸ List.mem_cons_self)).resolve_left hge
    have hfin : finished [HistEvent.finish pack.start] = [pack.start] := rfl
    simpa [IdlesMatch, record, withQueue, hfin, hnil] using h.2

/-- The part of a step before the loop over the write queue keeps the invariant. -/
theorem IdlesMatch.base {st mid : UtpHandle} {a : UtpAction} (h : IdlesMatch st)
    (hmid : BaseStep st a mid) : IdlesMatch mid := by
  rcases hmid.quiet with hq | ⟨peerAddr, buf, -, -, rfl⟩
  · obtain ⟨es, hes, hneutral⟩ := hq.hist
    have hfin := (neutral_history hneutral).2.1
    rw [IdlesMatch, hq.outbox, hes, finished_append, hfin, List.append_nil]
    exact h
  · have hfin : ∀ p, finished [HistEvent.enqueue p] = [] := fun _ => rfl
    simpa [IdlesMatch, UtpHandle.enqueue, record, withQueue, hfin] using h

/-- A pack was written to the end when it has bytes and libutp took all of them. -/
def fullyWritten (h : List HistEvent) (p : PackInfo) : Bool :=
  p.buf ≠ [] ∧ takenOf p.ticket h = p.buf

/-- The fully written packs are the finished ones with at least one byte. -/
theorem Accounted.fullyWritten_eq {st : UtpHandle} (h : Accounted st) :
    (enqueued st.hist).filter (fullyWritten st.hist)
      = (finished st.hist).filter (fun p => p.buf ≠ []) := by
  -- Of a queued pack libutp has taken less than the whole.
  have hqueue : (st.writeQueue.map PackInfo.start).filter (fullyWritten st.hist) = [] := by
    refine List.filter_eq_nil_iff.mpr fun p hp => ?_
    obtain ⟨p', hp', rfl⟩ := List.mem_map.mp hp
    rw [fullyWritten, decide_eq_true_eq]
    rintro ⟨hne, heq⟩
    rw [PackInfo.start_buf] at hne heq
    rw [PackInfo.start_ticket] at heq
    have hlt := (h.unfinished p' hp').resolve_right hne
    rw [h.inv.ofQueue p' hp'] at heq
    have hlen := congrArg List.length heq
    rw [List.length_take] at hlen
    omega
  rw [h.inv.fifo, List.filter_append, hqueue, List.append_nil]
  refine left_filter st.hist (fun p hp => ?_) (fun p hp => ?_)
  · simp [fullyWritten, h.inv.ofFinished p hp]
  · simp only [fullyWritten, h.inv.takenOf_of_discarded hp, decide_eq_false_iff_not, not_and]
    exact fun hne heq => hne heq.symm

/-! ### The main result -/

/-- The invariant of every run: the accounting, the idle signals, the sockets. -/
structure Exact (st : UtpHandle) : Prop where
  written : Accounted st ∧ IdlesMatch st
  installed : Installed st

/-- The step lemma. -/
theorem Exact.step {st st' : UtpHandle} {a : UtpAction} (h : Exact st)
    (hstep : st.step a = some st') : Exact st' :=
  ⟨step_rule idlesMatch_closed hstep fun _ hmid => ⟨h.written.1.base hmid, h.written.2.base hmid⟩,
    step_rule Installed.closed hstep fun _ hmid => h.installed.base hmid⟩

/-- The run lemma. -/
theorem exact_of_run {as : List UtpAction} {st : UtpHandle}
    (h : run UtpHandle.step init as = some st) : Exact st :=
  run_invariant_always (fun _ _ _ hstep hex => Exact.step hex hstep) as init st
    ⟨⟨accounted_init, rfl⟩, Installed.init⟩ h

/-- The bytes that `utp_write` took on the socket of the peer `a`. -/
def takenOnSocketOf (a : QString) (h : List HistEvent) : QByteArray :=
  match socketOf a h with
  | some s => takenOn s h
  | none => []

/-- With one socket for each address, the calls on the socket of `a` are the calls for `a`. -/
theorem Installed.takenOnSocketOf_eq {st : UtpHandle} (h : Installed st)
    {a : QString} (hsole : SoleSocket a st.hist) :
    takenOnSocketOf a st.hist = takenFor a st.hist := by
  unfold takenOnSocketOf
  cases hs : socketOf a st.hist with
  | some s =>
    have hinst := socketOf_some hs
    refine taken_congr fun s' p n hoff => decide_eq_decide.mpr ⟨fun heq => ?_, fun heq => ?_⟩
    · subst heq
      exact h.inj _ _ _ (h.offered s' p n hoff) hinst
    · subst heq
      exact hsole _ _ (h.offered s' p n hoff) hinst
  | none =>
    refine (taken_eq_nil fun s' p n hoff => decide_eq_false fun heq => ?_).symm
    subst heq
    exact socketOf_none hs s' (h.offered s' p n hoff)

/-- The write queue is exact. In every run in which no address gets a second socket, for
every peer, the bytes that `utp_write` took on its socket and the unwritten rests of its
queued packs are, together and in order, the buffers enqueued for it without the discarded
packs. A pack is discarded only while its peer is not listed, and no byte of it is ever
taken. Positions stay within their buffers. The `utpIdle` signals are one for each fully
written pack, in order. -/
theorem writeQueue_exact (as : List UtpAction) (st : UtpHandle)
    (hrun : run step init as = some st) (hsole : ∀ a, SoleSocket a st.hist) :
    (∀ a, takenOnSocketOf a st.hist ++
        (st.writeQueue.filter (fun p => p.peerAddr = a)).flatMap PackInfo.rest
      = ((enqueued st.hist).filter (fun p => p.peerAddr = a ∧ p ∉ discarded st.hist)).flatMap
          PackInfo.buf) ∧
      (∀ p ok, HistEvent.discard p ok ∈ st.hist →
        p.peerAddr ∉ ok ∧ takenOf p.ticket st.hist = []) ∧
      (∀ p ∈ st.writeQueue, p.pos ≤ p.buf.length) ∧
      idles st.outbox
        = ((enqueued st.hist).filter (fullyWritten st.hist)).map PackInfo.peerAddr := by
  obtain ⟨⟨hacc, hidle⟩, hinst⟩ := exact_of_run hrun
  refine ⟨fun a => ?_, hacc.inv.ofDiscarded, hacc.inv.pos, ?_⟩
  · rw [hinst.takenOnSocketOf_eq (hsole a)]
    exact hacc.inv.takenFor_append_rest a
  · rw [hacc.fullyWritten_eq]
    exact hidle

/-- An accepted peer, and a pack of three bytes of which libutp takes two. -/
theorem writeQueue_exact_partialWrite :
    ∃ st, run step init
        [.event (.accept ['a', ':'] 7) [],
          .save2WriteQueue ['a', ':'] [1, 2, 3] [⟨2, true⟩]] = some st ∧
      (∀ a, SoleSocket a st.hist) ∧ takenOnSocketOf ['a', ':'] st.hist = [1, 2] ∧
      takenOnSocketOf ['a', ':'] st.hist ++
        (st.writeQueue.filter (fun p => p.peerAddr = ['a', ':'])).flatMap PackInfo.rest
          = [1, 2, 3] := by
  have hsole : ∀ a, SoleSocket a [.install ['a', ':'] 0, .established 0,
      .enqueue ⟨['a', ':'], [1, 2, 3], 0, 2⟩, .offer 0 ⟨['a', ':'], [1, 2, 3], 0, 2⟩ 2,
      .offer 0 ⟨['a', ':'], [1, 2, 3], 2, 2⟩ 0] := by
    intro a s s' h h'
    simp only [List.mem_cons, HistEvent.install.injEq, reduceCtorEq, List.not_mem_nil,
      or_false] at h h'
    rw [h.2, h'.2]
  refine ⟨_, rfl, hsole, rfl, ?_⟩
  exact (writeQueue_exact
    [.event (.accept ['a', ':'] 7) [],
      .save2WriteQueue ['a', ':'] [1, 2, 3] [⟨2, true⟩]] _ rfl hsole).1 ['a', ':']

end UtpHandle

end EChannel.LibTrans
