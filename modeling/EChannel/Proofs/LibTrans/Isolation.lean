import EChannel.Proofs.LibTrans.Sockets
import EChannel.Proofs.LibTrans.WriteQueue
import EChannel.Support.Trace

/-!
# `EChannel.Proofs.LibTrans.Isolation`: what a reconnected peer inherits

A pack names its peer by address, and the write queue outlives the sockets. When the socket
of an address is destroyed, its packs stay in `m_writeQueue`, with the position that the old
connection reached, and the next socket of the address gets them.

`Isolated` is what a new connection should see: nothing enqueued before its socket was
installed is passed to it, and its stream starts at the beginning of a pack that was enqueued
after the connection was reported. `isolated_of_run` is the condition that gives it: whenever
an address changes its socket or its connection is reported, the queue holds no pack for it.
-/

set_option autoImplicit false

namespace EChannel.LibTrans

open LibUtp

/-! ### The property -/

/-- The address `a` has the socket `s₁`, then `s₂`, and `s₁` is destroyed before `s₂` is
connected or accepted. -/
structure Reconnected (h : List HistEvent) (a : QString) (s₁ s₂ : SockId) : Prop where
  installed : Precedes h (.install a s₁) (.install a s₂)
  destroyed : Precedes h (.destroyed s₁) (.established s₂)

/-- The pack whose bytes start the stream of the socket `s`. -/
def firstTaken (s : SockId) (h : List HistEvent) : Option PackInfo :=
  h.findSome? fun e =>
    match e with
    | .offer s' p n => if s' = s ∧ 0 < n then some p else none
    | _ => none

/-- After a reconnect, no pack enqueued before the new socket was installed is passed to
`utp_write` on it, and its stream starts at the beginning of a pack that was enqueued after
it was established. -/
def Isolated (h : List HistEvent) : Prop :=
  ∀ a s₁ s₂, Reconnected h a s₁ s₂ →
    (∀ p n, HistEvent.offer s₂ p n ∈ h → Precedes h (.install a s₂) (.enqueue p.start)) ∧
      ∀ p, firstTaken s₂ h = some p →
        p.pos = 0 ∧ Precedes h (.established s₂) (.enqueue p.start)

/-- The first pack that a socket takes in two histories in a row. -/
@[simp] theorem firstTaken_append (s : SockId) (h h' : List HistEvent) :
    firstTaken s (h ++ h') = (firstTaken s h).or (firstTaken s h') :=
  List.findSome?_append

/-- Events other than `offer` start no stream. -/
theorem firstTaken_append_of_no_offer (s : SockId) (h : List HistEvent) {es : List HistEvent}
    (hes : ∀ s p n, HistEvent.offer s p n ∉ es) : firstTaken s (h ++ es) = firstTaken s h := by
  have hnone : firstTaken s es = none := by
    refine List.findSome?_eq_none_iff.mpr fun e he => ?_
    cases e with
    | offer s' p n => exact absurd he (hes s' p n)
    | _ => rfl
  rw [firstTaken_append, hnone, Option.or_none]

/-- A reconnect is seen when its sockets are installed and reported. -/
theorem Reconnected.of_append {h es : List HistEvent} {a : QString} {s₁ s₂ : SockId}
    (hr : Reconnected (h ++ es) a s₁ s₂) (hinst : HistEvent.install a s₂ ∉ es)
    (hest : HistEvent.established s₂ ∉ es) : Reconnected h a s₁ s₂ :=
  ⟨hr.installed.of_append hinst, hr.destroyed.of_append hest⟩

namespace UtpHandle

/-- No pack for the address is queued. -/
def NoPack (st : UtpHandle) (a : QString) : Prop := ∀ p ∈ st.writeQueue, p.peerAddr ≠ a

/-- The step leaves no pack of an earlier connection to a later one. A listed address that
has had a socket gets a new one only while no pack for it is queued, and after an earlier
socket of the address was destroyed, a connection is reported for it only then, too. -/
def NoLeftover (st : UtpHandle) : UtpAction → Prop
  | .connectToPeer peerAddr _ _ =>
    peerAddr ∈ st.okChannels → (∃ s₁, HistEvent.install peerAddr s₁ ∈ st.hist) →
      NoPack st peerAddr
  | .event (.accept peerAddr _) _ =>
    (∃ s₁, HistEvent.install peerAddr s₁ ∈ st.hist ∧ HistEvent.destroyed s₁ ∈ st.hist) →
      NoPack st peerAddr
  | .event (.connect s) _ =>
    (∃ s₁, HistEvent.install (st.utpSocketsAddr.key s []) s₁ ∈ st.hist ∧
      HistEvent.destroyed s₁ ∈ st.hist) → NoPack st (st.utpSocketsAddr.key s [])
  | _ => True

/-! ### The invariant -/

/-- What the queue and the recorded calls satisfy in a run without leftovers:

- `before`: before the connection is reported, the queued packs of a listed address are
  younger than its present socket, if it had another one earlier;
- `after`: after a reconnect they are younger than the report;
- `started`: a started pack that is younger than the socket was started on it;
- `offered`, `first`: what this means for the recorded calls. -/
structure IsoInv (st : UtpHandle) : Prop where
  before : ∀ a s s₁, st.utpSocketsAddr.lookup a = some s → ∀ p ∈ st.writeQueue,
    p.peerAddr = a → HistEvent.established s ∉ st.hist → a ∈ st.okChannels →
    Precedes st.hist (.install a s₁) (.install a s) →
    RecordedBefore st.hist (.install a s) p.ticket
  after : ∀ a s s₁, st.utpSocketsAddr.lookup a = some s → ∀ p ∈ st.writeQueue,
    p.peerAddr = a → Reconnected st.hist a s₁ s →
    RecordedBefore st.hist (.install a s) p.ticket ∧
      RecordedBefore st.hist (.established s) p.ticket
  started : ∀ a s, st.utpSocketsAddr.lookup a = some s → ∀ p ∈ st.writeQueue,
    p.peerAddr = a → RecordedBefore st.hist (.install a s) p.ticket → 0 < p.pos →
    firstTaken s st.hist ≠ none
  offered : ∀ s p n s₁, HistEvent.offer s p n ∈ st.hist →
    Precedes st.hist (.install p.peerAddr s₁) (.install p.peerAddr s) →
    (HistEvent.established s ∈ st.hist →
      Precedes st.hist (.destroyed s₁) (.established s)) →
    RecordedBefore st.hist (.install p.peerAddr s) p.ticket
  first : ∀ s p, firstTaken s st.hist = some p →
    HistEvent.established s ∈ st.hist ∧ ∀ s₁, Reconnected st.hist p.peerAddr s₁ s →
      p.pos = 0 ∧ RecordedBefore st.hist (.established s) p.ticket

variable {st st' : UtpHandle} {es : List HistEvent}

/-! ### The clauses of the invariant in a longer history

The events `es` are appended. A clause about the socket `s` still holds when they neither
install `s` nor report it. -/

section Append

variable {a : QString} {s s₁ : SockId} {p : PackInfo} {n : Nat}

/-- The clause `before` in a longer history. -/
theorem IsoInv.before_append (h : IsoInv st) (hl : st.utpSocketsAddr.lookup a = some s)
    (hp : p ∈ st.writeQueue) (ha : p.peerAddr = a) (hok : a ∈ st.okChannels)
    (hne : HistEvent.established s ∉ st.hist ++ es)
    (hpre : Precedes (st.hist ++ es) (.install a s₁) (.install a s))
    (hinst : HistEvent.install a s ∉ es) :
    RecordedBefore (st.hist ++ es) (.install a s) p.ticket := by
  have hest : HistEvent.established s ∉ st.hist := fun he => hne (List.mem_append_left _ he)
  exact (h.before a s s₁ hl p hp ha hest hok (hpre.of_append hinst)).append

/-- The clause `after` in a longer history. -/
theorem IsoInv.after_append (h : IsoInv st) (hl : st.utpSocketsAddr.lookup a = some s)
    (hp : p ∈ st.writeQueue) (ha : p.peerAddr = a)
    (hr : Reconnected (st.hist ++ es) a s₁ s) (hinst : HistEvent.install a s ∉ es)
    (hest : HistEvent.established s ∉ es) :
    RecordedBefore (st.hist ++ es) (.install a s) p.ticket ∧
      RecordedBefore (st.hist ++ es) (.established s) p.ticket := by
  obtain ⟨hi, he⟩ := h.after a s s₁ hl p hp ha (hr.of_append hinst hest)
  exact ⟨hi.append, he.append⟩

/-- A pack of the queue is no younger than the record, so the new events do not count. -/
theorem IsoInv.started_append (h : IsoInv st) (hl : st.utpSocketsAddr.lookup a = some s)
    (hp : p ∈ st.writeQueue) (ha : p.peerAddr = a) (hticket : p.ticket ≤ st.hist.length)
    (hrb : RecordedBefore (st.hist ++ es) (.install a s) p.ticket) (hpos : 0 < p.pos) :
    firstTaken s (st.hist ++ es) ≠ none := by
  intro hnone
  rw [firstTaken_append, Option.or_eq_none_iff] at hnone
  exact h.started a s hl p hp ha (hrb.of_append hticket) hpos hnone.1

/-- The clause `offered` in a longer history. -/
theorem IsoInv.offered_append (h : IsoInv st) (ho : HistEvent.offer s p n ∈ st.hist)
    (hpre : Precedes (st.hist ++ es) (.install p.peerAddr s₁) (.install p.peerAddr s))
    (hdes : HistEvent.established s ∈ st.hist ++ es →
      Precedes (st.hist ++ es) (.destroyed s₁) (.established s))
    (hinst : HistEvent.install p.peerAddr s ∉ es)
    (hest : HistEvent.established s ∈ st.hist → HistEvent.established s ∉ es) :
    RecordedBefore (st.hist ++ es) (.install p.peerAddr s) p.ticket := by
  refine (h.offered s p n s₁ ho (hpre.of_append hinst) fun he => ?_).append
  exact (hdes (List.mem_append_left _ he)).of_append (hest he)

/-- The clause `first` in a longer history. -/
theorem IsoInv.first_append (h : IsoInv st) (hf : firstTaken s st.hist = some p)
    (hnew : HistEvent.established s ∈ st.hist →
      HistEvent.install p.peerAddr s ∉ es ∧ HistEvent.established s ∉ es) :
    HistEvent.established s ∈ st.hist ++ es ∧
      ∀ s₁, Reconnected (st.hist ++ es) p.peerAddr s₁ s →
        p.pos = 0 ∧ RecordedBefore (st.hist ++ es) (.established s) p.ticket := by
  obtain ⟨he, hgood⟩ := h.first s p hf
  refine ⟨List.mem_append_left _ he, fun s₁ hr => ?_⟩
  obtain ⟨hpos, hbefore⟩ := hgood s₁ (hr.of_append (hnew he).1 (hnew he).2)
  exact ⟨hpos, hbefore.append⟩

end Append

/-! ### The steps keep the invariant -/

/-- A queued pack is older than the next event. -/
theorem Accounted.ticket_le (h : Accounted st) (p : PackInfo) (hp : p ∈ st.writeQueue) :
    p.ticket ≤ st.hist.length := by
  have hlt := h.inv.ticket_lt _ (h.inv.mem_enqueued_of_queue hp)
  rw [PackInfo.start_ticket] at hlt
  exact Nat.le_of_lt hlt

/-- A step that installs and reports no socket, offers no pack and enqueues none. -/
theorem IsoInv.plain (h : IsoInv st) (hticket : ∀ p ∈ st.writeQueue, p.ticket ≤ st.hist.length)
    (hhist : st'.hist = st.hist ++ es) (hes : ∀ e ∈ es, e.isAside = true)
    (hqueue : ∀ p ∈ st'.writeQueue, p ∈ st.writeQueue)
    (hok : st'.okChannels = st.okChannels)
    (hlookup : ∀ a s, st'.utpSocketsAddr.lookup a = some s →
      st.utpSocketsAddr.lookup a = some s) : IsoInv st' := by
  have hoffer : ∀ s p n, HistEvent.offer s p n ∉ es := fun s p n he => by cases hes _ he
  have hest : ∀ s, HistEvent.established s ∉ es := fun s he => by cases hes _ he
  have hinst : ∀ a s, HistEvent.install a s ∉ es := fun a s he => by cases hes _ he
  constructor <;> rw [hhist]
  case before =>
    intro a s s₁ hl p hp ha hne hmem hpre
    exact h.before_append (hlookup a s hl) (hqueue p hp) ha (hok ▸ hmem) hne hpre (hinst a s)
  case after =>
    intro a s s₁ hl p hp ha hr
    exact h.after_append (hlookup a s hl) (hqueue p hp) ha hr (hinst a s) (hest s)
  case started =>
    intro a s hl p hp ha hrb hpos
    exact h.started_append (hlookup a s hl) (hqueue p hp) ha (hticket p (hqueue p hp)) hrb hpos
  case offered =>
    intro s p n s₁ ho hpre hdes
    have hold := (List.mem_append.mp ho).resolve_right (hoffer s p n)
    exact h.offered_append hold hpre hdes (hinst _ s) fun _ => hest s
  case first =>
    intro s p hf
    rw [firstTaken_append_of_no_offer s st.hist hoffer] at hf
    exact h.first_append hf fun _ => ⟨hinst _ s, hest s⟩

/-- `save2WriteQueue` enqueues a pack that is younger than everything recorded. -/
theorem IsoInv.enqueue (h : IsoInv st) (hacc : Accounted st) (hinst : Installed st)
    (peerAddr : QString) (buf : QByteArray) : IsoInv (st.enqueue peerAddr buf) := by
  -- The invariant of the old queue, in the longer history.
  have hold : IsoInv (st.record (.enqueue ⟨peerAddr, buf, 0, st.hist.length⟩)) :=
    h.plain hacc.ticket_le rfl (by simp [HistEvent.isAside]) (fun _ hp => hp) rfl
      (fun _ _ hl => hl)
  have hnew : ∀ p ∈ (st.enqueue peerAddr buf).writeQueue,
      p ∈ st.writeQueue ∨ p = ⟨peerAddr, buf, 0, st.hist.length⟩ := by
    intro p hp
    simpa [UtpHandle.enqueue, UtpHandle.record, withQueue] using hp
  refine
    { before := fun a s s₁ hl p hp ha hne hmem hprec => ?_
      after := fun a s s₁ hl p hp ha hr => ?_
      started := fun a s hl p hp ha hrb hpos => ?_
      offered := hold.offered
      first := hold.first }
  · rcases hnew p hp with hmem' | rfl
    · exact hold.before a s s₁ hl p hmem' ha hne hmem hprec
    · exact (recordedBefore_length (hinst.current a s hl)).append
  · rcases hnew p hp with hmem' | rfl
    · exact hold.after a s s₁ hl p hmem' ha hr
    · refine ⟨(recordedBefore_length (hinst.current a s hl)).append, ?_⟩
      have hest : HistEvent.established s ∈ st.hist := by
        have := hr.destroyed.mem_right
        simpa [UtpHandle.enqueue, UtpHandle.record, withQueue] using this
      exact (recordedBefore_length hest).append
  · rcases hnew p hp with hmem' | rfl
    · exact hold.started a s hl p hmem' ha hrb hpos
    · exact absurd hpos (Nat.lt_irrefl 0)

/-- A call starts the stream of its socket when it takes something and no call did before. -/
theorem firstTaken_offer (s s' : SockId) (pack : PackInfo) (n : Nat) (h : List HistEvent) :
    firstTaken s' (h ++ [.offer s pack n])
      = (firstTaken s' h).or (if s = s' ∧ 0 < n then some pack else none) := by
  rw [firstTaken_append]
  congr 1
  by_cases hc : s = s' ∧ 0 < n <;> simp [firstTaken, hc]

/-- A `utp_write` on the socket that the map holds for a queued pack of a listed peer. The
pack moves on by the `n` bytes that were taken, or leaves the queue. -/
theorem IsoInv.offer (h : IsoInv st) (hacc : Accounted st) {pack : PackInfo} {s : SockId}
    {n : Nat} (hpack : pack ∈ st.writeQueue) (hlisted : pack.peerAddr ∈ st.okChannels)
    (hs : st.utpSocketsAddr.lookup pack.peerAddr = some s)
    (hconn : 0 < n → HistEvent.established s ∈ st.hist)
    (hhist : st'.hist = st.hist ++ [.offer s pack n])
    (haddr : st'.utpSocketsAddr = st.utpSocketsAddr) (hok : st'.okChannels = st.okChannels)
    (hqueue : ∀ p ∈ st'.writeQueue, p ∈ st.writeQueue ∨ p = { pack with pos := pack.pos + n }) :
    IsoInv st' := by
  -- Every queued pack stands for an old one with its address and ticket.
  have hold : ∀ p ∈ st'.writeQueue, ∃ p₀ ∈ st.writeQueue, p.peerAddr = p₀.peerAddr ∧
      p.ticket = p₀.ticket ∧ (p.pos = p₀.pos ∨ p₀ = pack ∧ p.pos = pack.pos + n) := by
    intro p hp
    rcases hqueue p hp with hmem | rfl
    · exact ⟨p, hmem, rfl, rfl, Or.inl rfl⟩
    · exact ⟨pack, hpack, rfl, rfl, Or.inr ⟨rfl, rfl⟩⟩
  constructor <;> rw [hhist]
  case before =>
    intro a s' s₁ hl p hp ha hne hmem hpre
    obtain ⟨p₀, hp₀, hpa, hpt, -⟩ := hold p hp
    rw [hpt]
    exact h.before_append (haddr ▸ hl) hp₀ (hpa ▸ ha) (hok ▸ hmem) hne hpre (by simp)
  case after =>
    intro a s' s₁ hl p hp ha hr
    obtain ⟨p₀, hp₀, hpa, hpt, -⟩ := hold p hp
    rw [hpt]
    exact h.after_append (haddr ▸ hl) hp₀ (hpa ▸ ha) hr (by simp) (by simp)
  case started =>
    intro a s' hl p hp ha hrb hpos
    obtain ⟨p₀, hp₀, hpa, hpt, hppos⟩ := hold p hp
    rw [haddr] at hl
    rw [hpt] at hrb
    by_cases hstarted : 0 < p₀.pos
    · exact h.started_append hl hp₀ (hpa ▸ ha) (hacc.ticket_le p₀ hp₀) hrb hstarted
    · -- The pack was started just now, and on this socket.
      rcases hppos with heq | ⟨rfl, heq⟩
      · omega
      · have hn : 0 < n := by omega
        have hss' : s = s' := by
          rw [← hpa, ha, hl] at hs
          exact (Option.some.inj hs).symm
        rw [firstTaken_offer, if_pos ⟨hss', hn⟩]
        cases firstTaken s' st.hist <;> simp
  case offered =>
    intro s' p m s₁ ho hpre hdes
    rcases List.mem_append.mp ho with hold | hnew
    · exact h.offered_append hold hpre hdes (by simp) fun _ => by simp
    · cases List.mem_singleton.mp hnew
      -- A call before the report of the connection takes nothing, but it passes the bytes.
      by_cases he : HistEvent.established s ∈ st.hist
      · have hr : Reconnected (st.hist ++ [.offer s pack n]) pack.peerAddr s₁ s :=
          ⟨hpre, hdes (List.mem_append_left _ he)⟩
        exact (h.after_append hs hpack rfl hr (by simp) (by simp)).1
      · exact h.before_append hs hpack rfl hlisted (by simpa using he) hpre (by simp)
  case first =>
    intro s' p hf
    rw [firstTaken_offer] at hf
    cases hprev : firstTaken s' st.hist with
    | some p₀ =>
      rw [hprev, Option.some_or] at hf
      cases hf
      exact h.first_append hprev fun _ => ⟨by simp, by simp⟩
    | none =>
      rw [hprev, Option.none_or] at hf
      split at hf
      · rename_i hc
        obtain ⟨rfl, hn⟩ := hc
        cases hf
        refine ⟨List.mem_append_left _ (hconn hn), fun s₁ hr => ?_⟩
        obtain ⟨hinst, hest⟩ :=
          h.after _ s s₁ hs pack hpack rfl (hr.of_append (by simp) (by simp))
        refine ⟨?_, hest.append⟩
        -- A pack that was started on this socket would have started its stream.
        by_contra hpos
        exact h.started _ s hs pack hpack rfl hinst (Nat.pos_of_ne_zero hpos) hprev
      · cases hf

/-- A new socket for `a`, accepted when `es` reports it. -/
theorem IsoInv.install (h : IsoInv st) (hacc : Accounted st) (hinst : Installed st)
    (hrep : Reported st) {a : QString}
    (hhist : st'.hist = st.hist ++ .install a st.nextSock :: es)
    (hes : ∀ e ∈ es, e = .established st.nextSock)
    (haddr : st'.utpSocketsAddr = st.utpSocketsAddr.insert a st.nextSock)
    (hqueue : st'.writeQueue = st.writeQueue)
    (hok : ∀ b, b ≠ a → b ∈ st'.okChannels → b ∈ st.okChannels)
    (hbefore : es = [] → a ∈ st'.okChannels →
      (∃ s₁, HistEvent.install a s₁ ∈ st.hist) → NoPack st a)
    (hafter : es ≠ [] →
      (∃ s₁, HistEvent.install a s₁ ∈ st.hist ∧ HistEvent.destroyed s₁ ∈ st.hist) →
      NoPack st a) : IsoInv st' := by
  have hnil : HistEvent.established st.nextSock ∉ es → es = [] := fun hne =>
    List.eq_nil_iff_forall_not_mem.mpr fun e he => hne (hes e he ▸ he)
  -- The new events are about the new socket only.
  have hnewInst : ∀ b s, s ≠ st.nextSock →
      HistEvent.install b s ∉ HistEvent.install a st.nextSock :: es := by
    intro b s hne hmem
    rcases List.mem_cons.mp hmem with heq | hmem
    · cases heq
      exact hne rfl
    · cases hes _ hmem
  have hnewEst : ∀ s, s ≠ st.nextSock →
      HistEvent.established s ∉ HistEvent.install a st.nextSock :: es := by
    intro s hne hmem
    rcases List.mem_cons.mp hmem with heq | hmem
    · cases heq
    · cases hes _ hmem
      exact hne rfl
  have hoffer : ∀ s p n, HistEvent.offer s p n ∉ HistEvent.install a st.nextSock :: es := by
    intro s p n hmem
    rcases List.mem_cons.mp hmem with heq | hmem
    · cases heq
    · cases hes _ hmem
  have hold : ∀ b s, st'.utpSocketsAddr.lookup b = some s →
      b = a ∧ s = st.nextSock ∨ b ≠ a ∧ st.utpSocketsAddr.lookup b = some s ∧
        s ≠ st.nextSock := by
    intro b s hl
    rw [haddr] at hl
    rcases QHash.lookup_of_insert hl with hnew | ⟨hb, hold⟩
    · exact Or.inl hnew
    · exact Or.inr ⟨hb, hold, Nat.ne_of_lt (hinst.fresh b s (hinst.current b s hold))⟩
  have hprior : ∀ {s₁}, Precedes (st.hist ++ .install a st.nextSock :: es) (.install a s₁)
      (.install a st.nextSock) → HistEvent.install a s₁ ∈ st.hist := fun hp =>
    hp.left_mem (fun he => by cases hes _ he) fun _ he => by cases hes _ he
  constructor <;> rw [hhist] <;> try rw [hqueue]
  case before =>
    intro b s s₁ hl p hp hpb hne hmem hpre
    rcases hold b s hl with ⟨rfl, rfl⟩ | ⟨hb, hl', hs⟩
    · -- A connecting socket that is not reported yet: the queue holds no pack for it.
      refine absurd hpb (hbefore (hnil fun he => hne ?_) hmem ⟨s₁, hprior hpre⟩ p hp)
      exact List.mem_append_right _ (List.mem_cons_of_mem _ he)
    · exact h.before_append hl' hp hpb (hok b hb hmem) hne hpre (hnewInst b s hs)
  case after =>
    intro b s s₁ hl p hp hpb hr
    rcases hold b s hl with ⟨rfl, rfl⟩ | ⟨-, hl', hs⟩
    · -- The address is accepted again, which needs an empty queue for it.
      have hdes : HistEvent.destroyed s₁ ∈ st.hist :=
        hr.destroyed.left_mem (fun he => by cases hes _ he) fun he => by cases he
      have hne : es ≠ [] := by
        rintro rfl
        have hlt := hrep.fresh st.nextSock (by simpa using hr.destroyed.mem_right)
        exact Nat.lt_irrefl _ hlt
      exact absurd hpb (hafter hne ⟨s₁, hprior hr.installed, hdes⟩ p hp)
    · exact h.after_append hl' hp hpb hr (hnewInst b s hs) (hnewEst s hs)
  case started =>
    intro b s hl p hp hpb hrb hpos
    rcases hold b s hl with ⟨rfl, rfl⟩ | ⟨-, hl', -⟩
    · -- No queued pack is younger than a socket that is just made.
      have hmem := (hrb.of_append (hacc.ticket_le p hp)).mem
      exact absurd (hinst.fresh _ _ hmem) (Nat.lt_irrefl _)
    · exact h.started_append hl' hp hpb (hacc.ticket_le p hp) hrb hpos
  case offered =>
    intro s p n s₁ ho hpre hdes
    have ho' := (List.mem_append.mp ho).resolve_right (hoffer s p n)
    have hs : s ≠ st.nextSock := Nat.ne_of_lt (hinst.fresh _ s (hinst.offered s p n ho'))
    exact h.offered_append ho' hpre hdes (hnewInst _ s hs) fun _ => hnewEst s hs
  case first =>
    intro s p hf
    rw [firstTaken_append_of_no_offer s st.hist hoffer] at hf
    refine h.first_append hf fun he => ?_
    have hs : s ≠ st.nextSock := Nat.ne_of_lt (hrep.fresh s he)
    exact ⟨hnewInst _ s hs, hnewEst s hs⟩

/-- `UTP_STATE_CONNECT` for a socket that was connecting. -/
theorem IsoInv.connect (h : IsoInv st) (hacc : Accounted st) (hinst : Installed st)
    (hrep : Reported st) {s : SockId} {sock : UTPSocket} (hs : st.sockets s = some sock)
    (hstate : sock.state = .synSent)
    (hcond : (∃ s₁, HistEvent.install (st.utpSocketsAddr.key s []) s₁ ∈ st.hist ∧
      HistEvent.destroyed s₁ ∈ st.hist) → NoPack st (st.utpSocketsAddr.key s [])) :
    IsoInv (st.connectBase s sock) := by
  have hhist : (st.connectBase s sock).hist = st.hist ++ [.established s] := rfl
  have hnot : HistEvent.established s ∉ st.hist := hrep.synSent s sock hs hstate
  -- A socket reports once, so the new event is not one of those before.
  have hold : ∀ s', HistEvent.established s' ∈ st.hist →
      HistEvent.established s' ∉ [HistEvent.established s] := by
    intro s' he hmem
    cases List.mem_singleton.mp hmem
    exact hnot he
  -- An address of `s` in the map is the key that is read back from it.
  have hkey : ∀ a, st.utpSocketsAddr.lookup a = some s → st.utpSocketsAddr.key s [] = a :=
    fun a hl => QHash.key_eq_of_unique [] hl fun k hk =>
      hinst.inj k a s (hinst.current k s hk) (hinst.current a s hl)
  constructor <;> rw [hhist]
  case before =>
    intro a s' s₁ hl p hp ha hne hmem hpre
    have hs' : s' ≠ s := by
      rintro rfl
      exact hne (List.mem_append_right _ (List.mem_singleton_self _))
    have hmem' : a ∈ st.okChannels := by
      rcases List.mem_append.mp hmem with hold | hnew
      · exact hold
      · -- The listed key belongs to `s`, or it is empty and then no socket has it.
        exfalso
        have hak := List.mem_singleton.mp hnew
        change st.utpSocketsAddr.lookup a = some s' at hl
        rcases st.utpSocketsAddr.key_spec s [] with hk | ⟨hk, -⟩
        · rw [← hak, hl] at hk
          exact hs' (Option.some.inj hk)
        · rw [hak, hk] at hl
          cases hrep.colon [] s' (hinst.current [] s' hl)
    exact h.before_append hl hp ha hmem' hne hpre (by simp)
  case after =>
    intro a s' s₁ hl p hp ha hr
    by_cases hs' : s' = s
    · -- The report completes a reconnect, so by the condition the queue holds nothing for `a`.
      subst hs'
      have hdes : HistEvent.destroyed s₁ ∈ st.hist :=
        hr.destroyed.left_mem (by simp) fun he => by cases he
      have hpri : HistEvent.install a s₁ ∈ st.hist :=
        (hr.installed.of_append (by simp)).mem_left
      rw [hkey a hl] at hcond
      exact absurd ha (hcond ⟨s₁, hpri, hdes⟩ p hp)
    · exact h.after_append hl hp ha hr (by simp) (by simpa using hs')
  case started =>
    intro a s' hl p hp ha hrb hpos
    exact h.started_append hl hp ha (hacc.ticket_le p hp) hrb hpos
  case offered =>
    intro s' p n s₁ ho hpre hdes
    have ho' : HistEvent.offer s' p n ∈ st.hist := by simpa using ho
    exact h.offered_append ho' hpre hdes (by simp) (hold s')
  case first =>
    intro s' p hf
    rw [firstTaken_append_of_no_offer s' st.hist (by simp)] at hf
    exact h.first_append hf fun he => ⟨by simp, hold s' he⟩

/-! ### The main result -/

/-- The invariant of the runs without leftovers. -/
structure Tracked (st : UtpHandle) : Prop where
  accounted : Accounted st
  installed : Installed st
  reported : Reported st
  iso : IsoInv st

/-- The invariants hold along the loop over the write queue. -/
theorem tracked_closed : WriteClosed Tracked where
  discard st pack rest hq hok h :=
    { accounted := accounted_closed.discard st pack rest hq hok h.accounted
      installed := Installed.closed.discard st pack rest hq hok h.installed
      reported := h.reported.wrote
        ((Wrote.closed st).discard st pack rest hq hok (Wrote.refl st))
      iso := h.iso.plain h.accounted.ticket_le rfl (by simp [HistEvent.isAside])
        (fun p hp => hq ▸ List.mem_cons_of_mem _ hp) rfl (fun _ _ hl => hl) }
  offer st pack rest s r hq hok hs hlt h :=
    { accounted := accounted_closed.offer st pack rest s r hq hok hs hlt h.accounted
      installed := Installed.closed.offer st pack rest s r hq hok hs hlt h.installed
      reported := h.reported.wrote
        ((Wrote.closed st).offer st pack rest s r hq hok hs hlt (Wrote.refl st))
      iso := h.iso.offer h.accounted (hq ▸ List.mem_cons_self) hok hs h.reported.of_taken
        (utpWrite_hist st s pack r) (utpWrite_utpSocketsAddr st s pack r)
        (utpWrite_okChannels st s pack r)
        fun p hp => (List.mem_cons.mp hp).symm.imp (fun hr => hq ▸ List.mem_cons_of_mem _ hr) id }
  complete st pack rest s r hq hok hs hlt hfull h := by
    -- The offer first, with the pack off the queue; `complete` is an event beside it.
    have hoff : IsoInv ((st.utpWrite s pack r).1.withQueue rest) :=
      h.iso.offer h.accounted (hq ▸ List.mem_cons_self) hok hs h.reported.of_taken
        (utpWrite_hist st s pack r) (utpWrite_utpSocketsAddr st s pack r)
        (utpWrite_okChannels st s pack r)
        fun p hp => Or.inl (hq ▸ List.mem_cons_of_mem _ hp)
    have hticket : ∀ p ∈ rest, p.ticket ≤ (st.utpWrite s pack r).1.hist.length := by
      intro p hp
      have := h.accounted.ticket_le p (hq ▸ List.mem_cons_of_mem _ hp)
      rw [utpWrite_hist, List.length_append]
      omega
    exact
      { accounted := accounted_closed.complete st pack rest s r hq hok hs hlt hfull h.accounted
        installed := Installed.closed.complete st pack rest s r hq hok hs hlt hfull h.installed
        reported := h.reported.wrote
          ((Wrote.closed st).complete st pack rest s r hq hok hs hlt hfull (Wrote.refl st))
        iso := hoff.plain hticket rfl (by simp [HistEvent.isAside]) (fun _ hp => hp) rfl
          (fun _ _ hl => hl) }
  skip st pack rest s hq hok hs hge h :=
    { accounted := accounted_closed.skip st pack rest s hq hok hs hge h.accounted
      installed := Installed.closed.skip st pack rest s hq hok hs hge h.installed
      reported := h.reported.wrote
        ((Wrote.closed st).skip st pack rest s hq hok hs hge (Wrote.refl st))
      iso := h.iso.plain h.accounted.ticket_le rfl (by simp [HistEvent.isAside])
        (fun p hp => hq ▸ List.mem_cons_of_mem _ hp) rfl (fun _ _ hl => hl) }

/-- The part of a step before the loop over the write queue keeps the invariant, when it leaves
no pack behind. -/
theorem Tracked.iso_base {a : UtpAction} (h : Tracked st) (hmid : BaseStep st a st')
    (hcond : NoLeftover st a) : IsoInv st' := by
  have hticket := h.accounted.ticket_le
  -- Most steps append events that say nothing about sockets and packs.
  have hplain : ∀ {st' : UtpHandle} {es : List HistEvent}, st'.hist = st.hist ++ es →
      (∀ e ∈ es, e.isAside = true) → st'.writeQueue = st.writeQueue →
      st'.okChannels = st.okChannels → st'.utpSocketsAddr = st.utpSocketsAddr →
      IsoInv st' := fun hhist hes hq hok haddr =>
    h.iso.plain hticket hhist hes (fun _ hp => hq ▸ hp) hok fun _ _ hl => haddr ▸ hl
  cases hmid with
  | connectToPeer peerAddr connectID seed hcolon hfree =>
    exact h.iso.install h.accounted h.installed h.reported rfl (by simp) rfl rfl
      (fun _ _ hb => hb) (fun _ => hcond) (fun hne => absurd rfl hne)
  | setAcceptConnID peerAddr connectID =>
    exact setAcceptConnID_rule h.iso fun _ _ _ _ =>
      hplain (List.append_nil _).symm (by simp) rfl rfl rfl
  | onCloseSocket peerAddr connectID =>
    refine onCloseSocket_rule h.iso fun s => utpClose_rule (fun _ => ?_) fun _ _ => ?_
    · exact hplain rfl (by simp [HistEvent.isAside]) rfl rfl rfl
    · exact hplain rfl (by simp [HistEvent.isAside]) rfl rfl rfl
  | enqueue peerAddr buf o => exact h.iso.enqueue h.accounted h.installed peerAddr buf
  | processLoop o => exact h.iso
  | accept peerAddr connid o hcolon hfree =>
    refine h.iso.install h.accounted h.installed h.reported rfl (by simp) rfl rfl
      (fun b hne hb => ?_) (fun hnil => by cases hnil) (fun _ => hcond)
    rcases List.mem_append.mp hb with hold | hnew
    · exact hold
    · exact absurd (List.mem_singleton.mp hnew) hne
  | connect s sock o hs hstate =>
    exact h.iso.connect h.accounted h.installed h.reported hs hstate hcond
  | writable s sock o hs hstate => exact hplain (List.append_nil _).symm (by simp) rfl rfl rfl
  | read s sock buf o hs hstate => exact hplain rfl (by simp [HistEvent.isAside]) rfl rfl rfl
  | eof s sock o hs hstate => exact hplain rfl (by simp [HistEvent.isAside]) rfl rfl rfl
  | error s sock o hs => exact hplain (List.append_nil _).symm (by simp) rfl rfl rfl
  | expire s sock o hs hstate => exact hplain (List.append_nil _).symm (by simp) rfl rfl rfl
  | destroying s sock o hs hstate =>
    exact h.iso.plain hticket rfl (by simp [HistEvent.isAside]) (fun _ hp => hp) rfl
      fun _ _ hl => QHash.lookup_of_erase hl
  | sendto peerAddr pkt o => exact hplain (List.append_nil _).symm (by simp) rfl rfl rfl

/-- The step lemma. -/
theorem Tracked.step {a : UtpAction} (h : Tracked st) (hstep : st.step a = some st')
    (hcond : NoLeftover st a) : Tracked st' :=
  step_rule tracked_closed hstep fun _ hmid =>
    ⟨h.accounted.base hmid, h.installed.base hmid, h.reported.base hmid,
      h.iso_base hmid hcond⟩

/-- Nothing is queued at first. -/
theorem isoInv_init : IsoInv init where
  before _ _ _ _ _ hp := by cases hp
  after _ _ _ _ _ hp := by cases hp
  started _ _ _ _ hp := by cases hp
  offered _ _ _ _ ho := by cases ho
  first _ _ hf := by cases hf

/-- All invariants hold at first. -/
theorem tracked_init : Tracked init := ⟨accounted_init, Installed.init, reported_init, isoInv_init⟩

/-- The ticket of a pack is the index of the event that enqueued it. -/
def EnqueuedAt (st : UtpHandle) : Prop :=
  ∀ p, HistEvent.enqueue p ∈ st.hist → st.hist[p.ticket]? = some (.enqueue p)

/-- Without an enqueue there is nothing new to account for. -/
theorem EnqueuedAt.append (h : EnqueuedAt st) (hhist : st'.hist = st.hist ++ es)
    (hes : ∀ p, HistEvent.enqueue p ∉ es) : EnqueuedAt st' := by
  intro p hp
  rw [hhist] at hp ⊢
  exact getElem?_append_some (h p ((List.mem_append.mp hp).resolve_right (hes p)))

/-- The step lemma. -/
theorem EnqueuedAt.step {a : UtpAction} (h : EnqueuedAt st) (hstep : st.step a = some st') :
    EnqueuedAt st' := by
  obtain ⟨mid, hmid, rfl⟩ := step_base hstep
  obtain ⟨es, hes, hwrite⟩ := (endStep_wrote mid a).hist
  refine EnqueuedAt.append ?_ hes fun p hp => by cases hwrite _ hp
  rcases hmid.quiet with hq | ⟨peerAddr, buf, -, -, rfl⟩
  · obtain ⟨es', hes', hneutral⟩ := hq.hist
    exact h.append hes' fun p hp => by cases hneutral _ hp
  · intro p hp
    rcases List.mem_append.mp (show _ ∈ st.hist ++ [_] from hp) with hold | hnew
    · exact getElem?_append_some (h p hold)
    · cases List.mem_singleton.mp hnew
      exact List.getElem?_concat_length

/-- Packs do not pass from one connection to the next in a run whose steps leave none over:
in every state reached, everything that was passed to a reconnected socket was enqueued after
it was installed, and its stream starts at the beginning of a pack that was enqueued after it
was established. -/
theorem isolated_of_run (as : List UtpAction) (st : UtpHandle)
    (hrun : run step init as = some st) (hall : AllSteps step NoLeftover init as) :
    Isolated st.hist := by
  have htracked : Tracked st :=
    run_invariant (fun _ _ _ hcond hstep h => Tracked.step h hstep hcond) as init st
      tracked_init hall hrun
  have hat : EnqueuedAt st :=
    run_invariant_always (fun _ _ _ hstep h => EnqueuedAt.step h hstep) as init st
      (fun _ hp => by cases hp) hrun
  -- Every offered pack was enqueued, at the index that its ticket holds.
  have hindex : ∀ s p n, HistEvent.offer s p n ∈ st.hist →
      st.hist[p.ticket]? = some (.enqueue p.start) := by
    intro s p n ho
    obtain ⟨e, he, hval⟩ :=
      List.mem_filterMap.mp (htracked.accounted.inv.offered s p n ho)
    cases e with
    | enqueue p' =>
      cases hval
      exact hat p.start he
    | _ => cases hval
  intro a s₁ s₂ hr
  have haddr : ∀ p n, HistEvent.offer s₂ p n ∈ st.hist → p.peerAddr = a := fun p n ho =>
    htracked.installed.inj _ _ s₂ (htracked.installed.offered s₂ p n ho)
      hr.installed.mem_right
  refine ⟨fun p n ho => ?_, fun p hf => ?_⟩
  · have ha := haddr p n ho
    subst ha
    exact (htracked.iso.offered s₂ p n s₁ ho hr.installed fun _ => hr.destroyed).precedes
      (hindex s₂ p n ho)
  · obtain ⟨n, ho⟩ : ∃ n, HistEvent.offer s₂ p n ∈ st.hist := by
      obtain ⟨e, he, hval⟩ := List.exists_of_findSome?_eq_some hf
      cases e with
      | offer s' p' n =>
        simp only [Option.ite_none_right_eq_some, Option.some.injEq] at hval
        obtain ⟨⟨rfl, -⟩, rfl⟩ := hval
        exact ⟨n, he⟩
      | _ => cases hval
    have ha := haddr p n ho
    subst ha
    obtain ⟨hpos, hbefore⟩ := (htracked.iso.first s₂ p hf).2 s₁ hr
    exact ⟨hpos, hbefore.precedes (hindex s₂ p n ho)⟩

/-- A peer that is reset, destroyed and accepted again, with one pack for each connection. -/
theorem isolated_of_run_twoConnections :
    Isolated [.install ['a', ':'] 0, .established 0, .enqueue ⟨['a', ':'], [1], 0, 2⟩,
      .offer 0 ⟨['a', ':'], [1], 0, 2⟩ 1, .finish ⟨['a', ':'], [1], 0, 2⟩, .close 0,
      .destroyed 0, .install ['a', ':'] 1, .established 1,
      .enqueue ⟨['a', ':'], [2], 0, 9⟩, .offer 1 ⟨['a', ':'], [2], 0, 9⟩ 1,
      .finish ⟨['a', ':'], [2], 0, 9⟩] := by
  refine isolated_of_run
    [.event (.accept ['a', ':'] 1) [], .save2WriteQueue ['a', ':'] [1] [⟨1, false⟩],
      .event (.error 0) [], .onCloseSocket ['a', ':'] 5, .event (.destroying 0) [],
      .event (.accept ['a', ':'] 3) [], .save2WriteQueue ['a', ':'] [2] [⟨1, false⟩]]
    _ rfl ?_
  have hempty : ∀ st : UtpHandle, st.writeQueue = [] → NoPack st ['a', ':'] := by
    intro st hq p hp
    rw [hq] at hp
    cases hp
  exact AllSteps.cons (fun _ => hempty _ rfl) rfl (.cons trivial rfl (.cons trivial rfl
    (.cons trivial rfl (.cons trivial rfl (.cons (fun _ => hempty _ rfl) rfl
      (.cons trivial rfl trivial))))))

/-- The first connection takes two of three bytes and dies. The second one gets the third. -/
theorem not_isolated_leftover :
    ∃ st, run step init
        [.event (.accept ['a', ':'] 1) [], .save2WriteQueue ['a', ':'] [1, 2, 3] [⟨2, false⟩],
          .event (.error 0) [], .onCloseSocket ['a', ':'] 5, .event (.destroying 0) [],
          .event (.accept ['a', ':'] 3) [⟨1, false⟩]] = some st ∧
      ¬ Isolated st.hist := by
  refine ⟨_, rfl, fun hiso => ?_⟩
  obtain ⟨hpos, -⟩ := (hiso ['a', ':'] 0 1 ⟨⟨0, 7, by decide, rfl, rfl⟩,
    ⟨6, 8, by decide, rfl, rfl⟩⟩).2 ⟨['a', ':'], [1, 2, 3], 2, 2⟩ rfl
  cases hpos

end UtpHandle

end EChannel.LibTrans
