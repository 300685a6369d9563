import EChannel.Proofs.LibUtp.SendQueue

/-!
# `EChannel.Proofs.LibUtp.Refinement`: a socket shows a socket of frames

`Rep c s` says that the fields of the socket `c` show the `FrameSocket` `s`, and that no
assertion has failed. A function of the code is a simulation (`Sim`): from `Rep c s` it leads to
a socket that shows a state which `s` reaches by `FrameSocket.Step`s.

`FrameSocket.Ok` collects what is true of a `FrameSocket` by itself, such as that the frame of a
FIN is the last one; every step keeps it (`Ok.steps`).
-/

set_option autoImplicit false

namespace EChannel.LibUtp

open SlidingWindow

/-! ### Sockets of frames -/

namespace FrameSocket

variable {p : Option Segment} {s s' : FrameSocket}

/-- The states before the connection stands, or after it has failed there. -/
def Unsynced (st : ConnState) : Prop :=
  st = .synSent ∨ st = .destroyDelay ∨ st = .reset ∨ st = .destroy

/-- The states of a connection that stands, or stood. -/
def Synced (st : ConnState) : Prop :=
  st = .connected ∨ st = .connectedFull ∨ st = .gotFin ∨ st = .destroyDelay ∨ st = .finSent ∨
    st = .reset ∨ st = .destroy

/-- The bytes of the frames that were taken, and of the one that is being read. -/
def shown (s : FrameSocket) : List UInt8 :=
  (s.rcv.got ++ s.rcv.reading.toList).flatMap Frame.body

/-- A socket that does not know its peer has no frame but its SYN, and nothing of the peer. -/
structure Fresh (s : FrameSocket) : Prop where
  state : Unsynced s.state
  syn : ∀ x ∈ s.snd.frames, x.kind = .syn
  length_le : s.snd.frames.length ≤ 1
  rcv : s.rcv = ⟨0, fun _ => none, [], none⟩
  fin : s.fin = none
  reads : s.reads = []

/-- What holds of every socket of frames. -/
structure Ok (s : FrameSocket) : Prop where
  kinds : ∀ x ∈ s.snd.frames, x.kind = .syn ∨ x.kind = .data ∨ x.kind = .fin
  window : s.snd.base ≤ s.snd.frames.length ∧
    s.snd.frames.length ≤ s.snd.base + outgoingBufferMaxSize
  sent_lt : ∀ k ∈ s.snd.sent, k < s.snd.frames.length
  acked_lt : ∀ k ∈ s.snd.acked, k < s.snd.frames.length
  syn : ∀ (k : Nat) (x : Frame), s.snd.frames[k]? = some x → x.kind = .syn → k ∈ s.snd.sent
  fin : ∀ (k : Nat) (x : Frame), s.snd.frames[k]? = some x → x.kind = .fin →
    k + 1 = s.snd.frames.length ∧ s.state ≠ .connected ∧ s.state ≠ .connectedFull
  below : ∀ k < s.snd.base, k ∈ s.snd.acked
  unsynced : s.synced = false → s.Fresh
  synced : s.synced = true → Synced s.state
  eof : s.eof = true → s.synced = true ∧ s.state ≠ .connected ∧ s.state ≠ .connectedFull
  gotFin : s.state = .gotFin → s.eof = true
  idle : s.eof = true → s.rcv.reading = none
  reads_le : s.reads <+: s.shown
  reads_eq : s.state = .connected ∨ s.state = .connectedFull ∨ s.state = .gotFin →
    s.reads = s.shown
  closable : s.closes = 0 → s.state.closable = true

/-- A state that has left the connection behind. -/
theorem Moves.ended {st st' : ConnState} (h : Moves st st') :
    (st = .connected ∨ st = .connectedFull) ∧ (st' = .connected ∨ st' = .connectedFull) ∨
      Unsynced st' ∧ st' ≠ .synSent := by
  cases h with
  | full => exact Or.inl ⟨Or.inl rfl, Or.inr rfl⟩
  | writable => exact Or.inl ⟨Or.inr rfl, Or.inl rfl⟩
  | _ => exact Or.inr ⟨by simp [Unsynced], by simp⟩

/-- A data frame comes behind frames that were there before. -/
theorem Ok.data_last (h : s.Ok) (hstate : s.state = .connected) (l : List Frame)
    (body : List UInt8) (hl : ∀ (k : Nat) x, l[k]? = some x → s.snd.frames[k]? = some x)
    (hlen : s.snd.frames.length ≤ l.length + 1)
    (hroom : l.length < s.snd.base + outgoingBufferMaxSize) :
    ({ s with snd := { s.snd with frames := l ++ [⟨.data, body⟩] } } : FrameSocket).Ok := by
  have hcases {k : Nat} {x : Frame} (hx : (l ++ [(⟨.data, body⟩ : Frame)])[k]? = some x) :
      s.snd.frames[k]? = some x ∨ x.kind = .data := by
    rw [List.getElem?_append] at hx
    split at hx
    · exact Or.inl (hl k x hx)
    · obtain rfl : x = ⟨.data, body⟩ := by
        have := List.mem_of_getElem? hx
        simpa using this
      exact Or.inr rfl
  have hlen' : s.snd.frames.length ≤ (l ++ [(⟨.data, body⟩ : Frame)]).length := by
    simpa using hlen
  constructor
  case kinds =>
    intro x hx
    obtain ⟨k, hk⟩ := List.getElem?_of_mem hx
    rcases hcases hk with hx | hx
    · exact h.kinds x (List.mem_of_getElem? hx)
    · exact Or.inr (Or.inl hx)
  case window =>
    refine ⟨Nat.le_trans h.window.1 hlen', ?_⟩
    simpa using Nat.succ_le_of_lt hroom
  case sent_lt => exact fun k hk => Nat.lt_of_lt_of_le (h.sent_lt k hk) hlen'
  case acked_lt => exact fun k hk => Nat.lt_of_lt_of_le (h.acked_lt k hk) hlen'
  case syn =>
    intro k x hx hkind
    rcases hcases hx with hx | hx
    · exact h.syn k x hx hkind
    · rw [hx] at hkind
      cases hkind
  case fin =>
    intro k x hx hkind
    rcases hcases hx with hx | hx
    · exact absurd hstate (h.fin k x hx hkind).2.1
    · rw [hx] at hkind
      cases hkind
  case below => exact h.below
  case unsynced =>
    intro hsync
    have := (h.unsynced hsync).state
    simp [Unsynced, hstate] at this
  case synced => exact h.synced
  case eof => exact h.eof
  case gotFin => exact h.gotFin
  case idle => exact h.idle
  case reads_le => exact h.reads_le
  case reads_eq => exact h.reads_eq
  case closable => exact h.closable

/-- The FIN comes behind everything that was queued. -/
theorem Ok.close (h : s.Ok) (hstate : s.state = .connected ∨ s.state = .connectedFull)
    (hroom : s.snd.frames.length < s.snd.base + outgoingBufferMaxSize)
    (hcalled : 0 < s.closes) :
    ({ s with
      state := .finSent
      snd := { s.snd with frames := s.snd.frames ++ [⟨.fin, []⟩] } } : FrameSocket).Ok := by
  have hcases {k : Nat} {x : Frame}
      (hx : (s.snd.frames ++ [(⟨.fin, []⟩ : Frame)])[k]? = some x) :
      s.snd.frames[k]? = some x ∨ x.kind = .fin ∧ k = s.snd.frames.length := by
    rw [List.getElem?_append] at hx
    split at hx
    · exact Or.inl hx
    · have hlt := (List.getElem?_eq_some_iff.mp hx).1
      have hmem := List.mem_of_getElem? hx
      simp only [List.mem_singleton, List.length_singleton] at hmem hlt
      exact Or.inr ⟨by rw [hmem], by omega⟩
  have hlen : s.snd.frames.length ≤ (s.snd.frames ++ [(⟨.fin, []⟩ : Frame)]).length := by simp
  constructor
  case kinds =>
    intro x hx
    obtain ⟨k, hk⟩ := List.getElem?_of_mem hx
    rcases hcases hk with hx | ⟨hx, -⟩
    · exact h.kinds x (List.mem_of_getElem? hx)
    · exact Or.inr (Or.inr hx)
  case window =>
    refine ⟨Nat.le_trans h.window.1 hlen, ?_⟩
    simpa using Nat.succ_le_of_lt hroom
  case sent_lt => exact fun k hk => Nat.lt_of_lt_of_le (h.sent_lt k hk) hlen
  case acked_lt => exact fun k hk => Nat.lt_of_lt_of_le (h.acked_lt k hk) hlen
  case syn =>
    intro k x hx hkind
    rcases hcases hx with hx | ⟨hx, -⟩
    · exact h.syn k x hx hkind
    · rw [hx] at hkind
      cases hkind
  case fin =>
    intro k x hx hkind
    refine ⟨?_, by simp, by simp⟩
    rcases hcases hx with hx | ⟨-, rfl⟩
    · -- A connected socket has no FIN yet.
      obtain ⟨-, h1, h2⟩ := h.fin k x hx hkind
      exact absurd hstate (not_or.mpr ⟨h1, h2⟩)
    · simp
  case below => exact h.below
  case unsynced =>
    intro hsync
    have := (h.unsynced hsync).state
    rcases hstate with hst | hst <;> simp [Unsynced, hst] at this
  case synced => exact fun _ => by simp [Synced]
  case eof => exact fun heof => ⟨(h.eof heof).1, by simp, by simp⟩
  case gotFin => exact fun hst => by cases hst
  case idle => exact h.idle
  case reads_le => exact h.reads_le
  case reads_eq => exact fun hst => by rcases hst with hst | hst | hst <;> cases hst
  case closable => exact fun hno => absurd hno hcalled.ne'

/-- A change of state leaves what is behind the state as it was. -/
theorem Ok.move (h : s.Ok) {st : ConnState} (hmove : Moves s.state st)
    (hcalled : s.closes = 0 → st.closable = true) :
    ({ s with state := st } : FrameSocket).Ok := by
  refine { h with
    fin := ?fin, unsynced := ?unsynced, synced := ?synced, eof := ?eof, gotFin := ?gotFin,
    reads_eq := ?reads_eq, closable := hcalled }
  case fin =>
    intro k x hx hkind
    obtain ⟨hlast, h1, h2⟩ := h.fin k x hx hkind
    refine ⟨hlast, ?_⟩
    rcases hmove.ended with ⟨hst, -⟩ | ⟨hun, -⟩
    · exact absurd hst (not_or.mpr ⟨h1, h2⟩)
    · rcases hun with rfl | rfl | rfl | rfl <;> exact ⟨by simp, by simp⟩
  case unsynced =>
    intro hsync
    have hfresh := h.unsynced hsync
    refine { hfresh with state := ?_ }
    rcases hmove.ended with ⟨hst, -⟩ | ⟨hun, -⟩
    · have := hfresh.state
      rcases hst with hst | hst <;> simp [Unsynced, hst] at this
    · exact hun
  case synced =>
    intro _
    rcases hmove.ended with ⟨-, hst⟩ | ⟨hun, hne⟩
    · rcases hst with rfl | rfl <;> simp [Synced]
    · rcases hun with rfl | rfl | rfl | rfl
      · exact absurd rfl hne
      · simp [Synced]
      · simp [Synced]
      · simp [Synced]
  case eof =>
    intro heof
    obtain ⟨hsync, h1, h2⟩ := h.eof heof
    refine ⟨hsync, ?_⟩
    rcases hmove.ended with ⟨hst, -⟩ | ⟨hun, -⟩
    · exact absurd hst (not_or.mpr ⟨h1, h2⟩)
    · rcases hun with rfl | rfl | rfl | rfl <;> exact ⟨by simp, by simp⟩
  case gotFin =>
    intro hst
    rcases hmove.ended with ⟨-, hst' | hst'⟩ | ⟨hun, -⟩
    · exact absurd (hst'.symm.trans hst) (by simp)
    · exact absurd (hst'.symm.trans hst) (by simp)
    · rcases hun with hst' | hst' | hst' | hst' <;> exact absurd (hst'.symm.trans hst) (by simp)
  case reads_eq =>
    intro hopen
    rcases hmove.ended with ⟨hst, -⟩ | ⟨hun, -⟩
    · exact h.reads_eq (hst.imp id Or.inl)
    · rcases hun with rfl | rfl | rfl | rfl <;> rcases hopen with hopen | hopen | hopen <;>
        cases hopen

/-- A socket that has sent its SYN does not know its peer. -/
theorem Ok.unsynced_of_synSent (h : s.Ok) (hst : s.state = .synSent) : s.synced = false := by
  cases hsync : s.synced with
  | false => rfl
  | true =>
    have := h.synced hsync
    simp [Synced, hst] at this

/-- A socket that knows the numbers of its peer is not in `CS_SYN_SENT`. -/
theorem Ok.state_ne_synSent (h : s.Ok) (hsync : s.synced = true) : s.state ≠ .synSent := by
  intro hst
  rw [h.unsynced_of_synSent hst] at hsync
  cases hsync

/-- A socket that takes frames knows its peer. -/
theorem Ok.synced_of_receiving (h : s.Ok) (hopen : s.Receiving) : s.synced = true := by
  by_contra hno
  have := (h.unsynced (by simpa using hno)).state
  rcases hopen with hst | hst | hst <;> simp [Unsynced, hst] at this

/-- A socket that takes frames behind the last one has sent its FIN. -/
theorem Ok.finSent_of_eof (h : s.Ok) (hopen : s.Receiving) (heof : s.eof = true) :
    s.state = .finSent := by
  obtain ⟨-, h1, h2⟩ := h.eof heof
  rcases hopen with hst | hst | hst
  · exact absurd hst h1
  · exact absurd hst h2
  · exact hst

/-- A frame is read. -/
theorem Ok.read (h : s.Ok) (hstate : s.Receiving) (hsync : s.synced = true) (heof : s.eof = false)
    (hidle : s.rcv.reading = none) (x : Frame) :
    ({ s with
      rcv := { s.rcv with reading := some x }
      reads := if s.state = .finSent then s.reads else s.reads ++ x.body } : FrameSocket).Ok := by
  have hshown : ({ s with
      rcv := { s.rcv with reading := some x }
      reads := if s.state = .finSent then s.reads else s.reads ++ x.body } : FrameSocket).shown =
      s.shown ++ x.body := by
    simp [shown, hidle]
  refine { h with
    unsynced := fun hno => ?unsynced, idle := fun hno => ?idle, reads_le := ?le, reads_eq := ?eq }
  case unsynced =>
    rw [show s.synced = false from hno] at hsync
    cases hsync
  case idle =>
    rw [show s.eof = true from hno] at heof
    cases heof
  case le =>
    rw [hshown]
    show (if _ then _ else _) <+: _
    split
    · exact h.reads_le.trans (List.prefix_append _ _)
    · rename_i hst
      have hopen : s.state = .connected ∨ s.state = .connectedFull ∨ s.state = .gotFin := by
        rcases hstate with h1 | h1 | h1
        · exact Or.inl h1
        · exact Or.inr (Or.inl h1)
        · exact absurd h1 hst
      have heq : s.reads ++ x.body = s.shown ++ x.body := by rw [h.reads_eq hopen]
      exact heq ▸ List.prefix_rfl
  case eq =>
    intro hopen
    have hst : s.state ≠ .finSent := by
      rcases hopen with h1 | h1 | h1 <;> rw [show s.state = _ from h1] <;> simp
    rw [hshown, ← h.reads_eq hopen]
    exact if_neg hst

/-- Every step keeps a socket of frames in order. -/
theorem Ok.step (h : s.Ok) (hs : Step p s s') : s'.Ok := by
  cases hs with
  | queue body hstate hroom =>
    exact h.data_last hstate s.snd.frames body (fun _ _ hx => hx) (Nat.le_succ _) hroom
  | amend body more hstate hlast hsent =>
    have hpos : 0 < s.snd.frames.length := by
      have := (List.getElem?_eq_some_iff.mp hlast).1
      omega
    have hwindow := h.window.2
    refine h.data_last hstate s.snd.frames.dropLast _ (fun k x hx => ?_) ?_ ?_
    · rw [List.getElem?_dropLast] at hx
      split at hx
      · exact hx
      · cases hx
    · rw [List.length_dropLast]
      omega
    · rw [List.length_dropLast]
      omega
  | called =>
    exact { h with
      unsynced := fun hno => { h.unsynced hno with }
      closable := fun hno => absurd hno (Nat.succ_ne_zero _) }
  | close hstate hroom hcalled => exact h.close hstate hroom hcalled
  | transmit k x d ack hk hx hd hack =>
    refine { h with
      unsynced := fun hno => { h.unsynced hno with }
      syn := fun m y hy hkind => Set.mem_insert_of_mem k (h.syn m y hy hkind)
      sent_lt := fun m hm => ?_ }
    rcases Set.mem_insert_iff.mp hm with rfl | hm
    · exact (List.getElem?_eq_some_iff.mp hx).1
    · exact h.sent_lt m hm
  | ack seg k hp hk hlt hsent hclaim =>
    refine { h with
      unsynced := fun hno => { h.unsynced hno with }
      acked_lt := fun m hm => ?_
      below := fun m hm => Set.mem_insert_of_mem k (h.below m hm) }
    rcases Set.mem_insert_iff.mp hm with rfl | hm
    · exact hlt
    · exact h.acked_lt m hm
  | advance hmem hlt =>
    refine { h with
      unsynced := fun hno => { h.unsynced hno with }
      window := ⟨hlt, ?_⟩
      below := fun k hk => ?_ }
    · have := h.window.2
      show s.snd.frames.length ≤ s.snd.base + 1 + outgoingBufferMaxSize
      omega
    · rcases Nat.lt_succ_iff_lt_or_eq.mp hk with hk' | rfl
      · exact h.below k hk'
      · exact hmem
  | sync seg hp hflags hstate hsync =>
    have hfresh := h.unsynced hsync
    have hsyn := hfresh.syn
    refine { h with
      fin := ?fin, unsynced := ?unsynced, synced := ?synced, eof := ?eof,
      gotFin := fun hst => (by cases hst), reads_eq := ?reads_eq, closable := fun _ => rfl }
    case fin =>
      intro k x hx hkind
      have := hsyn x (List.mem_of_getElem? hx)
      rw [hkind] at this
      cases this
    case unsynced => exact fun hno => by cases hno
    case synced => exact fun _ => by simp [Synced]
    case eof =>
      intro heof
      have := (h.eof heof).1
      rw [hsync] at this
      cases this
    case reads_eq =>
      intro _
      show s.reads = (s.rcv.got ++ s.rcv.reading.toList).flatMap Frame.body
      rw [hfresh.reads, hfresh.rcv]
      rfl
  | read seg x hp hstate hsync heof hidle hx => exact h.read hstate hsync heof hidle x
  | readHeld x hstate hsync heof hidle hx => exact h.read hstate hsync heof hidle x
  | take x hx =>
    have hshown : ({ s with rcv := { s.rcv with
        next := s.rcv.next + 1, got := s.rcv.got ++ [x], reading := none } } : FrameSocket).shown =
        s.shown := by
      simp [shown, hx]
    refine { h with
      unsynced := fun hno => ?_
      idle := fun _ => rfl
      reads_le := by rw [hshown]; exact h.reads_le
      reads_eq := by rw [hshown]; exact h.reads_eq }
    have := (h.unsynced hno).rcv
    rw [this] at hx
    cases hx
  | hold seg j x hp hsync hx =>
    refine { h with unsynced := fun hno => ?_ }
    rw [show s.synced = false from hno] at hsync
    cases hsync
  | sawFin seg j x hp hflags hsync hx =>
    refine { h with unsynced := fun hno => ?_ }
    rw [show s.synced = false from hno] at hsync
    cases hsync
  | pastEof seg n hp heof hsync hx =>
    refine { h with unsynced := fun hno => ?_ }
    rw [show s.synced = false from hno] at hsync
    cases hsync
  | reachEof f hstate hsync hidle hfin hf =>
    refine { h with
      fin := ?fin, unsynced := ?unsynced, synced := ?synced, eof := ?eof, gotFin := fun _ => rfl,
      idle := fun _ => hidle, reads_eq := ?reads_eq, closable := ?closable }
    case fin =>
      intro k x hx hkind
      refine ⟨(h.fin k x hx hkind).1, ?_⟩
      show (if _ then _ else _) ≠ _ ∧ (if _ then _ else _) ≠ _
      split <;> exact ⟨by simp, by simp⟩
    case unsynced => exact fun hno => by rw [hsync] at hno; cases hno
    case synced =>
      intro _
      show Synced (if _ then _ else _)
      split <;> simp [Synced]
    case eof =>
      intro _
      refine ⟨hsync, ?_⟩
      show (if _ then _ else _) ≠ _ ∧ (if _ then _ else _) ≠ _
      split <;> exact ⟨by simp, by simp⟩
    case reads_eq =>
      intro hopen
      refine h.reads_eq ?_
      rcases hstate with hst | hst | hst
      · exact Or.inl hst
      · exact Or.inr (Or.inl hst)
      · rw [show ({ s with
          eof := true
          state := if s.state = .finSent then .finSent else .gotFin } : FrameSocket).state =
      .finSent
          from if_pos hst] at hopen
        rcases hopen with hopen | hopen | hopen <;> cases hopen
    case closable =>
      intro hzero
      show (if _ then _ else _ : ConnState).closable = true
      split
      · rename_i hst
        rw [← hst]
        exact h.closable hzero
      · rfl
  | move st hmove hcalled => exact h.move hmove hcalled
  | measure seg currentMs time minRtt hp =>
    exact { h with unsynced := fun hno => { h.unsynced hno with } }
  | sendAck d ack sel hstate hd hack =>
    exact { h with unsynced := fun hno => { h.unsynced hno with } }

/-- Any number of steps keep a socket in order. -/
theorem Ok.steps (h : s.Ok) (hs : Steps p s s') : s'.Ok := by
  induction hs with
  | refl => exact h
  | tail _ hstep ih => exact ih.step hstep

/-- What a socket may do by itself, it may do while it works on a packet. -/
theorem Step.of_none (hs : Step none s s') : Step p s s' := by
  cases hs with
  | queue body hstate hroom => exact .queue s body hstate hroom
  | amend body more hstate hlast hsent => exact .amend s body more hstate hlast hsent
  | called => exact .called s
  | close hstate hroom hcalled => exact .close s hstate hroom hcalled
  | transmit k x d ack hk hx hd hack => exact .transmit s k x d ack hk hx hd hack
  | sendAck d ack sel hstate hd hack => exact .sendAck s d ack sel hstate hd hack
  | ack seg k hp hk hlt hsent hclaim => cases hp
  | advance hmem hlt => exact .advance s hmem hlt
  | sync seg hp hflags hstate hsync => cases hp
  | read seg x hp hstate hsync heof hidle h => cases hp
  | readHeld x hstate hsync heof hidle h => exact .readHeld s x hstate hsync heof hidle h
  | take x h => exact .take s x h
  | hold seg j x hp hsync h => cases hp
  | sawFin seg j x hp hflags hsync h => cases hp
  | reachEof f hstate hsync hidle hfin hf => exact .reachEof s f hstate hsync hidle hfin hf
  | pastEof seg n hp heof hsync h => cases hp
  | move st h hcalled => exact .move s st h hcalled
  | measure seg currentMs time minRtt hp => cases hp

/-- Steps without a packet are steps with one. -/
theorem Steps.of_none (hs : Steps none s s') : Steps p s s' := by
  induction hs with
  | refl => exact .refl
  | tail _ hstep ih => exact ih.tail hstep.of_none

/-- A socket that knows its peer does not forget it. -/
theorem Steps.synced (hs : Steps p s s') (h : s.synced = true) : s'.synced = true := by
  induction hs with
  | refl => exact h
  | tail _ hstep ih =>
    cases hstep with
    | sync seg hp hflags hstate hsync => rfl
    | _ => exact ih

/-- The oldest frame of the window is still waiting for its acknowledgment. -/
def Front (s : FrameSocket) : Prop := s.snd.base ∉ s.snd.acked

/-- The window stands where it stood; there may be more frames in it. -/
structure Extends (s s' : FrameSocket) : Prop where
  isn : s'.isn = s.isn
  base : s'.snd.base = s.snd.base
  acked : s'.snd.acked = s.snd.acked
  length_le : s.snd.frames.length ≤ s'.snd.frames.length

/-- A socket extends itself. -/
theorem Extends.refl (s : FrameSocket) : Extends s s := ⟨rfl, rfl, rfl, Nat.le_refl _⟩

/-- Two extensions in a row. -/
theorem Extends.trans {s'' : FrameSocket} (h : Extends s s') (h' : Extends s' s'') :
    Extends s s'' :=
  ⟨h'.isn.trans h.isn, h'.base.trans h.base, h'.acked.trans h.acked,
    Nat.le_trans h.length_le h'.length_le⟩

/-- An extension keeps the socket at the front of its stream. -/
theorem Extends.front (h : Extends s s') (hfront : s.Front) : s'.Front := by
  unfold Front
  rw [h.base, h.acked]
  exact hfront

/-- Without a packet nothing is acknowledged, so the window stands. -/
theorem Front.extends_step (h : s.Front) (hs : Step none s s') : Extends s s' := by
  cases hs with
  | ack seg k hp hk hlt hsent hclaim => cases hp
  | advance hmem hlt => exact absurd hmem h
  | queue body hstate hroom => exact ⟨rfl, rfl, rfl, by simp⟩
  | amend body more hstate hlast hsent =>
    refine ⟨rfl, rfl, rfl, ?_⟩
    simp only [List.length_append, List.length_dropLast, List.length_singleton]
    omega
  | close hstate hroom hcalled => exact ⟨rfl, rfl, rfl, by simp⟩
  | _ => exact ⟨rfl, rfl, rfl, Nat.le_refl _⟩

/-- Without a packet the socket at the front only extends its stream. -/
theorem Front.extends_steps (h : s.Front) (hs : Steps none s s') : Extends s s' := by
  induction hs with
  | refl => exact Extends.refl s
  | tail _ hstep ih => exact ih.trans ((ih.front h).extends_step hstep)

end FrameSocket

/-! ### The representation -/

/-- The MTU search is between its bounds, and so is a probe. -/
structure MtuOk (m : MtuSearch) : Prop where
  floor : mtuFloorMin ≤ m.mtuFloor
  floor_le : m.mtuFloor ≤ m.mtuCeiling
  ceiling : m.mtuCeiling ≤ udpIpv4Mtu
  last : mtuFloorMin ≤ m.mtuLast ∧ m.mtuLast ≤ udpIpv4Mtu
  probe : m.mtuProbeSeq ≠ 0 → m.mtuFloor < m.mtuProbeSize ∧ m.mtuProbeSize ≤ m.mtuCeiling

/-- The search goes on without a probe. -/
theorem MtuOk.clear {m : MtuSearch} (h : MtuOk m) :
    MtuOk { m with mtuProbeSeq := 0, mtuProbeSize := 0 } :=
  { h with probe := fun hno => absurd rfl hno }

/-- `ack_nr` and the reorder buffer show the receiver, but for the slot of the next frame. When
the last frame was taken, the buffer does not matter any more. -/
structure RecvRep (ackNr : UInt16) (inbuf : SizableCircularBuffer (List UInt8)) (synced : Bool)
    (irs : UInt16) (R : Receiver Frame) (eof : Bool) : Prop where
  bits : inbuf.bits ≤ 11
  size : 16 ≤ inbuf.size
  ack : synced = true → ackNr = irs + UInt16.ofNat R.next
  slots : eof = false → ∀ j, 1 ≤ j → j < inbuf.size →
    inbuf.get ((ackNr.toNat : Int) + 1 + j) = (R.held (R.next + j)).map Frame.body
  last : eof = false → inbuf.get ackNr.toNat = none
  beyond : eof = false → ∀ k, R.next + inbuf.size ≤ k → R.held k = none
  unsynced : synced = false → ∀ i, inbuf.get i = none

/-- The socket `c` shows the socket of frames `s`. -/
structure Rep (c : Conn) (s : FrameSocket) : Prop where
  ids : (c.connIdRecv, c.connIdSend) = s.ids
  ok : s.Ok
  state : c.state = s.state
  send : SendRep c.seqNr c.curWindowPackets c.curWindow c.outbuf s.isn s.snd
  room : s.state = .connected ∨ s.state = .connectedFull → c.curWindowPackets ≤ 1023
  recv : RecvRep c.ackNr c.inbuf s.synced s.irs s.rcv s.eof
  next : s.eof = false → c.inbuf.get ((c.ackNr.toNat : Int) + 1) = none
  gotFin : c.gotFin = s.fin.isSome
  eofPkt : ∀ f, s.fin = some f → c.eofPkt = f
  mtu : MtuOk c.mtu
  rcvWin : c.lastRcvWin = c.optRcvbuf
  pending : c.ackPending = true → s.state ≠ .synSent
  queued : c.queued = s.snd.frames.length
  reads : c.reads = s.reads
  taken : c.taken = s.snd.frames.flatMap Frame.body
  out : c.datagrams = s.out
  closes : c.closes = s.closes
  delays : c.delays = s.delays
  fault : c.fault = false
  misused : s.closes ≤ 1 → c.misused = false

/-- The fields of the receiving side. -/
structure RecvView where
  ackNr : UInt16
  inbuf : SizableCircularBuffer (List UInt8)
  reorderCount : Nat
  gotFin : Bool
  eofPkt : UInt16

/-- What a socket knows about the frames of its peer. -/
def Conn.recvView (c : Conn) : RecvView :=
  { ackNr := c.ackNr, inbuf := c.inbuf, reorderCount := c.reorderCount, gotFin := c.gotFin,
    eofPkt := c.eofPkt }

/-- Nothing happened on the receiving side, but that it may know its peer now. -/
structure Quiet (s s' : FrameSocket) : Prop where
  rcv : s'.rcv = s.rcv
  fin : s'.fin = s.fin
  eof : s'.eof = s.eof
  past : s'.past = s.past
  synced : s.synced = true → s'.synced = true ∧ s'.irs = s.irs

/-- A step that keeps the receiving members is quiet. -/
theorem Quiet.of_eq {s s' : FrameSocket} (hrcv : s'.rcv = s.rcv) (hfin : s'.fin = s.fin)
    (heof : s'.eof = s.eof) (hpast : s'.past = s.past) (hsynced : s'.synced = s.synced)
    (hirs : s'.irs = s.irs) : Quiet s s' :=
  ⟨hrcv, hfin, heof, hpast, fun h => ⟨hsynced.trans h, hirs⟩⟩

/-- A socket that does not change. -/
theorem Quiet.refl (s : FrameSocket) : Quiet s s := Quiet.of_eq rfl rfl rfl rfl rfl rfl

/-- Two quiet steps in a row. -/
theorem Quiet.trans {s s' s'' : FrameSocket} (h : Quiet s s') (h' : Quiet s' s'') :
    Quiet s s'' := by
  refine ⟨h'.rcv.trans h.rcv, h'.fin.trans h.fin, h'.eof.trans h.eof, h'.past.trans h.past,
    fun hsync => ?_⟩
  obtain ⟨hsync', hirs⟩ := h.synced hsync
  obtain ⟨hsync'', hirs'⟩ := h'.synced hsync'
  exact ⟨hsync'', hirs'.trans hirs⟩

/-- The state of the connection is the same. -/
def SameState (s s' : FrameSocket) : Prop := s'.state = s.state

/-- A socket that takes frames still does. -/
def StaysOpen (s s' : FrameSocket) : Prop := s.Receiving → s'.Receiving

/-- The state of the connection may be another one. -/
def AnyState (_ _ : FrameSocket) : Prop := True

/-- `c'` shows a state that `s` reaches by steps on its sending side, with `K` about the states
of the connection. -/
def Sim (K : FrameSocket → FrameSocket → Prop) (p : Option Segment) (c : Conn) (s : FrameSocket)
    (c' : Conn) : Prop :=
  ∃ s', FrameSocket.Steps p s s' ∧ Rep c' s' ∧ c'.recvView = c.recvView ∧ Quiet s s' ∧ K s s'

section Sim

variable {K K' : FrameSocket → FrameSocket → Prop} {p : Option Segment} {c c' c'' : Conn}
  {s s' : FrameSocket}

/-- Nothing happens to what is shown. -/
theorem Sim.of_rep (h : Rep c' s) (hview : c'.recvView = c.recvView) :
    Sim SameState p c s c' :=
  ⟨s, .refl, h, hview, Quiet.refl s, rfl⟩

/-- One step happens. -/
theorem Sim.of_step (hs : FrameSocket.Step p s s') (h : Rep c' s')
    (hview : c'.recvView = c.recvView) (hq : Quiet s s') (hK : K s s') : Sim K p c s c' :=
  ⟨s', .single hs, h, hview, hq, hK⟩

/-- Where a simulation starts matters only for the receiving side. -/
theorem Sim.of_view {d : Conn} (hview : d.recvView = c.recvView) (h : Sim K p d s c'') :
    Sim K p c s c'' := by
  obtain ⟨s', hs, hrep, hview', hq, hk⟩ := h
  exact ⟨s', hs, hrep, hview'.trans hview, hq, hk⟩

/-- A simulation with a weaker relation of the states. -/
theorem Sim.mono (h : Sim K p c s c') (hK : ∀ s', K s s' → K' s s') : Sim K' p c s c' := by
  obtain ⟨s', hs, hrep, hview, hq, hk⟩ := h
  exact ⟨s', hs, hrep, hview, hq, hK s' hk⟩

/-- A simulation that says nothing of the states. -/
theorem Sim.any (h : Sim K p c s c') : Sim AnyState p c s c' := h.mono fun _ _ => trivial

/-- Two simulations one after the other. -/
theorem Sim.comp {J L : FrameSocket → FrameSocket → Prop} (h : Sim K p c s c')
    (h' : ∀ s', Rep c' s' → K s s' → Quiet s s' → Sim J p c' s' c'')
    (hL : ∀ s' s'', K s s' → J s' s'' → L s s'') : Sim L p c s c'' := by
  obtain ⟨s', hs, hrep, hview, hq, hk⟩ := h
  obtain ⟨s'', hs', hrep', hview', hq', hk'⟩ := h' s' hrep hk hq
  exact ⟨s'', hs.trans hs', hrep', hview'.trans hview, hq.trans hq', hL _ _ hk hk'⟩

/-- One step comes before a simulation. -/
theorem Sim.of_cons {L : FrameSocket → FrameSocket → Prop} (hs : FrameSocket.Step p s s')
    (hq : Quiet s s') (h : Sim K p c s' c') (hL : ∀ s'', K s' s'' → L s s'') : Sim L p c s c' := by
  obtain ⟨s'', hs', hrep, hview, hq', hk⟩ := h
  exact ⟨s'', .head hs hs', hrep, hview, hq.trans hq', hL _ hk⟩

/-- Two simulations in a row. -/
theorem Sim.bind (h : Sim K p c s c') (htrans : ∀ a b d, K a b → K b d → K a d)
    (h' : ∀ s', Rep c' s' → K s s' → Quiet s s' → Sim K p c' s' c'') : Sim K p c s c'' :=
  h.comp h' fun _ _ hk hk' => htrans _ _ _ hk hk'

/-- A simulation without a packet is one with any packet, and the window stands. -/
theorem Sim.of_none (h : Sim K none c s c') (hfront : s.Front) :
    Sim (fun s s' => K s s' ∧ FrameSocket.Extends s s') p c s c' := by
  obtain ⟨s', hs, hrep, hview, hq, hk⟩ := h
  exact ⟨s', hs.of_none, hrep, hview, hq, hk, hfront.extends_steps hs⟩

/-- `SameState` is transitive. -/
theorem sameState_trans (a b d : FrameSocket) (h : SameState a b) (h' : SameState b d) :
    SameState a d :=
  h'.trans h

/-- `StaysOpen` is transitive. -/
theorem staysOpen_trans (a b d : FrameSocket) (h : StaysOpen a b) (h' : StaysOpen b d) :
    StaysOpen a d :=
  fun hr => h' (h hr)

/-- A socket that stays in its state keeps what it was open for. -/
theorem staysOpen_of_same {s s' s'' : FrameSocket} (h : SameState s s') (h' : StaysOpen s' s'') :
    StaysOpen s s'' := by
  intro hr
  refine h' ?_
  unfold FrameSocket.Receiving at hr ⊢
  rw [show s'.state = s.state from h]
  exact hr

/-- A socket that keeps its state stays open. -/
theorem Sim.stays (h : Sim SameState p c s c') : Sim StaysOpen p c s c' :=
  h.mono fun _ hk => staysOpen_of_same hk id

/-- `AnyState` is transitive. -/
theorem anyState_trans (a b d : FrameSocket) (_ : AnyState a b) (_ : AnyState b d) :
    AnyState a d :=
  trivial

end Sim

/-- The oldest frame waits for its acknowledgment when its packet is in the send queue. -/
theorem Rep.front_iff {c : Conn} {s : FrameSocket} (h : Rep c s) :
    s.Front ↔ c.curWindowPackets = 0 ∨ c.outbuf.get c.oldest ≠ none := by
  have hwin := h.send.window
  rcases Nat.eq_zero_or_pos c.curWindowPackets with h0 | hpos
  · refine iff_of_true (fun hmem => ?_) (Or.inl h0)
    have := h.ok.acked_lt _ hmem
    omega
  · have hslot := h.send.slot 0 hpos
    rw [show (c.seqNr.toNat : Int) - c.curWindowPackets + (0 : Nat) = c.oldest by
      show _ = (c.seqNr.toNat : Int) - c.curWindowPackets; omega] at hslot
    cases hget : c.outbuf.get c.oldest with
    | none =>
      rw [hget] at hslot
      refine iff_of_false (fun hfront => hfront hslot) ?_
      rintro (h0 | hne)
      · omega
      · exact hne rfl
    | some pkt =>
      rw [hget] at hslot
      exact iff_of_true hslot.notAcked (Or.inr (by simp))

/-- A socket that was started is in none of three states. -/
theorem Rep.state_ne {c : Conn} {s : FrameSocket} (h : Rep c s) :
    c.state ≠ .uninitialized ∧ c.state ≠ .idle ∧ c.state ≠ .synRecv := by
  rw [h.state]
  cases hsync : s.synced with
  | false =>
    rcases (h.ok.unsynced hsync).state with hst | hst | hst | hst <;> simp [hst]
  | true =>
    rcases h.ok.synced hsync with hst | hst | hst | hst | hst | hst | hst <;> simp [hst]

/-- A socket that stands for a frame socket has left `CS_UNINITIALIZED`. -/
theorem Rep.state_ne_uninitialized {c : Conn} {s : FrameSocket} (h : Rep c s) :
    c.state ≠ .uninitialized :=
  h.state_ne.1

/-- No socket waits for the first data packet of its peer. -/
theorem Rep.state_ne_synRecv {c : Conn} {s : FrameSocket} (h : Rep c s) : c.state ≠ .synRecv :=
  h.state_ne.2.2

/-! ### Assertions, clocks and datagrams -/

namespace Conn

variable {c : Conn}

/-- An assertion that holds changes nothing. -/
theorem assert_of (q : Prop) [Decidable q] (h : q) : c.assert q = c := by
  show { c with fault := c.fault || !decide q } = c
  rw [decide_eq_true h]
  simp

end Conn

/-- A datagram that was put together from a header and a payload, as it reads. -/
theorem carries_encode (pf : PacketFormatV1) (body : List UInt8) {flags : PacketType}
    (hversion : pf.utpVersion = 1) (htype : PacketType.ofCode pf.type = some flags)
    (hext : pf.ext = 0) : Carries (pf.encode ++ body) flags pf.seqNr pf.ackNr none body := by
  refine ⟨pf, body, PacketFormatV1.decode_encode pf body, hversion, htype, rfl, rfl, fun bits => ?_⟩
  rw [hext, skipExtensions_zero]

/-- A datagram with a selective acknowledgment, as it reads. -/
theorem carries_acks (pf : PacketFormatV1) (m : Nat) {flags : PacketType}
    (hversion : pf.utpVersion = 1) (htype : PacketType.ofCode pf.type = some flags)
    (hext : pf.ext = 1) :
    Carries (pf.encode ++ ackExtension m) flags pf.seqNr pf.ackNr
      (some ⟨4, (ackExtension m).drop 2⟩) [] := by
  refine ⟨pf, ackExtension m, PacketFormatV1.decode_encode pf _, hversion, htype, rfl, rfl,
    fun bits => ?_⟩
  rw [hext, skipExtensions_acks]

end EChannel.LibUtp
