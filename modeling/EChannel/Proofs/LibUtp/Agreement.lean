import EChannel.Proofs.LibUtp.Refinement

/-!
# `EChannel.Proofs.LibUtp.Agreement`: two sockets of frames that belong together

What a socket says in a datagram stays true as long as the socket lives (`Vouches`): the frame
that it shows stays the frame of that number, and what it tells to have, it has. This is about one
socket, whatever its peer does.

`Linked skip S R` relates a sender and its receiver: they agree about the frames from `skip` on.
The numbers on the wire have 16 bits. What a datagram means to the one who gets it is what it
meant to the one who sent it, if it is not too old (`claims_true`, `delivers_true`); so each step
of either end keeps the two linked.
-/

set_option autoImplicit false

namespace EChannel.LibUtp

open SlidingWindow

namespace FrameSocket

variable {p : Option Segment} {s s' : FrameSocket}

/-! ### A step, seen from one side -/

/-- What a step does to the sender. -/
theorem Step.sender (hs : Step p s s') :
    s'.isn = s.isn ∧ (s'.snd = s.snd ∨
      Sender.Step (fun k => ∃ seg, p = some seg ∧ s.snd.base ≤ k ∧ k < s.snd.frames.length ∧
        s.Claims seg k) s.snd s'.snd) := by
  cases hs with
  | queue body hstate hroom => exact ⟨rfl, Or.inr (.queue _ _)⟩
  | amend body more hstate hlast hsent =>
    refine ⟨rfl, Or.inr (.amend _ _ ?_ hsent)⟩
    intro hnil
    rw [hnil] at hlast
    cases hlast
  | close hstate hroom => exact ⟨rfl, Or.inr (.queue _ _)⟩
  | transmit k x d ack hk hx hd hack =>
    exact ⟨rfl, Or.inr (.transmit _ k hk (List.getElem?_eq_some_iff.mp hx).1)⟩
  | ack seg k hp hk hlt hsent hclaim =>
    exact ⟨rfl, Or.inr (.ack _ k hk hlt ⟨seg, hp, hk, hlt, hclaim⟩)⟩
  | advance hmem hlt => exact ⟨rfl, Or.inr (.advance _ hmem hlt)⟩
  | _ => exact ⟨rfl, Or.inl rfl⟩

/-- What a step does to the receiver, unless the peer has sent frames behind its last one. -/
theorem Step.receiver (hs : Step p s s') (hpast : s'.past = false) :
    s'.rcv = s.rcv ∨
      Receiver.Step reorderBufferMaxSize
        (fun j x => ∃ seg, p = some seg ∧ s.Delivers seg j x) s.rcv s'.rcv := by
  cases hs with
  | read seg x hp hstate hsync heof hidle h => exact Or.inr (.read _ x ⟨seg, hp, h⟩)
  | readHeld x hstate hsync heof hidle h => exact Or.inr (.readHeld _ x h)
  | take x h => exact Or.inr (.take _ x h)
  | hold seg j x hp hsync h => exact Or.inr (.hold _ j x h.2.2.2.2 ⟨seg, hp, h⟩)
  | pastEof seg n hp heof hsync h => cases hpast
  | _ => exact Or.inl rfl

/-- A socket that is not past its stream was not before. -/
theorem Step.past (hs : Step p s s') (hpast : s'.past = false) : s.past = false := by
  cases hs with
  | pastEof seg n hp heof hsync h => cases hpast
  | _ => exact hpast

/-- A socket that knows its peer keeps the number that it counts from. -/
theorem Step.synced (hs : Step p s s') (h : s.synced = true) :
    s'.synced = true ∧ s'.irs = s.irs := by
  cases hs with
  | sync seg hp hflags hstate hsync =>
    rw [hsync] at h
    cases h
  | _ => exact ⟨h, rfl⟩

/-- Nobody comes back to `CS_SYN_SENT`. -/
theorem Step.synSent (hs : Step p s s') (hst : s'.state = .synSent) : s.state = .synSent := by
  cases hs with
  | move st hmove hcalled =>
    have hst' : st = .synSent := hst
    rcases hmove.ended with ⟨-, hno | hno⟩ | ⟨-, hne⟩
    · rw [hst'] at hno
      cases hno
    · rw [hst'] at hno
      cases hno
    · exact absurd hst' hne
  | close hstate hroom => cases hst
  | sync seg hp hflags hstate hno => cases hst
  | reachEof f hstate hsync hidle hfin hf =>
    have hst' : (if s.state = .finSent then ConnState.finSent else .gotFin) = .synSent := hst
    split at hst' <;> cases hst'
  | _ => exact hst

/-- A socket in `CS_SYN_SENT` was there from the start. -/
theorem Steps.synSent (hs : Steps p s s') (hst : s'.state = .synSent) : s.state = .synSent := by
  induction hs with
  | refl => exact hst
  | tail _ hstep ih => exact ih (hstep.synSent hst)

/-- Only a socket in `CS_SYN_SENT` gets to know its peer. -/
theorem Steps.synSent_of_synced (hs : Steps p s s') (h : s.synced = false)
    (h' : s'.synced = true) : s.state = .synSent := by
  induction hs with
  | refl =>
    rw [h] at h'
    cases h'
  | tail hs1 hstep ih =>
    cases hstep with
    | sync seg hp hflags hstate hsync => exact Steps.synSent hs1 hstate
    | _ => exact ih h'

/-- Without a packet a socket learns nothing about its peer. -/
theorem Steps.of_none_keeps (hs : Steps none s s') : s'.synced = s.synced ∧ s'.past = s.past := by
  induction hs with
  | refl => exact ⟨rfl, rfl⟩
  | tail _ hstep ih =>
    cases hstep with
    | sync seg hp hflags hstate hsync => cases hp
    | pastEof seg n hp heof hsync h => cases hp
    | _ => exact ih

/-- A frame that is offered stays where it is. -/
theorem Step.offers (hs : Step p s s') {k : Nat} {x : Frame} (h : s.snd.Offers k x) :
    s'.snd.Offers k x := by
  rcases hs.sender.2 with heq | hstep
  · rw [heq]
    exact h
  · exact h.step hstep

/-- A frame that is offered stays where it is in any number of steps. -/
theorem Steps.offers (hs : Steps p s s') {k : Nat} {x : Frame} (h : s.snd.Offers k x) :
    s'.snd.Offers k x := by
  induction hs with
  | refl => exact h
  | tail _ hstep ih => exact hstep.offers ih

/-- Frames are only added. -/
theorem Step.length_le (hs : Step p s s') : s.snd.frames.length ≤ s'.snd.frames.length := by
  rcases hs.sender.2 with heq | hstep
  · rw [heq]
  · exact Sender.length_le_of_step hstep

/-- Acknowledged frames stay acknowledged. -/
theorem Step.base_le (hs : Step p s s') : s.snd.base ≤ s'.snd.base := by
  cases hs with
  | advance hmem hlt => exact Nat.le_succ _
  | _ => exact Nat.le_refl _

/-- What was received stays received, as long as the stream is not past. -/
theorem Step.has (hs : Step p s s') (hpast : s'.past = false) {j : Nat} (h : s.rcv.Has j) :
    s'.rcv.Has j := by
  rcases hs.receiver hpast with heq | hstep
  · rw [heq]
    exact h
  · exact h.step hstep

/-- The next number to receive does not go back. -/
theorem Step.next_le (hs : Step p s s') (hpast : s'.past = false) : s.rcv.next ≤ s'.rcv.next := by
  rcases hs.receiver hpast with heq | hstep
  · rw [heq]
  · exact Receiver.next_le_of_step hstep

/-! ### What a socket stands by -/

/-- What `s` shows with a datagram: an acknowledgment has the number behind all frames, any other
datagram has the number of its frame. `n` is the number of frames when it was sent, or less. -/
def Shows (s : FrameSocket) (flags : PacketType) (n : Nat) (seq : UInt16) (data : List UInt8) :
    Prop :=
  (flags = .state ∧ ∃ k, n ≤ k ∧ k ≤ s.snd.frames.length ∧ seq = s.seqOf k) ∨
    ∃ k x, s.snd.Offers k x ∧ x = ⟨flags, data⟩ ∧ seq = s.seqOf k ∧
      n ≤ k + outgoingBufferMaxSize

/-- What `s` tells with an acknowledgment: it has the frames that this names. `m` is the number of
frames that were taken when it was sent, or less. -/
def Tells (s : FrameSocket) (m : Nat) (ack : UInt16) (sel : Option SelAck) : Prop :=
  (∃ a, m ≤ a ∧ a ≤ s.rcv.next + 1 ∧ ack + 1 = s.irs + UInt16.ofNat a) ∧
    ∀ mask beyond i, sel = some mask → i < mask.len.toNat * 8 → mask.bitSet beyond i = true →
      ∃ j, m ≤ j ∧ s.rcv.Has j ∧ ack + 2 + UInt16.ofNat i = s.peerSeq j

/-- `s` stands by the datagram `d`. -/
structure Vouches (s : FrameSocket) (d : List UInt8) (flags : PacketType) (n m : Nat) : Prop where
  carries : ∃ seq ack sel data, Carries d flags seq ack sel data ∧ s.Shows flags n seq data ∧
    (s.synced = true → flags ≠ .syn → s.Tells m ack sel)
  syn : s.state = .synSent → flags = .syn

/-- A packet that shows a frame shows it later, too. -/
theorem Shows.step {flags : PacketType} {n : Nat} {seq : UInt16} {data : List UInt8}
    (h : s.Shows flags n seq data) (hs : Step p s s') : s'.Shows flags n seq data := by
  have hseq (k : Nat) : s'.seqOf k = s.seqOf k := by
    show s'.isn + _ = s.isn + _
    rw [hs.sender.1]
  rcases h with ⟨hflags, k, hn, hk, heq⟩ | ⟨k, x, hx, hflags, heq, hn⟩
  · exact Or.inl ⟨hflags, k, hn, Nat.le_trans hk hs.length_le, by rw [hseq, heq]⟩
  · exact Or.inr ⟨k, x, hs.offers hx, hflags, by rw [hseq, heq], hn⟩

/-- An ack that tells the truth tells it later, too. -/
theorem Tells.step {m : Nat} {ack : UInt16} {sel : Option SelAck} (h : s.Tells m ack sel)
    (hs : Step p s s') (hpast : s'.past = false) (hsync : s.synced = true) :
    s'.Tells m ack sel := by
  have hirs := (hs.synced hsync).2
  obtain ⟨⟨a, hm, ha, hack⟩, hmask⟩ := h
  refine ⟨⟨a, hm, ?_, by rw [hirs, hack]⟩, fun mask beyond i hsel hi hbit => ?_⟩
  · have := hs.next_le hpast
    omega
  · obtain ⟨j, hj, hhas, heq⟩ := hmask mask beyond i hsel hi hbit
    refine ⟨j, hj, hs.has hpast hhas, heq.trans ?_⟩
    show s.irs + 1 + _ = s'.irs + 1 + _
    rw [hirs]

/-- What a socket has said stays true. -/
theorem Vouches.step {d : List UInt8} {flags : PacketType} {n m : Nat} (h : s.Vouches d flags n m)
    (hs : Step p s s') (hpast : s'.past = false) : s'.Vouches d flags n m := by
  obtain ⟨seq, ack, sel, data, hd, hshow, htell⟩ := h.carries
  refine ⟨⟨seq, ack, sel, data, hd, hshow.step hs, fun hsync hne => ?_⟩, fun hst => ?_⟩
  · cases hold : s.synced with
    | true => exact (htell hold hne).step hs hpast hold
    | false =>
      -- The peer is known only now: the socket was in `CS_SYN_SENT`.
      cases hs with
      | sync seg hp hflags hstate hno => exact absurd (h.syn hstate) hne
      | _ =>
        rw [show s.synced = true from hsync] at hold
        cases hold
  · exact h.syn (hs.synSent hst)

/-- A datagram that a socket vouches for is vouched for after any number of steps. -/
theorem Vouches.steps {d : List UInt8} {flags : PacketType} {n m : Nat} (h : s.Vouches d flags n m)
    (hs : Steps p s s') (hpast : s'.past = false) : s'.Vouches d flags n m := by
  induction hs with
  | refl => exact h
  | tail _ hstep ih => exact (ih (hstep.past hpast)).step hstep hpast

/-- A socket stands by everything it sends. -/
theorem Step.vouched (hs : Step p s s') (hok : s.Ok) (hpast : s'.past = false) {n m : Nat}
    (hn : n ≤ s.snd.frames.length) (hbase : n ≤ s.snd.base + outgoingBufferMaxSize)
    (hm : m ≤ s.rcv.next) :
    ∃ l, s'.out = s.out ++ l ∧ ∀ d ∈ l, ∃ flags, s'.Vouches d flags n m := by
  have hfin : s.out = s.out ++ [] := (List.append_nil _).symm
  cases hs with
  | transmit k x d ack hk hx hd hack =>
    refine ⟨[d], rfl, fun d' hd' => ⟨x.kind, ?_⟩⟩
    rw [List.mem_singleton.mp hd']
    refine ⟨⟨_, ack, none, x.body, hd, Or.inr ⟨k, x, ⟨hx, Set.mem_insert _ _⟩, rfl, rfl, ?_⟩,
      fun hsync _ => ?_⟩, fun hst => ?_⟩
    · omega
    · obtain ⟨⟨a, ha, ha', hack'⟩, -⟩ := hack hsync
      exact ⟨⟨a, Nat.le_trans hm ha, ha', hack'⟩, fun mask _ _ hno => by cases hno⟩
    · -- Before the answer to the SYN there is no other frame.
      exact (hok.unsynced (hok.unsynced_of_synSent hst)).syn x (List.mem_of_getElem? hx)
  | sendAck d ack sel hstate hd hack =>
    refine ⟨[d], rfl, fun d' hd' => ⟨.state, ?_⟩⟩
    rw [List.mem_singleton.mp hd']
    refine ⟨⟨_, ack, sel, [], hd, Or.inl ⟨rfl, _, hn, Nat.le_refl _, rfl⟩, fun hsync _ => ?_⟩,
      fun hst => absurd hst hstate⟩
    obtain ⟨⟨a, ha, ha', hack'⟩, hmask⟩ := hack hsync
    refine ⟨⟨a, Nat.le_trans hm ha, ha', hack'⟩, fun mask beyond i hsel hi hbit => ?_⟩
    obtain ⟨j, hj, hheld, heq⟩ := hmask mask beyond i hsel hi hbit
    exact ⟨j, Nat.le_trans hm hj, Or.inr hheld, heq⟩
  | _ => exact ⟨[], hfin, fun d hd => absurd hd List.not_mem_nil⟩

/-- The same over any number of steps. -/
theorem Steps.vouched (hs : Steps p s s') (hok : s.Ok) (hpast : s'.past = false) :
    ∃ l, s'.out = s.out ++ l ∧
      ∀ d ∈ l, ∃ flags, s'.Vouches d flags s.snd.frames.length s.rcv.next := by
  suffices h : s.snd.frames.length ≤ s'.snd.frames.length ∧ s.snd.base ≤ s'.snd.base ∧
      s.rcv.next ≤ s'.rcv.next ∧ ∃ l, s'.out = s.out ++ l ∧
        ∀ d ∈ l, ∃ flags, s'.Vouches d flags s.snd.frames.length s.rcv.next from h.2.2.2
  induction hs with
  | refl => exact ⟨Nat.le_refl _, Nat.le_refl _, Nat.le_refl _, [], (List.append_nil _).symm,
      fun d hd => absurd hd List.not_mem_nil⟩
  | tail hs1 hstep ih =>
    have hok1 := hok.steps hs1
    obtain ⟨hlen, hbase, hnext, l, hout, hl⟩ := ih (hstep.past hpast)
    have hwin := hok.window.2
    obtain ⟨l', hout', hl'⟩ := hstep.vouched hok1 hpast hlen (by omega) hnext
    refine ⟨Nat.le_trans hlen hstep.length_le, Nat.le_trans hbase hstep.base_le,
      Nat.le_trans hnext (hstep.next_le hpast), l ++ l', ?_, fun d hd => ?_⟩
    · rw [hout', hout, List.append_assoc]
    · rcases List.mem_append.mp hd with hd | hd
      · obtain ⟨flags, hv⟩ := hl d hd
        exact ⟨flags, hv.step hstep hpast⟩
      · exact hl' d hd

/-! ### Two sockets -/

/-- The sender `S` and the receiver `R` belong together: `R` takes the frames of `S` from `skip`
on. -/
structure Linked (skip : Nat) (S R : FrameSocket) : Prop where
  agree : Agree reorderBufferMaxSize skip S.snd R.rcv
  skip_le : skip ≤ S.snd.frames.length
  synced : R.synced = true
  irs : R.irs + 1 = S.isn + UInt16.ofNat skip
  past : R.past = false
  fin : ∀ f, R.fin = some f → ∃ k x, S.snd.Offers k x ∧ x.kind = .fin ∧ f = S.seqOf k
  eof : R.eof = true → ∃ k x, S.snd.Offers k x ∧ x.kind = .fin ∧ k + 1 = skip + R.rcv.next

/-- The packet acknowledges what `R` has, and it is not too old. -/
def Answers (R : FrameSocket) (seg : Segment) : Prop :=
  ∃ m, R.Tells m seg.header.ackNr seg.selack ∧ R.rcv.next < m + (2 ^ 15 + 2048)

/-- The packet shows a frame of `S`, and it is not too old. -/
def Brings (S : FrameSocket) (seg : Segment) : Prop :=
  ∃ n, S.Shows seg.flags n seg.header.seqNr seg.data ∧ S.snd.frames.length < n + 2 ^ 15

section Linked

variable {skip : Nat} {S S' R R' : FrameSocket} {seg : Segment}

/-- A frame is known by its number among those that are near. -/
theorem seqOf_inj {a b : Nat} (h : S.seqOf a = S.seqOf b) (hab : a < b + 65536)
    (hba : b < a + 65536) : a = b := by
  have hcancel : UInt16.ofNat a = UInt16.ofNat b := by
    have h' : S.isn + UInt16.ofNat a = S.isn + UInt16.ofNat b := h
    grind
  exact ofNat_inj_of_near hcancel hab hba

/-- Both ends have the same numbers for the frames. -/
theorem Linked.peerSeq_eq (h : Linked skip S R) (j : Nat) : R.peerSeq j = S.seqOf (skip + j) := by
  show R.irs + 1 + UInt16.ofNat j = S.isn + UInt16.ofNat (skip + j)
  rw [h.irs, UInt16.ofNat_add, UInt16.add_assoc]

/-- What the window of the sender and the place of the receiver have to do with each other. -/
theorem Linked.near (h : Linked skip S R) (hok : S.Ok) :
    skip + R.rcv.next ≤ S.snd.frames.length ∧ S.snd.base ≤ skip + R.rcv.next + 1024 ∧
      S.snd.frames.length ≤ S.snd.base + 1024 :=
  ⟨h.agree.next_le h.skip_le, h.agree.base_le_next, hok.window.2⟩

/-- A frame that a packet claims for the receiver has arrived there. -/
theorem Linked.claims_true (h : Linked skip S R) (hok : S.Ok) (hans : Answers R seg) {k : Nat}
    (hk : S.snd.base ≤ k) (hlt : k < S.snd.frames.length) (hclaim : S.Claims seg k) :
    k < skip ∨ R.rcv.Has (k - skip) := by
  obtain ⟨h1, h2, h3⟩ := h.near hok
  obtain ⟨m, ⟨⟨b, hm, hb, hack⟩, hmask⟩, hfresh⟩ := hans
  rcases hclaim with ⟨a, ha, hale, hseq⟩ | ⟨sel, i, hsel, hi, hbit, hseq⟩
  · have hnum : S.seqOf (a + 1) = S.seqOf (skip + b) := by
      have h' : S.isn + UInt16.ofNat a = R.irs + UInt16.ofNat b := by
        rw [← hack, hseq]
        rfl
      have hirs := h.irs
      show S.isn + UInt16.ofNat (a + 1) = S.isn + UInt16.ofNat (skip + b)
      simp only [UInt16.ofNat_add]
      grind
    have := seqOf_inj hnum (by omega) (by omega)
    by_cases hlow : k < skip
    · exact Or.inl hlow
    · exact Or.inr (Or.inl (by omega))
  · obtain ⟨j, hj, hhas, hpeer⟩ := hmask sel seg.beyond i hsel hi hbit
    rw [h.peerSeq_eq, hseq] at hpeer
    have hjlt : j < R.rcv.next + 1024 := by
      rcases hhas with hj' | hj'
      · omega
      · obtain ⟨x, hx⟩ := Option.isSome_iff_exists.mp hj'
        exact (h.agree.held j x hx).2
    have := seqOf_inj hpeer (by omega) (by omega)
    refine Or.inr ?_
    rw [show k - skip = j by omega]
    exact hhas

/-- A frame that a packet brings to the receiver is the frame of the sender with that number. -/
theorem Linked.delivers_true (h : Linked skip S R) (hok : S.Ok) (hbr : Brings S seg) {j : Nat}
    {x : Frame} (hdel : R.Delivers seg j x) : S.snd.Offers (skip + j) x := by
  obtain ⟨h1, h2, h3⟩ := h.near hok
  obtain ⟨n, hshow, hfresh⟩ := hbr
  obtain ⟨hflags, hx, hseq, hle, hlt⟩ := hdel
  have hlt' : j < R.rcv.next + 1024 := hlt
  rcases hshow with ⟨hstate, -⟩ | ⟨k, y, hy, hyx, hyseq, hn⟩
  · rw [hstate] at hflags
    rcases hflags with hf | hf <;> cases hf
  · have hn' : n ≤ k + 1024 := hn
    have hklt := (List.getElem?_eq_some_iff.mp hy.1).1
    rw [h.peerSeq_eq, hyseq] at hseq
    have := seqOf_inj hseq (by omega) (by omega)
    rw [← this, hx, ← hyx]
    exact hy

/-- A step of the sender. -/
theorem Linked.sender_step (h : Linked skip S R) (hok : S.Ok) (hs : Step p S S')
    (hans : ∀ seg, p = some seg → Answers R seg) : Linked skip S' R := by
  have hseq (k : Nat) : S'.seqOf k = S.seqOf k := by
    show S'.isn + _ = S.isn + _
    rw [hs.sender.1]
  constructor
  case agree =>
    rcases hs.sender.2 with heq | hstep
    · rw [heq]
      exact h.agree
    · refine h.agree.sender hstep fun k hk => ?_
      obtain ⟨seg, hp, hbase, hlt, hclaim⟩ := hk
      exact h.claims_true hok (hans seg hp) hbase hlt hclaim
  case skip_le => exact Nat.le_trans h.skip_le hs.length_le
  case synced => exact h.synced
  case irs => rw [hs.sender.1]; exact h.irs
  case past => exact h.past
  case fin =>
    intro f hf
    obtain ⟨k, x, hx, hkind, heq⟩ := h.fin f hf
    exact ⟨k, x, hs.offers hx, hkind, by rw [hseq, heq]⟩
  case eof =>
    intro heof
    obtain ⟨k, x, hx, hkind, heq⟩ := h.eof heof
    exact ⟨k, x, hs.offers hx, hkind, heq⟩

/-- An honest sender has no frames behind its last one. -/
theorem Linked.past_step (h : Linked skip S R) (hok : S.Ok) (hs : Step p R R')
    (hbr : ∀ seg, p = some seg → Brings S seg) : R'.past = false := by
  cases hs with
  | pastEof seg n hp heof hsync hmore =>
    obtain ⟨k, x, hx, hkind, hk⟩ := h.eof heof
    have hlast := (hok.fin k x hx.1 hkind).1
    rcases hmore with hpast | ⟨j, y, hdel⟩
    · rw [h.past] at hpast
      cases hpast
    · have hlt := (List.getElem?_eq_some_iff.mp (h.delivers_true hok (hbr seg hp) hdel).1).1
      have := hdel.2.2.2.1
      omega
  | _ => exact h.past

/-- A step of the receiver. -/
theorem Linked.receiver_step (h : Linked skip S R) (hok : S.Ok) (hokR : R.Ok) (hs : Step p R R')
    (hbr : ∀ seg, p = some seg → Brings S seg) : Linked skip S R' := by
  have hpast := h.past_step hok hs hbr
  obtain ⟨hsync, hirs⟩ := hs.synced h.synced
  constructor
  case agree =>
    rcases hs.receiver hpast with heq | hstep
    · rw [heq]
      exact h.agree
    · refine h.agree.receiver hstep fun j x hx => ?_
      obtain ⟨seg, hp, hdel⟩ := hx
      exact h.delivers_true hok (hbr seg hp) hdel
  case skip_le => exact h.skip_le
  case synced => exact hsync
  case irs => rw [hirs]; exact h.irs
  case past => exact hpast
  case fin =>
    cases hs with
    | sawFin seg j x hp hflags hsync' hdel =>
      intro f hf
      have hoffer := h.delivers_true hok (hbr seg hp) hdel
      refine ⟨skip + j, x, hoffer, ?_, ?_⟩
      · rw [hdel.2.1]
        exact hflags
      · rw [← h.peerSeq_eq, ← hdel.2.2.1]
        exact (Option.some.inj hf).symm
    | _ => exact h.fin
  case eof =>
    cases hs with
    | reachEof f hstate hsync' hidle hfin hf =>
      intro _
      obtain ⟨k, x, hx, hkind, hseq⟩ := h.fin f hfin
      obtain ⟨h1, h2, h3⟩ := h.near hok
      have hlast := (hok.fin k x hx.1 hkind).1
      refine ⟨k, x, hx, hkind, ?_⟩
      have hnum : S.seqOf (k + 1) = S.seqOf (skip + R.rcv.next) := by
        have hirs' := h.irs
        have h' : S.isn + UInt16.ofNat k = R.irs + UInt16.ofNat R.rcv.next := by
          rw [← hf, hseq]
          rfl
        show S.isn + UInt16.ofNat (k + 1) = S.isn + UInt16.ofNat (skip + R.rcv.next)
        simp only [UInt16.ofNat_add]
        grind
      show k + 1 = skip + R.rcv.next
      exact seqOf_inj hnum (by omega) (by omega)
    | take x hx =>
      intro heof
      rw [hokR.idle heof] at hx
      cases hx
    | pastEof seg n hp heof hsync' hmore => cases hpast
    | _ => exact h.eof

/-- The receiver gets to know the sender: it starts with the frame behind those that the sender
had when it answered. -/
theorem linked_of_sync (hok : S.Ok) (hacked : S.snd.acked = ∅) (hfresh : R.Fresh)
    (hpast : R.past = false) (heof : R.eof = false) (hflags : seg.flags = .state)
    (hbr : Brings S seg) :
    ∃ skip, Linked skip S
      { R with state := .connected, synced := true, irs := seg.header.seqNr - 1 } := by
  obtain ⟨n, hshow, -⟩ := hbr
  rcases hshow with ⟨-, k, -, hk, hseq⟩ | ⟨k, x, hx, hxk, -, -⟩
  · have hbase : S.snd.base = 0 := by
      by_contra hne
      have := hok.below 0 (Nat.pos_of_ne_zero hne)
      rw [hacked] at this
      exact this
    refine ⟨k, ?_, hk, rfl, ?_, hpast, ?_, ?_⟩
    · show Agree reorderBufferMaxSize k S.snd R.rcv
      rw [hfresh.rcv]
      exact Agree.init (by rw [hbase]; exact Nat.zero_le _) hok.below
        (by rw [hacked]; exact fun k hk => absurd hk (Set.notMem_empty k))
    · show seg.header.seqNr - 1 + 1 = S.isn + UInt16.ofNat k
      rw [UInt16.sub_add_cancel, hseq]
      rfl
    · intro f hf
      rw [show R.fin = none from hfresh.fin] at hf
      cases hf
    · intro hno
      rw [show R.eof = true from hno] at heof
      cases heof
  · -- No frame is a `ST_STATE`.
    have hkind := hok.kinds x (List.mem_of_getElem? hx.1)
    rw [hxk] at hkind
    simp [hflags] at hkind

/-- A receiver that does not know its sender yet either gets to know it or not. -/
theorem join_steps (hok : S.Ok) (hokR : R.Ok) (hs : Steps p R R') (hsync : R.synced = false)
    (hpast : R.past = false) (hacked : R.state = .synSent → S.snd.acked = ∅)
    (hbr : ∀ seg, p = some seg → Brings S seg) :
    R'.synced = false ∧ R'.past = false ∨ ∃ skip, Linked skip S R' := by
  induction hs with
  | refl => exact Or.inl ⟨hsync, hpast⟩
  | @tail R1 R2 hs1 hstep ih =>
    have hok1 := hokR.steps hs1
    rcases ih with ⟨hno, hnp⟩ | ⟨skip, hlink⟩
    · have hfresh := hok1.unsynced hno
      have heof : R1.eof ≠ true := by
        intro heof
        have := (hok1.eof heof).1
        rw [hno] at this
        cases this
      cases hstep with
      | sync seg hp hflags hstate hsync' =>
        have hstart : R.state = .synSent := Steps.synSent hs1 hstate
        exact Or.inr (linked_of_sync hok (hacked hstart) hfresh hnp (Bool.eq_false_iff.mpr heof)
          hflags (hbr seg hp))
      | pastEof seg n hp heof' hsync' hmore => exact absurd heof' heof
      | _ => exact Or.inl ⟨hno, hnp⟩
    · exact Or.inr ⟨skip, hlink.receiver_step hok hok1 hstep hbr⟩

/-- Any number of steps of the sender. -/
theorem Linked.sender_steps (h : Linked skip S R) (hok : S.Ok) (hs : Steps p S S')
    (hans : ∀ seg, p = some seg → Answers R seg) : Linked skip S' R := by
  induction hs with
  | refl => exact h
  | tail hs1 hstep ih => exact ih.sender_step (hok.steps hs1) hstep hans

/-- Any number of steps of the receiver. -/
theorem Linked.receiver_steps (h : Linked skip S R) (hok : S.Ok) (hokR : R.Ok) (hs : Steps p R R')
    (hbr : ∀ seg, p = some seg → Brings S seg) : Linked skip S R' := by
  induction hs with
  | refl => exact h
  | tail hs1 hstep ih => exact ih.receiver_step hok (hokR.steps hs1) hstep hbr

end Linked

end FrameSocket

end EChannel.LibUtp
