import EChannel.LibUtp.FrameSocket

/-!
# `EChannel.Proofs.LibUtp.SendQueue`: the send queue as a window of frames

`SendRep` says how `seq_nr`, `cur_window_packets`, `cur_window` and `outbuf` show a sender of
frames: the slots from `seq_nr - cur_window_packets` on are the frames from `base` on, a slot is
empty when its frame was acknowledged, and `cur_window` counts the bytes in flight. Three things
happen to a send queue, and `SendRep` survives each: a slot changes (`SendRep.set`), a packet
comes to the end (`SendRep.append`), and the front is empty and goes (`SendRep.advance`).

The C code computes an index in `int`, in `uint16` or in `size_t`. All of them mean the same slot,
since the size of the buffer divides 65536 (`get_wire`, `put_wire`).
-/

set_option autoImplicit false

namespace EChannel.LibUtp

open SlidingWindow

/-! ### Indices -/

section Wire

variable {α : Type} {b : SizableCircularBuffer α} {i j : Int}

/-- Two integers with the same 16 bits. -/
def SameWire (i j : Int) : Prop := i % 65536 = j % 65536

/-- The size of the buffer divides the number of sequence numbers. -/
theorem size_dvd_wire (hbits : b.bits ≤ 16) : b.size ∣ 65536 :=
  Nat.pow_dvd_pow 2 hbits

/-- Two positions with one sequence number have one slot. -/
theorem emod_size_of_wire (hbits : b.bits ≤ 16) (h : SameWire i j) :
    i % (b.size : Int) = j % (b.size : Int) :=
  RingBuffer.emod_size_of_emod (size_dvd_wire hbits) h

/-- The buffer is read by the sequence number. -/
theorem get_wire (hbits : b.bits ≤ 16) (h : SameWire i j) : b.get i = b.get j :=
  RingBuffer.get_congr (emod_size_of_wire hbits h)

/-- The buffer is written by the sequence number. -/
theorem put_wire (hbits : b.bits ≤ 16) (h : SameWire i j) (x : Option α) : b.put i x = b.put j x :=
  RingBuffer.put_congr x (emod_size_of_wire hbits h)

/-- The next sequence number, as an index. -/
theorem sameWire_succ (a : UInt16) : SameWire ((a + 1).toNat : Int) ((a.toNat : Int) + 1) := by
  have ha := a.toNat_lt
  have hadd : (a + 1).toNat = (a.toNat + 1) % 65536 := by
    rw [UInt16.toNat_add]
    rfl
  show _ % 65536 = _ % 65536
  omega

end Wire

/-! ### Bytes in flight -/

/-- The bytes of a slot that count in `cur_window`: its packet was sent, and it is not marked for
resending. -/
def weight : Option OutgoingPacket → Nat
  | none => 0
  | some pkt => if 0 < pkt.transmissions ∧ pkt.needResend = false then pkt.payload else 0

/-- The bytes in flight. -/
def flight : List (Option OutgoingPacket) → Nat
  | [] => 0
  | x :: l => weight x + flight l

/-- An empty slot has no bytes in flight. -/
@[simp] theorem weight_none : weight none = 0 := rfl

/-- The bytes in flight of two lists in a row. -/
theorem flight_append (l l' : List (Option OutgoingPacket)) :
    flight (l ++ l') = flight l + flight l' := by
  induction l with
  | nil => simp [flight]
  | cons x l ih =>
    simp only [List.cons_append, flight, ih]
    omega

/-- The bytes in flight after a packet is replaced. -/
theorem flight_set (l : List (Option OutgoingPacket)) (k : Nat) (x : Option OutgoingPacket)
    (hk : k < l.length) : flight (l.set k x) + weight l[k] = flight l + weight x := by
  induction l generalizing k with
  | nil => exact absurd hk (by simp)
  | cons y l ih =>
    cases k with
    | zero =>
      show weight x + flight l + weight y = weight y + flight l + weight x
      omega
    | succ k =>
      have hk' : k < l.length := by simpa using hk
      have := ih k hk'
      show weight y + flight (l.set k x) + weight l[k] = weight y + flight l + weight x
      omega

/-- A packet has not more bytes in flight than all of them. -/
theorem weight_le_flight (l : List (Option OutgoingPacket)) (k : Nat) (hk : k < l.length) :
    weight l[k] ≤ flight l := by
  have := flight_set l k none hk
  simp only [weight_none] at this
  omega

/-- A packet that is sent counts afterwards, and `cur_window` grows by it if it did not before. -/
theorem resent_weight (n : Nat) (pkt : OutgoingPacket) :
    (if pkt.transmissions = 0 ∨ pkt.needResend = true then n + pkt.payload else n) +
      weight (some pkt) = n + pkt.payload := by
  by_cases hcond : pkt.transmissions = 0 ∨ pkt.needResend = true
  · rw [if_pos hcond]
    have : weight (some pkt) = 0 := by
      rcases hcond with h0 | h0 <;> simp [weight, h0]
    omega
  · rw [if_neg hcond]
    obtain ⟨h0, h1⟩ := not_or.mp hcond
    simp [weight, Nat.pos_of_ne_zero h0, h1]

/-! ### The representation -/

/-- A packet of the send queue that holds the frame `k`. -/
structure PacketRep (isn : UInt16) (S : Sender Frame) (k : Nat) (pkt : OutgoingPacket) : Prop where
  frame : ∃ kind, S.frames[k]? = some ⟨kind, pkt.body⟩ ∧
    PacketType.ofCode pkt.header.type = some kind
  seqNr : pkt.header.seqNr = isn + UInt16.ofNat k
  version : pkt.header.utpVersion = 1
  ext : pkt.header.ext = 0
  sent : 0 < pkt.transmissions ↔ k ∈ S.sent
  resend : pkt.needResend = true → 0 < pkt.transmissions
  notAcked : k ∉ S.acked

/-- The slot of the frame `k`. -/
def SlotRep (isn : UInt16) (S : Sender Frame) (k : Nat) : Option OutgoingPacket → Prop
  | none => k ∈ S.acked
  | some pkt => PacketRep isn S k pkt

/-- What a slot shows depends on its own frame only. -/
theorem SlotRep.congr {isn : UInt16} {S T : Sender Frame} {k : Nat} {y : Option OutgoingPacket}
    (h : SlotRep isn S k y) (hframe : T.frames[k]? = S.frames[k]?)
    (hsent : k ∈ T.sent ↔ k ∈ S.sent) (hacked : k ∈ T.acked ↔ k ∈ S.acked) :
    SlotRep isn T k y := by
  cases y with
  | none => exact hacked.mpr h
  | some pkt =>
    have hp : PacketRep isn S k pkt := h
    exact
      { hp with
        frame := by rw [hframe]; exact hp.frame
        sent := hp.sent.trans hsent.symm
        notAcked := fun hk => hp.notAcked (hacked.mp hk) }

/-- The send queue shows the frames of the sender from `base` on. -/
structure SendRep (seqNr : UInt16) (cwp curWindow : Nat)
    (outbuf : SizableCircularBuffer OutgoingPacket) (isn : UInt16) (S : Sender Frame) : Prop where
  seqNr_eq : seqNr = isn + UInt16.ofNat S.frames.length
  window : S.base + cwp = S.frames.length
  bits : outbuf.bits ≤ 10
  fits : cwp ≤ outbuf.size
  slot : ∀ k < cwp, SlotRep isn S (S.base + k) (outbuf.get ((seqNr.toNat : Int) - cwp + k))
  empty : ∀ k, cwp ≤ k → k < outbuf.size → outbuf.get ((seqNr.toNat : Int) - cwp + k) = none
  inFlight : curWindow = flight (outbuf.segment ((seqNr.toNat : Int) - cwp) cwp)

variable {seqNr isn : UInt16} {cwp curWindow : Nat}
  {outbuf : SizableCircularBuffer OutgoingPacket} {S T : Sender Frame}

namespace SendRep

/-- The buffer has not more slots than there are sequence numbers. -/
theorem bits_le (h : SendRep seqNr cwp curWindow outbuf isn S) : outbuf.bits ≤ 16 :=
  Nat.le_trans h.bits (by decide)

/-- The weight of a slot is part of `cur_window`. -/
theorem weight_le (h : SendRep seqNr cwp curWindow outbuf isn S) {k : Nat} (hk : k < cwp) :
    weight (outbuf.get ((seqNr.toNat : Int) - cwp + k)) ≤ curWindow := by
  rw [h.inFlight]
  have hlen : k < (outbuf.segment ((seqNr.toNat : Int) - cwp) cwp).length := by simpa using hk
  have := weight_le_flight _ k hlen
  rwa [RingBuffer.getElem_segment] at this

/-- A packet in the buffer is in the window, whatever index it was found at. -/
theorem index_of_some (h : SendRep seqNr cwp curWindow outbuf isn S) {i : Int}
    {pkt : OutgoingPacket} (hget : outbuf.get i = some pkt) :
    ∃ k < cwp, i % (outbuf.size : Int) = ((seqNr.toNat : Int) - cwp + k) % (outbuf.size : Int) ∧
      outbuf.get ((seqNr.toNat : Int) - cwp + k) = some pkt := by
  have hpos := outbuf.size_pos
  let lo : Int := (seqNr.toNat : Int) - cwp
  have hnn : 0 ≤ (i - lo) % (outbuf.size : Int) := Int.emod_nonneg _ (by omega)
  have hlt : (i - lo) % (outbuf.size : Int) < outbuf.size := Int.emod_lt_of_pos _ (by omega)
  obtain ⟨k, hk⟩ : ∃ k : Nat, (i - lo) % (outbuf.size : Int) = k :=
    ⟨((i - lo) % (outbuf.size : Int)).toNat, by omega⟩
  have hsame : i % (outbuf.size : Int) = (lo + k) % (outbuf.size : Int) := by
    rw [← hk, Int.add_emod_emod, show lo + (i - lo) = i by omega]
  have hget' : outbuf.get (lo + k) = some pkt := by rw [← RingBuffer.get_congr hsame, hget]
  refine ⟨k, ?_, hsame, hget'⟩
  by_contra hge
  rw [h.empty k (by omega) (by omega)] at hget'
  cases hget'

/-- The slot of one frame changes, and what the sender knows of the others does not. -/
theorem set (h : SendRep seqNr cwp curWindow outbuf isn S) {k w : Nat}
    {x : Option OutgoingPacket} (hk : k < cwp) (hbase : T.base = S.base)
    (hlen : T.frames.length = S.frames.length)
    (hother : ∀ m < cwp, m ≠ k → ∀ y, SlotRep isn S (S.base + m) y → SlotRep isn T (S.base + m) y)
    (hx : SlotRep isn T (S.base + k) x)
    (hflight : w + weight (outbuf.get ((seqNr.toNat : Int) - cwp + k)) =
      curWindow + weight x) :
    SendRep seqNr cwp w (outbuf.put ((seqNr.toNat : Int) - cwp + k) x) isn T := by
  have hfits : k < outbuf.size := Nat.lt_of_lt_of_le hk h.fits
  constructor
  case seqNr_eq => rw [hlen]; exact h.seqNr_eq
  case window => rw [hlen, hbase]; exact h.window
  case bits => exact h.bits
  case fits => exact h.fits
  case slot =>
    intro m hm
    rw [hbase]
    by_cases heq : k = m
    · subst heq
      rw [RingBuffer.get_put_self]
      exact hx
    · have hm' := Nat.lt_of_lt_of_le hm h.fits
      rw [RingBuffer.get_put_of_ne x (by omega) (by omega) (by omega)]
      exact hother m hm (Ne.symm heq) _ (h.slot m hm)
  case empty =>
    intro m hle hm
    have hm' : m < outbuf.size := hm
    rw [RingBuffer.get_put_of_ne x (by omega) (by omega) (by omega)]
    exact h.empty m hle hm
  case inFlight =>
    have hlen' : k < (outbuf.segment ((seqNr.toNat : Int) - cwp) cwp).length := by simpa using hk
    have hset := flight_set _ k x hlen'
    rw [RingBuffer.getElem_segment, ← h.inFlight] at hset
    rw [RingBuffer.segment_put x hk h.fits]
    omega

/-- A packet that was not sent comes to the end of the queue. -/
theorem append (h : SendRep seqNr cwp curWindow outbuf isn S) (hcwp : cwp < 1024) (x : Frame)
    {pkt : OutgoingPacket} (hbase : T.base = S.base) (hframes : T.frames = S.frames ++ [x])
    (hother : ∀ k < S.frames.length, ∀ y, SlotRep isn S k y → SlotRep isn T k y)
    (hpkt : PacketRep isn T S.frames.length pkt) (hnew : pkt.transmissions = 0) :
    SendRep (seqNr + 1) (cwp + 1) curWindow
      ((SizableCircularBuffer.ensureSize outbuf seqNr.toNat cwp).put seqNr.toNat (some pkt)) isn
      T := by
  let buf := SizableCircularBuffer.ensureSize outbuf seqNr.toNat cwp
  have hbits : buf.bits ≤ 10 :=
    SizableCircularBuffer.bits_ensureSize_le outbuf _ cwp 10 h.bits hcwp
  have hlt : cwp < buf.size := SizableCircularBuffer.lt_size_ensureSize outbuf _ cwp
  have hold (k : Nat) (hk : k < buf.size) : buf.get ((seqNr.toNat : Int) - cwp + k) =
      if k < outbuf.size then outbuf.get ((seqNr.toNat : Int) - cwp + k) else none :=
    SizableCircularBuffer.get_ensureSize outbuf seqNr.toNat cwp k hk
  -- The indices behind the new `seq_nr` are those behind the old one.
  have hwire (k : Nat) : SameWire (((seqNr + 1).toNat : Int) - (cwp + 1 : Nat) + k)
      ((seqNr.toNat : Int) - cwp + k) := by
    have := sameWire_succ seqNr
    show _ % 65536 = _ % 65536
    unfold SameWire at this
    omega
  have hget (k : Nat) (hk : k < buf.size) :
      (buf.put seqNr.toNat (some pkt)).get (((seqNr + 1).toNat : Int) - (cwp + 1 : Nat) + k) =
        if k = cwp then some pkt else buf.get ((seqNr.toNat : Int) - cwp + k) := by
    rw [get_wire (b := buf.put seqNr.toNat (some pkt)) (Nat.le_trans hbits (by decide)) (hwire k)]
    have hseq : (seqNr.toNat : Int) = (seqNr.toNat : Int) - cwp + cwp := by omega
    by_cases heq : k = cwp
    · rw [if_pos heq, heq, ← hseq, RingBuffer.get_put_self]
    · rw [if_neg heq]
      exact RingBuffer.get_put_of_ne _ (by omega) (by omega) (by omega)
  have hlen : T.frames.length = S.frames.length + 1 := by rw [hframes]; simp
  constructor
  case seqNr_eq =>
    rw [hlen, h.seqNr_eq, UInt16.add_assoc]
    congr 1
    simp
  case window =>
    have := h.window
    omega
  case bits => exact hbits
  case fits => exact hlt
  case slot =>
    intro k hk
    rw [hget k (by show k < buf.size; omega), hbase]
    by_cases heq : k = cwp
    · rw [if_pos heq, heq, h.window]
      exact hpkt
    · have hk' : k < cwp := by omega
      have hwin := h.window
      rw [if_neg heq, hold k (by omega), if_pos (Nat.lt_of_lt_of_le hk' h.fits)]
      exact hother _ (by omega) _ (h.slot k hk')
  case empty =>
    intro k hle hk
    have hk' : k < buf.size := hk
    rw [hget k hk', if_neg (by omega), hold k hk']
    split
    · exact h.empty k (by omega) ‹_›
    · rfl
  case inFlight =>
    rw [RingBuffer.segment_succ, flight_append, hget cwp hlt, if_pos rfl, h.inFlight]
    have hseg : RingBuffer.segment (buf.put seqNr.toNat (some pkt))
        (((seqNr + 1).toNat : Int) - (cwp + 1 : Nat)) cwp =
        outbuf.segment ((seqNr.toNat : Int) - cwp) cwp := by
      refine List.map_congr_left fun k hk => ?_
      have hk' : k < cwp := List.mem_range.mp hk
      rw [hget k (by omega), if_neg (by omega), hold k (by omega),
        if_pos (Nat.lt_of_lt_of_le hk' h.fits)]
    show flight _ = flight (RingBuffer.segment (buf.put seqNr.toNat (some pkt)) _ cwp) + _
    rw [hseg]
    simp [flight, weight, hnew]

/-- The front of the queue is empty, and the window starts behind it. -/
theorem advance (h : SendRep seqNr (cwp + 1) curWindow outbuf isn S)
    (hnone : outbuf.get ((seqNr.toNat : Int) - (cwp + 1 : Nat)) = none)
    (hbase : T.base = S.base + 1) (hframes : T.frames = S.frames)
    (hother : ∀ k y, SlotRep isn S k y → SlotRep isn T k y) :
    SendRep seqNr cwp curWindow outbuf isn T := by
  have hindex (k : Nat) : (seqNr.toNat : Int) - cwp + k =
      (seqNr.toNat : Int) - (cwp + 1 : Nat) + (k + 1 : Nat) := by omega
  have hfits := h.fits
  constructor
  case seqNr_eq => rw [hframes]; exact h.seqNr_eq
  case window =>
    have := h.window
    rw [hframes, hbase]
    omega
  case bits => exact h.bits
  case fits => omega
  case slot =>
    intro k hk
    have := hother _ _ (h.slot (k + 1) (by omega))
    rw [hindex, hbase, show S.base + 1 + k = S.base + (k + 1) by omega]
    exact this
  case empty =>
    intro k hle hk
    rw [hindex]
    by_cases hlast : k + 1 < outbuf.size
    · exact h.empty (k + 1) (by omega) hlast
    · -- One round further is the slot at the front.
      rw [← hnone]
      refine RingBuffer.get_congr ?_
      rw [show (k + 1 : Nat) = outbuf.size by omega]
      exact Int.add_emod_right _ _
  case inFlight =>
    rw [h.inFlight, RingBuffer.segment_cons, hnone]
    show 0 + flight _ = _
    rw [Nat.zero_add]
    congr 2
    omega

end SendRep

end EChannel.LibUtp
