import Mathlib.Data.Set.Insert
import Mathlib.Logic.Function.Basic
import Mathlib.Tactic.Common

/-!
# `EChannel.Support.SlidingWindow`: numbered frames over a lossy channel

A sender queues frames and numbers them in order. It keeps a frame until it has seen the
receiver claim it, and its window starts at the first frame that is not claimed. A receiver
takes the frames in order from some number on, and holds frames that come too early.

What the two ends see of each other is a parameter. `Sender.Step seen` is a step of a sender
that may take the frame `k` for claimed when `seen k`; `Receiver.Step offered` is a step of a
receiver that may accept `x` as the frame `j` when `offered j x`. `Agree` relates the two ends,
with `skip` the number of the first frame that the receiver takes. It is kept by every step
that sees only the truth (`Agree.sender`, `Agree.receiver`), whatever the channel does.

`ofNat_inj_of_near` is what lets the ends put 16 bits of a number on the wire.
-/

set_option autoImplicit false

namespace EChannel.SlidingWindow

variable {α : Type}

/-- The sending end. `base` is where the window starts. -/
structure Sender (α : Type) where
  frames : List α
  base : Nat
  sent : Set Nat
  acked : Set Nat

/-- The receiving end. It has taken the `next` frames `got`, and the frame it is working on is
`reading`. -/
structure Receiver (α : Type) where
  next : Nat
  held : Nat → Option α
  got : List α
  reading : Option α

/-- What a sender can do, when it may take the frames `seen` for claimed. -/
inductive Sender.Step (seen : Nat → Prop) : Sender α → Sender α → Prop
  | queue (S : Sender α) (x : α) : Step seen S { S with frames := S.frames ++ [x] }
  | amend (S : Sender α) (x : α) (hne : S.frames ≠ []) (hsent : S.frames.length - 1 ∉ S.sent) :
    Step seen S { S with frames := S.frames.dropLast ++ [x] }
  | transmit (S : Sender α) (k : Nat) (hk : S.base ≤ k) (hlt : k < S.frames.length) :
    Step seen S { S with sent := insert k S.sent }
  | ack (S : Sender α) (k : Nat) (hk : S.base ≤ k) (hlt : k < S.frames.length)
    (hseen : seen k) : Step seen S { S with acked := insert k S.acked }
  | advance (S : Sender α) (h : S.base ∈ S.acked) (hlt : S.base < S.frames.length) :
    Step seen S { S with base := S.base + 1 }

/-- What a receiver with `w` places can do, when it may accept the frames `offered`. -/
inductive Receiver.Step (w : Nat) (offered : Nat → α → Prop) : Receiver α → Receiver α → Prop
  | read (R : Receiver α) (x : α) (h : offered R.next x) :
    Step w offered R { R with reading := some x }
  | readHeld (R : Receiver α) (x : α) (h : R.held R.next = some x) :
    Step w offered R { R with reading := some x }
  | take (R : Receiver α) (x : α) (h : R.reading = some x) :
    Step w offered R { R with next := R.next + 1, got := R.got ++ [x], reading := none }
  | hold (R : Receiver α) (j : Nat) (x : α) (hj : j < R.next + w) (h : offered j x) :
    Step w offered R { R with held := Function.update R.held j (some x) }

/-- The frame `j` has arrived. -/
def Receiver.Has (R : Receiver α) (j : Nat) : Prop := j < R.next ∨ (R.held j).isSome = true

/-- The frame `k` of the sender is `x`, and it was sent. -/
def Sender.Offers (S : Sender α) (k : Nat) (x : α) : Prop := S.frames[k]? = some x ∧ k ∈ S.sent

/-! ### What lasts -/

/-- A frame that was sent stays what it is. -/
theorem Sender.Offers.step {seen : Nat → Prop} {S S' : Sender α} {k : Nat} {x : α}
    (h : S.Offers k x) (hs : Sender.Step seen S S') : S'.Offers k x := by
  obtain ⟨hx, hsent⟩ := h
  have hlt : k < S.frames.length := (List.getElem?_eq_some_iff.mp hx).1
  cases hs with
  | queue y => exact ⟨by rw [List.getElem?_append_left hlt]; exact hx, hsent⟩
  | amend y hne hlast =>
    -- The last frame was not sent, so `k` is before it.
    have hk : k < S.frames.length - 1 := by
      have : k ≠ S.frames.length - 1 := fun heq => hlast (heq ▸ hsent)
      omega
    refine ⟨?_, hsent⟩
    show (S.frames.dropLast ++ [y])[k]? = some x
    rw [List.getElem?_append_left (by rw [List.length_dropLast]; exact hk), List.getElem?_dropLast,
      if_pos hk]
    exact hx
  | transmit m hm hmlt => exact ⟨hx, Set.mem_insert_of_mem m hsent⟩
  | ack m hm hmlt hseen => exact ⟨hx, hsent⟩
  | advance hbase hblt => exact ⟨hx, hsent⟩

/-- A sender only adds frames. -/
theorem Sender.length_le_of_step {seen : Nat → Prop} {S S' : Sender α}
    (hs : Sender.Step seen S S') : S.frames.length ≤ S'.frames.length := by
  cases hs with
  | queue y => simp
  | amend y hne hlast =>
    have hpos : 0 < S.frames.length := List.length_pos_iff.mpr hne
    simp only [List.length_append, List.length_dropLast, List.length_singleton]
    omega
  | transmit m hm hmlt => exact Nat.le_refl _
  | ack m hm hmlt hseen => exact Nat.le_refl _
  | advance hbase hblt => exact Nat.le_refl _

/-- A receiver does not go back. -/
theorem Receiver.next_le_of_step {w : Nat} {offered : Nat → α → Prop} {R R' : Receiver α}
    (hs : Receiver.Step w offered R R') : R.next ≤ R'.next := by
  cases hs with
  | take x h => exact Nat.le_succ _
  | _ => exact Nat.le_refl _

/-- What has arrived does not get lost. -/
theorem Receiver.Has.step {w : Nat} {offered : Nat → α → Prop} {R R' : Receiver α} {j : Nat}
    (h : R.Has j) (hs : Receiver.Step w offered R R') : R'.Has j := by
  cases hs with
  | read x hx => exact h
  | readHeld x hx => exact h
  | take x hx =>
    refine h.imp (fun hlt => ?_) id
    show j < R.next + 1
    omega
  | hold m x hm hx =>
    refine h.imp id fun hj => ?_
    show (Function.update R.held m (some x) j).isSome = true
    by_cases heq : j = m
    · rw [heq, Function.update_self]
      rfl
    · rw [Function.update_of_ne heq]
      exact hj

/-! ### Agreement -/

/-- The two ends agree about the frames from `skip` on. -/
structure Agree (w skip : Nat) (S : Sender α) (R : Receiver α) : Prop where
  below : ∀ k < S.base, k ∈ S.acked
  base_le : S.base ≤ S.frames.length
  acked : ∀ k ∈ S.acked, k < skip ∨ R.Has (k - skip)
  got : R.got = (S.frames.drop skip).take R.next
  taken : ∀ j < R.next, ∃ x, S.Offers (skip + j) x
  held : ∀ j x, R.held j = some x → S.Offers (skip + j) x ∧ j < R.next + w
  reading : ∀ x, R.reading = some x → S.Offers (skip + R.next) x

variable {w skip : Nat} {S S' : Sender α} {R R' : Receiver α}

/-- A receiver that has nothing agrees with a sender that has seen no claim of the frames from
`skip` on. -/
theorem Agree.init (hbase : S.base ≤ S.frames.length) (hbelow : ∀ k < S.base, k ∈ S.acked)
    (hacked : ∀ k ∈ S.acked, k < skip) : Agree w skip S ⟨0, fun _ => none, [], none⟩ := by
  constructor
  case below => exact hbelow
  case base_le => exact hbase
  case acked => exact fun k hk => Or.inl (hacked k hk)
  case got => rfl
  case taken => exact fun j hj => absurd hj (Nat.not_lt_zero j)
  case held => exact fun j x hx => absurd hx (by simp)
  case reading => exact fun x hx => absurd hx (by simp)

/-- The receiver is not ahead of the sender. -/
theorem Agree.next_le (h : Agree w skip S R) (hskip : skip ≤ S.frames.length) :
    skip + R.next ≤ S.frames.length := by
  rcases Nat.eq_zero_or_pos R.next with h0 | hpos
  · omega
  · obtain ⟨x, hx, -⟩ := h.taken (R.next - 1) (by omega)
    have hlt := (List.getElem?_eq_some_iff.mp hx).1
    omega

/-- The window of the sender starts at most `w` frames beyond what the receiver has taken. -/
theorem Agree.base_le_next (h : Agree w skip S R) : S.base ≤ skip + R.next + w := by
  by_contra hlt
  -- The last frame before the window was claimed, so it is held or taken.
  have hmem := h.below (S.base - 1) (by omega)
  rcases h.acked _ hmem with hk | hk | hk
  · omega
  · omega
  · obtain ⟨x, hx⟩ := Option.isSome_iff_exists.mp hk
    have := (h.held _ x hx).2
    omega

/-- What is read back from an unchanged part of the frames. -/
theorem take_drop_eq_of_getElem? {l l' : List α} {skip n : Nat}
    (h : ∀ j < n, ∃ x, l[skip + j]? = some x ∧ l'[skip + j]? = some x) :
    (l.drop skip).take n = (l'.drop skip).take n := by
  refine List.ext_getElem? fun j => ?_
  simp only [List.getElem?_take, List.getElem?_drop]
  by_cases hj : j < n
  · obtain ⟨x, hx, hx'⟩ := h j hj
    rw [if_pos hj, if_pos hj, hx, hx']
  · rw [if_neg hj, if_neg hj]

/-- A step of the sender that takes only what has arrived for claimed. -/
theorem Agree.sender {seen : Nat → Prop} (h : Agree w skip S R) (hs : Sender.Step seen S S')
    (htrue : ∀ k, seen k → k < skip ∨ R.Has (k - skip)) : Agree w skip S' R := by
  have hlast {k : Nat} {x : α} (hx : S.Offers k x) : S'.Offers k x := hx.step hs
  have hlen := Sender.length_le_of_step hs
  constructor
  case below =>
    cases hs with
    | ack m hm hmlt hseen => exact fun k hk => Set.mem_insert_of_mem m (h.below k hk)
    | advance hbase hblt =>
      intro k hk
      have hk' : k < S.base + 1 := hk
      rcases Nat.lt_succ_iff_lt_or_eq.mp hk' with hlt | rfl
      · exact h.below k hlt
      · exact hbase
    | _ => exact h.below
  case base_le =>
    cases hs with
    | advance hbase hblt => exact hblt
    | _ => exact Nat.le_trans h.base_le hlen
  case acked =>
    cases hs with
    | ack m hm hmlt hseen =>
      intro k hk
      rcases Set.mem_insert_iff.mp hk with rfl | hk
      · exact htrue k hseen
      · exact h.acked k hk
    | _ => exact h.acked
  case got =>
    rw [h.got]
    refine take_drop_eq_of_getElem? fun j hj => ?_
    obtain ⟨x, hx⟩ := h.taken j hj
    exact ⟨x, hx.1, (hlast hx).1⟩
  case taken => exact fun j hj => (h.taken j hj).imp fun x hx => hlast hx
  case held => exact fun j x hx => ⟨hlast (h.held j x hx).1, (h.held j x hx).2⟩
  case reading => exact fun x hx => hlast (h.reading x hx)

/-- A step of the receiver that accepts only what was sent. -/
theorem Agree.receiver {offered : Nat → α → Prop} (h : Agree w skip S R)
    (hs : Receiver.Step w offered R R')
    (htrue : ∀ j x, offered j x → S.Offers (skip + j) x) : Agree w skip S R' := by
  have hnext := Receiver.next_le_of_step hs
  constructor
  case below => exact h.below
  case base_le => exact h.base_le
  case acked => exact fun k hk => (h.acked k hk).imp id fun hj => hj.step hs
  case got =>
    cases hs with
    | take x hx =>
      obtain ⟨hget, -⟩ := h.reading x hx
      show R.got ++ [x] = (S.frames.drop skip).take (R.next + 1)
      rw [List.take_add_one, List.getElem?_drop, hget, h.got]
      rfl
    | _ => exact h.got
  case taken =>
    cases hs with
    | take x hx =>
      intro j hj
      have hj' : j < R.next + 1 := hj
      rcases Nat.lt_succ_iff_lt_or_eq.mp hj' with hlt | rfl
      · exact h.taken j hlt
      · exact ⟨x, h.reading x hx⟩
    | _ => exact h.taken
  case held =>
    cases hs with
    | hold m x hm hx =>
      intro j y hy
      have hy' : Function.update R.held m (some x) j = some y := hy
      by_cases heq : j = m
      · subst heq
        rw [Function.update_self] at hy'
        obtain rfl : x = y := by simpa using hy'
        exact ⟨htrue j x hx, hm⟩
      · rw [Function.update_of_ne heq] at hy'
        exact h.held j y hy'
    | _ =>
      intro j y hy
      have := h.held j y hy
      exact ⟨this.1, Nat.lt_of_lt_of_le this.2 (Nat.add_le_add_right hnext w)⟩
  case reading =>
    cases hs with
    | read x hx =>
      intro y hy
      obtain rfl : x = y := by simpa using hy
      exact htrue R.next x hx
    | readHeld x hx =>
      intro y hy
      obtain rfl : x = y := by simpa using hy
      exact (h.held R.next x hx).1
    | take x hx => exact fun y hy => absurd hy (by simp)
    | hold m x hm hx => exact h.reading

/-! ### Numbers on the wire -/

/-- Two numbers that are near each other are the same when their 16 bits are. -/
theorem ofNat_inj_of_near {a b : Nat} (h : UInt16.ofNat a = UInt16.ofNat b)
    (hab : a < b + 65536) (hba : b < a + 65536) : a = b := by
  have hmod : a % 65536 = b % 65536 := by
    have := congrArg UInt16.toNat h
    simpa only [UInt16.toNat_ofNat'] using this
  omega

end EChannel.SlidingWindow
