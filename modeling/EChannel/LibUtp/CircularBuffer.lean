import EChannel.Support.RingBuffer

/-!
# `EChannel.LibUtp.CircularBuffer`: the buffers that grow

`SizableCircularBuffer` of `utp_internal.cpp` keeps the packets of a socket: those it has sent in
`outbuf`, those that came too early in `inbuf`. Its `mask` is the size less one, and the size is
a power of two, so it is a `RingBuffer`: `elements[i & mask]` is the element at `i` modulo the
size, also for an `i` below zero, since the machine's `size_t` wraps at a multiple of the size.
-/

set_option autoImplicit false

namespace EChannel.LibUtp

/-- `SizableCircularBuffer`. -/
abbrev SizableCircularBuffer (α : Type) := RingBuffer α

namespace SizableCircularBuffer

variable {α : Type}

/-- `do size *= 2; while (index >= size);` after the first doubling, on the exponent. `n` bounds
the rounds: `index` of them are enough. -/
def doubleSize (index : Nat) : Nat → Nat → Nat
  | 0, bits => bits
  | n + 1, bits => if 2 ^ bits ≤ index then doubleSize index n (bits + 1) else bits

/-- `SizableCircularBuffer::grow`: the elements from `item - index` on move to a larger buffer. -/
def grow (b : SizableCircularBuffer α) (item : Int) (index : Nat) : SizableCircularBuffer α :=
  RingBuffer.copy b (.empty (doubleSize index index (b.bits + 1))) (item - index) b.size

/-- `SizableCircularBuffer::ensure_size`. -/
def ensureSize (b : SizableCircularBuffer α) (item : Int) (index : Nat) :
    SizableCircularBuffer α :=
  if b.size ≤ index then grow b item index else b

/-! ### The size -/

/-- Doubling does not shrink the buffer. -/
theorem le_doubleSize (index n bits : Nat) : bits ≤ doubleSize index n bits := by
  induction n generalizing bits with
  | zero => exact Nat.le_refl bits
  | succ n ih =>
    show bits ≤ if 2 ^ bits ≤ index then doubleSize index n (bits + 1) else bits
    split
    · have := ih (bits + 1)
      omega
    · exact Nat.le_refl bits

/-- The loop ends with a size beyond the index. -/
theorem lt_two_pow_doubleSize (index n bits : Nat) (h : index < n + bits) :
    index < 2 ^ doubleSize index n bits := by
  induction n generalizing bits with
  | zero =>
    have hlt : bits < 2 ^ bits := Nat.lt_two_pow_self
    show index < 2 ^ bits
    omega
  | succ n ih =>
    show index < 2 ^ if 2 ^ bits ≤ index then doubleSize index n (bits + 1) else bits
    split
    · exact ih (bits + 1) (by omega)
    · omega

/-- The size does not pass a bound that is enough for the index. -/
theorem doubleSize_le (index n bits bound : Nat) (hbits : bits ≤ bound)
    (hindex : index < 2 ^ bound) : doubleSize index n bits ≤ bound := by
  induction n generalizing bits with
  | zero => exact hbits
  | succ n ih =>
    show (if 2 ^ bits ≤ index then doubleSize index n (bits + 1) else bits) ≤ bound
    split
    · rename_i hle
      have hlt : 2 ^ bits < 2 ^ bound := Nat.lt_of_le_of_lt hle hindex
      exact ih (bits + 1) (Nat.pow_lt_pow_iff_right (by decide)|>.mp hlt)
    · exact hbits

/-- A bound on the size holds after `ensureSize` when the index is below it. -/
theorem bits_ensureSize_le (b : SizableCircularBuffer α) (item : Int) (index bound : Nat)
    (hbits : b.bits ≤ bound) (hindex : index < 2 ^ bound) :
    (ensureSize b item index).bits ≤ bound := by
  unfold ensureSize
  split
  · rename_i hle
    have hlt : 2 ^ b.bits < 2 ^ bound := Nat.lt_of_le_of_lt hle hindex
    have hsucc : b.bits + 1 ≤ bound := Nat.pow_lt_pow_iff_right (by decide)|>.mp hlt
    show (RingBuffer.copy b (.empty (doubleSize index index (b.bits + 1))) (item - index)
      b.size).bits ≤ bound
    rw [RingBuffer.bits_copy]
    exact doubleSize_le index index (b.bits + 1) bound hsucc hindex
  · exact hbits

/-- `grow` does not shrink the buffer. -/
theorem size_le_size_grow (b : SizableCircularBuffer α) (item : Int) (index : Nat) :
    b.size ≤ (grow b item index).size := by
  show 2 ^ b.bits ≤ 2 ^ (grow b item index).bits
  refine Nat.pow_le_pow_right (by decide) ?_
  show b.bits ≤ (RingBuffer.copy b _ _ _).bits
  rw [RingBuffer.bits_copy]
  have := le_doubleSize index index (b.bits + 1)
  show b.bits ≤ doubleSize index index (b.bits + 1)
  omega

/-- `ensureSize` makes room for the index that it is called with. -/
theorem lt_size_ensureSize (b : SizableCircularBuffer α) (item : Int) (index : Nat) :
    index < (ensureSize b item index).size := by
  unfold ensureSize
  split
  · show index < 2 ^ (RingBuffer.copy b _ _ _).bits
    rw [RingBuffer.bits_copy]
    exact lt_two_pow_doubleSize index index (b.bits + 1) (by omega)
  · omega

/-- `ensureSize` does not shrink the buffer. -/
theorem size_le_size_ensureSize (b : SizableCircularBuffer α) (item : Int) (index : Nat) :
    b.size ≤ (ensureSize b item index).size := by
  unfold ensureSize
  split
  · exact size_le_size_grow b item index
  · exact Nat.le_refl _

/-! ### The elements -/

/-- A larger buffer has the old elements behind `item - index`, and nothing behind them. -/
theorem get_grow (b : SizableCircularBuffer α) (item : Int) (index k : Nat)
    (hk : k < (grow b item index).size) :
    (grow b item index).get (item - index + k) =
      if k < b.size then b.get (item - index + k) else none := by
  have hsize : (grow b item index).size =
      (RingBuffer.empty (doubleSize index index (b.bits + 1)) : RingBuffer α).size := by
    show 2 ^ (RingBuffer.copy b _ _ _).bits = _
    rw [RingBuffer.bits_copy]
    rfl
  have hle := size_le_size_grow b item index
  rw [hsize] at hk hle
  show (RingBuffer.copy b _ (item - index) b.size).get (item - index + k) = _
  rw [RingBuffer.get_copy b _ (item - index) hle hk, RingBuffer.get_empty]

/-- What `ensure_size` leaves of the elements behind `item - index`. -/
theorem get_ensureSize (b : SizableCircularBuffer α) (item : Int) (index k : Nat)
    (hk : k < (ensureSize b item index).size) :
    (ensureSize b item index).get (item - index + k) =
      if k < b.size then b.get (item - index + k) else none := by
  unfold ensureSize at hk ⊢
  split
  · rename_i hle
    rw [if_pos hle] at hk
    exact get_grow b item index k hk
  · rename_i hle
    rw [if_neg hle] at hk
    rw [if_pos hk]

/-- `ensure_size` loses no element. -/
theorem occupied_ensureSize (b : SizableCircularBuffer α) (item : Int) (index : Nat) :
    (ensureSize b item index).occupied (item - index) = b.occupied (item - index) := by
  have hle := size_le_size_ensureSize b item index
  have hget := get_ensureSize b item index
  generalize ensureSize b item index = b' at hle hget
  have hseg (n : Nat) (hn : b.size + n ≤ b'.size) :
      (b'.segment (item - index) (b.size + n)).countP Option.isSome =
        b.occupied (item - index) := by
    induction n with
    | zero =>
      refine congrArg (List.countP Option.isSome) (RingBuffer.segment_eq_of_get fun k hk => ?_)
      rw [hget k (by omega), if_pos (by omega)]
    | succ n ih =>
      -- The elements behind the old ones are empty.
      rw [show b.size + (n + 1) = b.size + n + 1 by omega, RingBuffer.segment_succ,
        List.countP_append, ih (by omega), hget _ (by omega), if_neg (by omega)]
      rfl
  have := hseg (b'.size - b.size) (by omega)
  rwa [show b.size + (b'.size - b.size) = b'.size by omega] at this

end SizableCircularBuffer

end EChannel.LibUtp
