import Mathlib.Data.Int.ModEq
import Mathlib.Tactic.Common

/-!
# `EChannel.Support.RingBuffer`: an array that is indexed modulo its size

A ring buffer has `2 ^ bits` elements, each of them empty or not. An index is any integer, and
two indices mean the same element when they agree modulo the size.

What a program keeps in such a buffer is a segment: as many elements as it counts, from some
index on. `segment` reads it as a list, and `put` inside the segment is `List.set`. Outside the
segment nothing happens to it as long as the indices are less than one round apart
(`get_put_of_ne`). `copy` moves a segment into another buffer.
-/

set_option autoImplicit false

namespace EChannel

/-- A buffer of `2 ^ bits` elements. -/
structure RingBuffer (α : Type) where
  bits : Nat
  elements : Vector (Option α) (2 ^ bits)

namespace RingBuffer

variable {α : Type} {b : RingBuffer α} {i j lo lo' : Int} {n k : Nat} {x : Option α}

/-- The number of elements. -/
def size (b : RingBuffer α) : Nat := 2 ^ b.bits

/-- A buffer has a slot. -/
theorem size_pos (b : RingBuffer α) : 0 < b.size := Nat.two_pow_pos b.bits

/-- The place of an index in the array. -/
def slot (b : RingBuffer α) (i : Int) : Nat := (i % (b.size : Int)).toNat

/-- A slot is inside the buffer. -/
theorem slot_lt (b : RingBuffer α) (i : Int) : b.slot i < 2 ^ b.bits := by
  have hpos := b.size_pos
  have hlt : i % (b.size : Int) < b.size := Int.emod_lt_of_pos i (by omega)
  have hnn : 0 ≤ i % (b.size : Int) := Int.emod_nonneg i (by omega)
  show (i % (b.size : Int)).toNat < b.size
  omega

/-- The element at an index. -/
def get (b : RingBuffer α) (i : Int) : Option α := b.elements.get ⟨b.slot i, b.slot_lt i⟩

/-- Replace the element at an index. -/
def put (b : RingBuffer α) (i : Int) (x : Option α) : RingBuffer α :=
  { b with elements := b.elements.set (b.slot i) x (b.slot_lt i) }

/-- A buffer without elements. -/
def empty (bits : Nat) : RingBuffer α := { bits, elements := Vector.replicate (2 ^ bits) none }

/-- The elements at `n` indices, from `lo` on. -/
def segment (b : RingBuffer α) (lo : Int) (n : Nat) : List (Option α) :=
  (List.range n).map fun (k : Nat) => b.get (lo + k)

/-- Put the elements of `src` at `n` indices from `lo` on into `dst`, one after the other. -/
def copy (src dst : RingBuffer α) (lo : Int) (n : Nat) : RingBuffer α :=
  (List.range n).foldl (fun dst (k : Nat) => dst.put (lo + k) (src.get (lo + k))) dst

/-! ### Elements -/

/-- A write keeps the number of bits. -/
@[simp] theorem bits_put (b : RingBuffer α) (i : Int) (x : Option α) : (b.put i x).bits = b.bits :=
  rfl

/-- A write keeps the size. -/
@[simp] theorem size_put (b : RingBuffer α) (i : Int) (x : Option α) : (b.put i x).size = b.size :=
  rfl

/-- An empty buffer has nothing at any index. -/
@[simp] theorem get_empty (bits : Nat) (i : Int) : (empty bits : RingBuffer α).get i = none := by
  have hi : (empty bits : RingBuffer α).slot i < 2 ^ bits := slot_lt _ i
  show (Vector.replicate (2 ^ bits) none)[(empty bits : RingBuffer α).slot i] = none
  rw [Vector.getElem_replicate]

/-- Two indices share a slot when they agree modulo the size. -/
theorem slot_eq_iff : b.slot i = b.slot j ↔ i % (b.size : Int) = j % (b.size : Int) := by
  have hpos := b.size_pos
  have hi : 0 ≤ i % (b.size : Int) := Int.emod_nonneg i (by omega)
  have hj : 0 ≤ j % (b.size : Int) := Int.emod_nonneg j (by omega)
  show (i % (b.size : Int)).toNat = (j % (b.size : Int)).toNat ↔ _
  omega

/-- Indices that agree modulo the size mean the same element. -/
theorem get_congr (h : i % (b.size : Int) = j % (b.size : Int)) : b.get i = b.get j := by
  have hslot : b.slot i = b.slot j := slot_eq_iff.mpr h
  simp only [get, hslot]

/-- Indices that agree modulo the size are the same place. -/
theorem put_congr (x : Option α) (h : i % (b.size : Int) = j % (b.size : Int)) :
    b.put i x = b.put j x := by
  have hslot : b.slot i = b.slot j := slot_eq_iff.mpr h
  simp only [put, hslot]

/-- A multiple of the size does not matter in an index. -/
theorem emod_size_of_emod {n : Nat} (hn : b.size ∣ n) (h : i % (n : Int) = j % (n : Int)) :
    i % (b.size : Int) = j % (b.size : Int) :=
  Int.ModEq.of_dvd (Int.natCast_dvd_natCast.mpr hn) h

/-- Less than one round further is another element. -/
theorem slot_add_ne (b : RingBuffer α) (lo : Int) (hpos : 0 < k) (hk : k < b.size) :
    b.slot (lo + k) ≠ b.slot lo := by
  intro heq
  have hzero : (lo + k - lo) % (b.size : Int) = 0 :=
    Int.emod_eq_emod_iff_emod_sub_eq_zero.mp (slot_eq_iff.mp heq)
  rw [show lo + k - lo = (k : Int) by omega] at hzero
  have := Int.le_of_dvd (by omega) (Int.dvd_of_emod_eq_zero hzero)
  omega

/-- What is read after a write. -/
theorem get_put (b : RingBuffer α) (i j : Int) (x : Option α) :
    (b.put i x).get j = if i % (b.size : Int) = j % (b.size : Int) then x else b.get j := by
  have hi := b.slot_lt i
  have hj := b.slot_lt j
  show (b.elements.set (b.slot i) x hi)[b.slot j] = _
  rw [Vector.getElem_set]
  simp only [slot_eq_iff]
  rfl

/-- What was written is read. -/
@[simp] theorem get_put_self (b : RingBuffer α) (i : Int) (x : Option α) :
    (b.put i x).get i = x := by
  rw [get_put, if_pos rfl]

/-- Indices less than one round apart are different elements. -/
theorem get_put_of_ne (x : Option α) (hne : i ≠ j) (hlt : i - j < b.size) (hgt : j - i < b.size) :
    (b.put i x).get j = b.get j := by
  rw [get_put, if_neg]
  intro heq
  have hdvd : (b.size : Int) ∣ i - j := Int.dvd_of_emod_eq_zero
    (Int.emod_eq_emod_iff_emod_sub_eq_zero.mp heq)
  have habs := Int.le_of_dvd (b := (i - j).natAbs) (by omega) (Int.dvd_natAbs.mpr hdvd)
  omega

/-- Putting back what is there changes nothing. -/
theorem put_get_self (b : RingBuffer α) (i : Int) : b.put i (b.get i) = b := by
  have hi := b.slot_lt i
  show { b with elements := b.elements.set (b.slot i) b.elements[b.slot i] hi } = b
  rw [Vector.set_getElem_self]

/-! ### Segments -/

/-- A segment has the length that is asked for. -/
@[simp] theorem length_segment (b : RingBuffer α) (lo : Int) (n : Nat) :
    (b.segment lo n).length = n := by
  simp [segment]

/-- The elements of a segment. -/
theorem getElem?_segment (b : RingBuffer α) (lo : Int) (h : k < n) :
    (b.segment lo n)[k]? = some (b.get (lo + k)) := by
  simp [segment, h]

/-- The elements of a segment, with a bound on the position. -/
theorem getElem_segment (b : RingBuffer α) (lo : Int) (h : k < (b.segment lo n).length) :
    (b.segment lo n)[k] = b.get (lo + k) := by
  simp [segment]

/-- The empty segment. -/
@[simp] theorem segment_zero (b : RingBuffer α) (lo : Int) : b.segment lo 0 = [] := rfl

/-- A segment with one element more at its end. -/
theorem segment_succ (b : RingBuffer α) (lo : Int) (n : Nat) :
    b.segment lo (n + 1) = b.segment lo n ++ [b.get (lo + n)] := by
  simp [segment, List.range_succ]

/-- A segment with one element more at its front. -/
theorem segment_cons (b : RingBuffer α) (lo : Int) (n : Nat) :
    b.segment lo (n + 1) = b.get lo :: b.segment (lo + 1) n := by
  simp only [segment, List.range_succ_eq_map, List.map_cons, List.map_map]
  congr 1
  · simp
  · refine List.map_congr_left fun k _ => ?_
    show b.get (lo + ((k + 1 : Nat) : Int)) = b.get (lo + 1 + k)
    congr 1
    omega

/-- A segment is the same from an index that agrees modulo the size. -/
theorem segment_congr (h : lo % (b.size : Int) = lo' % (b.size : Int)) :
    b.segment lo n = b.segment lo' n := by
  refine List.map_congr_left fun k _ => get_congr ?_
  exact Int.ModEq.add_right (k : Int) h

/-- Segments of two buffers with the same elements. -/
theorem segment_eq_of_get {c : RingBuffer α} (h : ∀ k < n, b.get (lo + k) = c.get (lo + k)) :
    b.segment lo n = c.segment lo n :=
  List.map_congr_left fun k hk => h k (List.mem_range.mp hk)

/-- A write inside a segment. -/
theorem segment_put (x : Option α) (hk : k < n) (hn : n ≤ b.size) :
    (b.put (lo + k) x).segment lo n = (b.segment lo n).set k x := by
  refine List.ext_getElem (by simp) fun m hm hm' => ?_
  have hmn : m < n := by simpa using hm
  rw [getElem_segment, List.getElem_set, getElem_segment]
  by_cases heq : k = m
  · subst heq
    rw [if_pos rfl, get_put_self]
  · rw [if_neg heq]
    exact get_put_of_ne x (by omega) (by omega) (by omega)

/-! ### Occupied elements -/

/-- The number of elements that are not empty, counted from `lo` once around. -/
def occupied (b : RingBuffer α) (lo : Int) : Nat := (b.segment lo b.size).countP Option.isSome

/-- The count depends on the start modulo the size. -/
theorem occupied_congr (h : lo % (b.size : Int) = lo' % (b.size : Int)) :
    b.occupied lo = b.occupied lo' :=
  congrArg (List.countP Option.isSome) (segment_congr h)

/-- It does not matter where the count starts. -/
theorem occupied_succ (b : RingBuffer α) (lo : Int) : b.occupied (lo + 1) = b.occupied lo := by
  obtain ⟨n, hn⟩ : ∃ n, b.size = n + 1 := ⟨b.size - 1, by have := b.size_pos; omega⟩
  have hround : b.get (lo + 1 + n) = b.get lo := by
    refine get_congr ?_
    rw [show lo + 1 + (n : Int) = lo + b.size by omega]
    exact Int.add_emod_right _ _
  show (b.segment (lo + 1) b.size).countP _ = (b.segment lo b.size).countP _
  rw [hn, segment_succ, segment_cons, hround, List.countP_append, List.countP_cons,
    List.countP_cons, List.countP_nil, Nat.zero_add]

/-- The count after one element was replaced. -/
theorem occupied_put (b : RingBuffer α) (lo : Int) (x : Option α) (hk : k < b.size) :
    (b.put (lo + k) x).occupied lo + (b.get (lo + k)).isSome.toNat =
      b.occupied lo + x.isSome.toNat := by
  have hlen : k < (b.segment lo b.size).length := by simpa using hk
  have hle : (b.get (lo + k)).isSome.toNat ≤ b.occupied lo := by
    cases hsome : (b.get (lo + k)).isSome with
    | false => exact Nat.zero_le _
    | true =>
      refine List.countP_pos_iff.mpr ⟨b.get (lo + k), ?_, hsome⟩
      exact List.mem_of_getElem? (getElem?_segment b lo hk)
  show ((b.put (lo + k) x).segment lo b.size).countP _ + _ = _
  rw [segment_put x hk (Nat.le_refl _), List.countP_set hlen, getElem_segment]
  have hset (q : Bool) : (if q = true then 1 else 0) = q.toNat := by cases q <;> rfl
  rw [hset, hset]
  show b.occupied lo - _ + _ + _ = _
  omega

/-- A buffer without occupied elements is empty. -/
theorem get_of_occupied_eq_zero (h : b.occupied lo = 0) (hk : k < b.size) :
    b.get (lo + k) = none := by
  have := List.countP_eq_zero.mp h _ (List.mem_of_getElem? (getElem?_segment b lo hk))
  simpa using this

/-- An empty buffer has no element. -/
theorem occupied_of_empty (h : ∀ i, b.get i = none) : b.occupied lo = 0 := by
  refine List.countP_eq_zero.mpr fun x hx => ?_
  obtain ⟨k, -, rfl⟩ := List.mem_map.mp hx
  rw [h]
  simp

/-! ### Copying -/

/-- Nothing is copied. -/
@[simp] theorem copy_zero (src dst : RingBuffer α) (lo : Int) : copy src dst lo 0 = dst := rfl

/-- A copy with one element more. -/
theorem copy_succ (src dst : RingBuffer α) (lo : Int) (n : Nat) :
    copy src dst lo (n + 1) = (copy src dst lo n).put (lo + n) (src.get (lo + n)) := by
  simp [copy, List.range_succ]

/-- A copy keeps the size of its target. -/
@[simp] theorem bits_copy (src dst : RingBuffer α) (lo : Int) (n : Nat) :
    (copy src dst lo n).bits = dst.bits := by
  induction n with
  | zero => rfl
  | succ n ih => rw [copy_succ, bits_put, ih]

/-- What is at an index behind `lo` after copying: the copied elements, and behind them what
was there before. -/
theorem get_copy (src dst : RingBuffer α) (lo : Int) (hn : n ≤ dst.size) (hk : k < dst.size) :
    (copy src dst lo n).get (lo + k) =
      if k < n then src.get (lo + k) else dst.get (lo + k) := by
  induction n with
  | zero => rfl
  | succ n ih =>
    have hsize : (copy src dst lo n).size = dst.size := by rw [size, bits_copy, size]
    rw [copy_succ]
    by_cases heq : k = n
    · subst heq
      rw [get_put_self, if_pos (Nat.lt_succ_self _)]
    · rw [get_put_of_ne _ (by omega) (by omega) (by omega), ih (by omega)]
      -- The element at `n` was put last, so the others are as before.
      by_cases hlt : k < n
      · rw [if_pos hlt, if_pos (by omega)]
      · rw [if_neg hlt, if_neg (by omega)]

end RingBuffer

end EChannel
