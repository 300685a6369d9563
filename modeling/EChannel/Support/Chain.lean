import Mathlib.Data.List.Perm.Basic
import Mathlib.Logic.Function.Basic
import Mathlib.Tactic.Common

/-!
# `EChannel.Support.Chain`: linked lists inside an array

An array of links holds several lists at once: `Chain next nil start l` says that the links lead
from `start` through the indices `l` to `nil`. A write to a link leaves every list alone that the
index is not on (`Chain.update`), and the usual pointer writes are `Chain.push`, `Chain.tail` and
`Chain.unlink`.

`flatMap_update_perm` is about the lists of a table: one list is changed, the others keep their
indices.
-/

set_option autoImplicit false

namespace EChannel

/-- The links lead from `start` through the indices `l` to `nil`. -/
def Chain (next : Nat → Nat) (nil : Nat) : Nat → List Nat → Prop
  | start, [] => start = nil
  | start, i :: l => start = i ∧ i ≠ nil ∧ Chain next nil (next i) l

namespace Chain

variable {next next' : Nat → Nat} {nil start i j x : Nat} {l k : List Nat}

/-- Only the links of the chain matter. -/
theorem congr (h : Chain next nil start l) (heq : ∀ i ∈ l, next' i = next i) :
    Chain next' nil start l := by
  induction l generalizing start with
  | nil => exact h
  | cons i l ih =>
    obtain ⟨hi, hne, htail⟩ := h
    refine ⟨hi, hne, ?_⟩
    rw [heq i List.mem_cons_self]
    exact ih htail fun j hj => heq j (List.mem_cons_of_mem i hj)

/-- A write to a link that is not on the list. -/
theorem update (h : Chain next nil start l) (hi : i ∉ l) :
    Chain (Function.update next i x) nil start l := by
  refine h.congr fun j hj => Function.update_of_ne ?_ x next
  rintro rfl
  exact hi hj

/-- A new first element. -/
theorem push (h : Chain next nil start l) (hi : i ∉ l) (hne : i ≠ nil) :
    Chain (Function.update next i start) nil i (i :: l) := by
  refine ⟨rfl, hne, ?_⟩
  rw [Function.update_self]
  exact h.update hi

/-- A chain without its first element. -/
theorem tail (h : Chain next nil start (i :: l)) : Chain next nil (next i) l := h.2.2

/-- A chain starts with its first element. -/
theorem start_eq_head (h : Chain next nil start (i :: l)) : start = i := h.1

/-- The link of `j` skips the element behind it. -/
theorem unlink (h : Chain next nil start (l ++ j :: i :: k)) (hnd : (l ++ j :: i :: k).Nodup) :
    Chain (Function.update next j (next i)) nil start (l ++ j :: k) := by
  induction l generalizing start with
  | nil =>
    obtain ⟨hj, hne, -, -, htail⟩ := h
    refine ⟨hj, hne, ?_⟩
    rw [Function.update_self]
    have hjk : j ∉ k := fun hmem => (List.nodup_cons.mp hnd).1 (List.mem_cons_of_mem i hmem)
    exact htail.update hjk
  | cons a l ih =>
    obtain ⟨ha, hne, htail⟩ := h
    obtain ⟨hnot, hnd⟩ := List.nodup_cons.mp hnd
    refine ⟨ha, hne, ?_⟩
    have hja : a ≠ j := by
      rintro rfl
      exact hnot (List.mem_append_right l List.mem_cons_self)
    rw [Function.update_of_ne hja]
    exact ih htail hnd

/-- One list ends where another begins. -/
theorem append {mid : Nat} (h : Chain next mid start l) (h' : Chain next nil mid k)
    (hl : ∀ i ∈ l, i ≠ nil) : Chain next nil start (l ++ k) := by
  induction l generalizing start with
  | nil =>
    obtain rfl : start = mid := h
    exact h'
  | cons i l ih =>
    obtain ⟨hi, -, htail⟩ := h
    exact ⟨hi, hl i List.mem_cons_self, ih htail fun j hj => hl j (List.mem_cons_of_mem i hj)⟩

/-- A list has the successor of each of its elements. -/
theorem mem_of_link (h : Chain next nil start l) (hj : j ∈ l) (hne : next j ≠ nil) :
    next j ∈ l := by
  induction l generalizing start with
  | nil => cases hj
  | cons a l ih =>
    obtain ⟨-, -, htail⟩ := h
    rcases List.mem_cons.mp hj with rfl | hj
    · cases l with
      | nil => exact absurd htail hne
      | cons b l =>
        rw [htail.start_eq_head]
        exact List.mem_cons_of_mem j List.mem_cons_self
    · exact List.mem_cons_of_mem a (ih htail hj)

/-- Behind any element of a list the links go on to its end. -/
theorem drop (h : Chain next nil start (l ++ i :: k)) : Chain next nil (next i) k := by
  induction l generalizing start with
  | nil => exact h.tail
  | cons a l ih => exact ih h.tail

end Chain

/-! ### Many lists -/

variable {α : Type}

/-- One of the lists is replaced. -/
theorem flatMap_update_perm {f : Nat → List α} {bs : List Nat} {b : Nat} (l : List α)
    (hb : b ∈ bs) (hnd : bs.Nodup) :
    List.Perm (bs.flatMap (Function.update f b l)) (l ++ (bs.erase b).flatMap f) := by
  refine ((List.perm_cons_erase hb).flatMap_right _).trans ?_
  rw [List.flatMap_cons, Function.update_self]
  refine List.Perm.append_left l (List.Perm.of_eq ?_)
  -- The other lists are not `b`.
  have hne (x : Nat) (hx : x ∈ bs.erase b) : Function.update f b l x = f x := by
    have hxb : x ≠ b := by
      rintro rfl
      exact hnd.not_mem_erase hx
    rw [Function.update_of_ne hxb]
  rw [List.flatMap_def, List.flatMap_def, List.map_congr_left hne]

/-- One of the lists is taken to the front. -/
theorem flatMap_perm {f : Nat → List α} {bs : List Nat} {b : Nat} (hb : b ∈ bs)
    (hnd : bs.Nodup) : List.Perm (bs.flatMap f) (f b ++ (bs.erase b).flatMap f) := by
  have h := flatMap_update_perm (f := f) (f b) hb hnd
  rwa [Function.update_eq_self] at h

end EChannel
