import Mathlib

/-!
# `EChannel.Support.BinaryHeap`: a heap in an array

The first `n` entries of an array are a heap when no entry is less than its parent. While an entry
moves to its place the order may fail at one index: below it (`DownOk`) or above it (`UpOk`). An
exchange with a child or the parent moves that index on.
-/

set_option autoImplicit false

namespace EChannel.BinaryHeap

variable {α β : Type}

/-- The index of the parent. The root is its own. -/
def parent (i : Nat) : Nat := (i - 1) / 2

/-- The indices `i` and `j` change places. -/
def swapAt (i j k : Nat) : Nat := if k = j then i else if k = i then j else k

/-- An exchange stays inside the heap. -/
theorem swapAt_lt {n i j k : Nat} (hi : i < n) (hj : j < n) (hk : k < n) : swapAt i j k < n := by
  unfold swapAt
  split
  · exact hi
  · split
    · exact hj
    · exact hk

/-- An exchange undoes itself. -/
theorem swapAt_swapAt (i j k : Nat) : swapAt i j (swapAt i j k) = k := by
  unfold swapAt
  grind

/-- Two entries change places. -/
def exchange (f : Nat → β) (i j : Nat) (k : Nat) : β := f (swapAt i j k)

/-- An exchange keeps what the array has. -/
theorem exists_exchange {f : Nat → β} {n i j : Nat} (hi : i < n) (hj : j < n) (e : β) :
    (∃ k < n, exchange f i j k = e) ↔ ∃ k < n, f k = e := by
  constructor
  · rintro ⟨k, hk, heq⟩
    exact ⟨swapAt i j k, swapAt_lt hi hj hk, heq⟩
  · rintro ⟨k, hk, heq⟩
    refine ⟨swapAt i j k, swapAt_lt hi hj hk, ?_⟩
    unfold exchange
    rw [swapAt_swapAt]
    exact heq

variable [LinearOrder α]

/-- No entry is less than its parent. -/
def Ordered (n : Nat) (g : Nat → α) : Prop := ∀ i, 0 < i → i < n → g (parent i) ≤ g i

/-- The entry at `slot` may be larger than its children. -/
structure DownOk (n : Nat) (g : Nat → α) (slot : Nat) : Prop where
  rest : ∀ i, 0 < i → i < n → parent i ≠ slot → g (parent i) ≤ g i
  below : 0 < slot → ∀ i, 0 < i → i < n → parent i = slot → g (parent slot) ≤ g i

/-- The entry at `slot` may be less than its parent. -/
structure UpOk (n : Nat) (g : Nat → α) (slot : Nat) : Prop where
  rest : ∀ i, 0 < i → i < n → i ≠ slot → g (parent i) ≤ g i
  below : 0 < slot → ∀ i, 0 < i → i < n → parent i = slot → g (parent slot) ≤ g i

variable {n slot c : Nat} {g : Nat → α}

/-- The root is the least. -/
theorem Ordered.root_le (h : Ordered n g) (i : Nat) (hi : i < n) : g 0 ≤ g i := by
  induction i using Nat.strongRecOn with
  | ind i ih =>
    rcases Nat.eq_zero_or_pos i with rfl | hpos
    · exact le_refl _
    · have hlt : parent i < i := by
        unfold parent
        omega
      exact (ih (parent i) hlt (by omega)).trans (h i hpos hi)

/-- An entry that is not above its children has its place. -/
theorem DownOk.ordered (h : DownOk n g slot)
    (hle : ∀ i, 0 < i → i < n → parent i = slot → g slot ≤ g i) : Ordered n g := by
  intro i hpos hi
  by_cases hp : parent i = slot
  · rw [hp]
    exact hle i hpos hi hp
  · exact h.rest i hpos hi hp

/-- The entry changes places with the lesser child. -/
theorem DownOk.exchange (h : DownOk n g slot) (hc : 0 < c) (hcn : c < n) (hp : parent c = slot)
    (hlt : g c < g slot) (hmin : ∀ i, 0 < i → i < n → parent i = slot → g c ≤ g i) :
    DownOk n (exchange g slot c) c := by
  have hcs : c ≠ slot := by
    unfold parent at hp
    omega
  constructor
  case rest =>
    intro i hpos hi hpi
    have hrest := h.rest i hpos hi
    have hbelow := h.below
    have hmin' := hmin i hpos hi
    unfold BinaryHeap.exchange swapAt
    rw [if_neg hpi]
    by_cases hps : parent i = slot
    · rw [if_pos hps]
      by_cases hic : i = c
      · rw [if_pos hic]
        exact hlt.le
      · rw [if_neg hic, if_neg]
        · exact hmin' hps
        · intro his
          unfold parent at hps hp
          omega
    · have hic : i ≠ c := by
        rintro rfl
        exact hps hp
      rw [if_neg hps, if_neg hic]
      by_cases his : i = slot
      · rw [if_pos his]
        subst his
        exact h.below hpos c hc hcn hp
      · rw [if_neg his]
        exact hrest hps
  case below =>
    intro _ i hpos hi hpi
    have hrest := h.rest i hpos hi (by rw [hpi]; exact hcs)
    unfold BinaryHeap.exchange swapAt
    rw [hp, if_neg hcs.symm, if_pos rfl, if_neg, if_neg]
    · rw [hpi] at hrest
      exact hrest
    · intro his
      unfold parent at hp hpi
      omega
    · intro hic
      unfold parent at hpi
      omega

/-- An entry that is not below its parent has its place. -/
theorem UpOk.ordered (h : UpOk n g slot) (hle : slot = 0 ∨ g (parent slot) ≤ g slot) :
    Ordered n g := by
  intro i hpos hi
  by_cases his : i = slot
  · subst his
    rcases hle with rfl | hle
    · cases hpos
    · exact hle
  · exact h.rest i hpos hi his

/-- The entry changes places with its parent. -/
theorem UpOk.exchange (h : UpOk n g slot) (hpos : 0 < slot) (hslot : slot < n)
    (hlt : g slot < g (parent slot)) :
    UpOk n (exchange g slot (parent slot)) (parent slot) := by
  have hps : parent slot ≠ slot := by
    unfold parent
    omega
  constructor
  case rest =>
    intro i hipos hi hip
    have hrest := h.rest i hipos hi
    have hbelow := h.below hpos i hipos hi
    unfold BinaryHeap.exchange swapAt
    rw [if_neg hip]
    by_cases his : i = slot
    · subst his
      rw [if_pos rfl, if_pos rfl]
      exact hlt.le
    · rw [if_neg his]
      by_cases h1 : parent i = parent slot
      · rw [if_pos h1]
        exact hlt.le.trans (h1 ▸ hrest his)
      · rw [if_neg h1]
        by_cases h2 : parent i = slot
        · rw [if_pos h2]
          exact hbelow h2
        · rw [if_neg h2]
          exact hrest his
  case below =>
    intro hppos i hipos hi hip
    have hup := h.rest (parent slot) hppos (by unfold parent; omega) hps
    have hrest := h.rest i hipos hi
    have h1 : parent (parent slot) ≠ parent slot := by
      unfold parent at hppos ⊢
      omega
    have h2 : parent (parent slot) ≠ slot := by
      unfold parent
      omega
    have h3 : i ≠ parent slot := by
      rintro rfl
      exact h1 hip
    unfold BinaryHeap.exchange swapAt
    rw [if_neg h1, if_neg h2, if_neg h3]
    by_cases his : i = slot
    · rw [if_pos his]
      exact hup
    · rw [if_neg his]
      exact hup.trans (hip ▸ hrest his)

end EChannel.BinaryHeap
