import EChannel.PjLib.TimerHeap
import EChannel.Support.Chain

/-!
# `EChannel.Proofs.PjLib.Timers`: the timers that are scheduled

`Rep h m fl` says that the heap has the timers of the map `m`, ordered by time, that `timer_ids`
knows their places, and that the ids `fl` are free. Each operation keeps it, so a poll always fires
a timer that expires first, and a cancelled timer is gone.

While an entry moves through the heap there is a hole at its index: `Hole` is about the array with
the entry in the hole.
-/

set_option autoImplicit false

namespace EChannel.PjLib

open BinaryHeap

namespace TimerHeap

variable {ε : Type} {h h' : TimerHeap ε} {n slot c : Nat} {x : ε} {f : Nat → ε}

/-! ### Moving an entry -/

/-- The array has a hole at `slot`, and is `f` with `x` there. -/
structure Hole (h : TimerHeap ε) (n slot : Nat) (x : ε) (f : Nat → ε) : Prop where
  slot_lt : slot < n
  full : f = Function.update h.heap slot x
  ids : ∀ i < n, i ≠ slot → h.timerIds (h.timerId (f i)).toNat = i
  apart : ∀ i < n, ∀ j < n, (h.timerId (f i)).toNat = (h.timerId (f j)).toNat → i = j

/-- The entries of `f` are a heap now, and `timer_ids` has their places. -/
structure Placed (h h' : TimerHeap ε) (n : Nat) (f : Nat → ε) : Prop where
  fields : h' = { h with heap := h'.heap, timerIds := h'.timerIds }
  ids : ∀ i < n, h'.timerIds (h.timerId (h'.heap i)).toNat = i
  members : ∀ e, (∃ i < n, h'.heap i = e) ↔ ∃ i < n, f i = e
  ordered : Ordered n fun i => h.timerValue (h'.heap i)
  frame : ∀ k, (∀ i < n, (h.timerId (f i)).toNat ≠ k) → h'.timerIds k = h.timerIds k

namespace Hole

/-- Outside the hole the heap is what it stands for. -/
theorem heap_eq (hole : Hole h n slot x f) (hne : c ≠ slot) : h.heap c = f c := by
  rw [hole.full, Function.update_of_ne hne]

/-- The entry that is to be placed stands for the hole. -/
theorem at_slot (hole : Hole h n slot x f) : f slot = x := by
  rw [hole.full, Function.update_self]

/-- The hole moves to an entry that goes to its place. -/
theorem move (hole : Hole h n slot x f) (hc : c < n) (hne : c ≠ slot) :
    Hole (h.copyNode slot (h.heap c)) n c x (exchange f slot c) := by
  have hx := hole.at_slot
  have hslot := hole.slot_lt
  rw [hole.heap_eq hne]
  constructor
  case slot_lt => exact hc
  case full =>
    funext k
    show f (if k = c then slot else if k = slot then c else k) =
      Function.update (Function.update h.heap slot (f c)) c x k
    rw [Function.update_apply, Function.update_apply]
    split
    · exact hx
    · split
      · rfl
      · rename_i hks
        exact (hole.heap_eq hks).symm
  case ids =>
    intro i hi hic
    show Function.update h.timerIds (h.timerId (f c)).toNat (slot : Int)
      (h.timerId (f (if i = c then slot else if i = slot then c else i))).toNat = i
    rw [if_neg hic]
    split
    · rename_i his
      rw [his, Function.update_self]
    · rename_i his
      rw [Function.update_of_ne]
      · exact hole.ids i hi his
      · exact fun heq => hic (hole.apart i hi c hc heq)
  case apart =>
    intro i hi j hj heq
    have hsame := hole.apart _ (swapAt_lt hslot hc hi) _ (swapAt_lt hslot hc hj) heq
    rw [← swapAt_swapAt slot c i, hsame, swapAt_swapAt]

/-- The entry stays in the hole. -/
theorem place (hole : Hole h n slot x f) (hord : Ordered n fun i => h.timerValue (f i)) :
    Placed h (h.copyNode slot x) n f := by
  have hheap : (h.copyNode slot x).heap = f := hole.full.symm
  constructor
  case fields => rfl
  case ids =>
    intro i hi
    rw [hheap]
    show Function.update h.timerIds (h.timerId x).toNat (slot : Int) (h.timerId (f i)).toNat = i
    by_cases his : i = slot
    · rw [his, hole.at_slot, Function.update_self]
    · rw [Function.update_of_ne]
      · exact hole.ids i hi his
      · intro heq
        rw [← hole.at_slot] at heq
        exact his (hole.apart i hi slot hole.slot_lt heq)
  case members => exact fun e => by rw [hheap]
  case ordered =>
    rw [hheap]
    exact hord
  case frame =>
    intro k hk
    have hne := hk slot hole.slot_lt
    rw [hole.at_slot] at hne
    exact Function.update_of_ne hne.symm _ _

/-- `x` may be there already. -/
theorem copy (hole : Hole h n slot x f) : Hole (h.copyNode slot x) n slot x f := by
  have hx := hole.at_slot
  refine ⟨hole.slot_lt, ?_, fun i hi his => ?_, hole.apart⟩
  · show f = Function.update (Function.update h.heap slot x) slot x
    rw [Function.update_idem]
    exact hole.full
  · show Function.update h.timerIds (h.timerId x).toNat (slot : Int) (h.timerId (f i)).toNat = i
    rw [Function.update_of_ne]
    · exact hole.ids i hi his
    · intro heq
      rw [← hx] at heq
      exact his (hole.apart i hi slot hole.slot_lt heq)

/-- What is placed behind a copy into the hole is placed. -/
theorem placed_of_copy (hole : Hole h n slot x f) (hp : Placed (h.copyNode slot x) h' n f) :
    Placed h h' n f := by
  refine ⟨hp.fields, hp.ids, hp.members, hp.ordered, fun k hk => (hp.frame k hk).trans ?_⟩
  have hne := hk slot hole.slot_lt
  rw [hole.at_slot] at hne
  exact Function.update_of_ne hne.symm _ _

/-- What was placed after a move is placed. -/
theorem placed_of_move (hole : Hole h n slot x f) (hc : c < n) (hne : c ≠ slot)
    (hp : Placed (h.copyNode slot (h.heap c)) h' n (exchange f slot c)) : Placed h h' n f := by
  have hmembers := fun e => (hp.members e).trans (exists_exchange hole.slot_lt hc e)
  refine ⟨hp.fields, hp.ids, hmembers, hp.ordered, fun k hk => ?_⟩
  rw [hp.frame k]
  · show Function.update h.timerIds (h.timerId (h.heap c)).toNat (slot : Int) k = h.timerIds k
    rw [hole.heap_eq hne]
    exact Function.update_of_ne (hk c hc).symm _ _
  · intro i hi
    obtain ⟨j, hj, heq⟩ := (exists_exchange hole.slot_lt hc (exchange f slot c i)).mp ⟨i, hi, rfl⟩
    rw [← heq]
    exact hk j hj

end Hole

/-- The child that `reheap_down` looks at. -/
theorem smallerChild_spec (h : TimerHeap ε) (hc : heapLeft slot < h.curSize) :
    ∃ c, h.smallerChild (heapLeft slot) = c ∧ 0 < c ∧ c < h.curSize ∧ parent c = slot ∧
      ∀ i, 0 < i → i < h.curSize → parent i = slot →
        h.timerValue (h.heap c) ≤ h.timerValue (h.heap i) := by
  have hchild (i : Nat) (hpos : 0 < i) (hp : parent i = slot) :
      i = heapLeft slot ∨ i = heapLeft slot + 1 := by
    unfold parent at hp
    unfold heapLeft
    omega
  have hp1 : parent (heapLeft slot) = slot := by
    unfold parent heapLeft
    omega
  have hp2 : parent (heapLeft slot + 1) = slot := by
    unfold parent heapLeft
    omega
  have hpos : 0 < heapLeft slot := Nat.succ_pos _
  refine ⟨_, rfl, ?_⟩
  unfold smallerChild
  split
  · rename_i hcond
    refine ⟨Nat.succ_pos _, hcond.1, hp2, fun i hi hin hpi => ?_⟩
    rcases hchild i hi hpi with rfl | rfl
    · exact hcond.2.le
    · exact le_refl _
  · rename_i hcond
    refine ⟨hpos, hc, hp1, fun i hi hin hpi => ?_⟩
    rcases hchild i hi hpi with rfl | rfl
    · exact le_refl _
    · exact le_of_not_gt fun hlt => hcond ⟨hin, hlt⟩

/-- `reheap_down` places the entry. The induction is on the fuel, and the hole moves down. -/
theorem reheapDown_placed (fuel : Nat) (hole : Hole h n slot x f) (hn : h.curSize = n)
    (hdown : DownOk n (fun i => h.timerValue (f i)) slot) (hfuel : n ≤ fuel + slot) :
    Placed h (reheapDown x fuel h slot) n f := by
  induction fuel generalizing h slot f with
  | zero =>
    have := hole.slot_lt
    omega
  | succ fuel ih =>
    unfold reheapDown
    split
    · rename_i hleft
      obtain ⟨c, hc, hpos, hcn, hp, hmin⟩ := smallerChild_spec h hleft
      rw [hn] at hcn hmin
      have hne : c ≠ slot := by
        unfold parent at hp
        omega
      have hmin' (i : Nat) (hi : 0 < i) (hin : i < n) (hpi : parent i = slot) :
          h.timerValue (f c) ≤ h.timerValue (f i) := by
        have his : i ≠ slot := by
          unfold parent at hpi
          omega
        rw [← hole.heap_eq hne, ← hole.heap_eq his]
        exact hmin i hi hin hpi
      dsimp only
      rw [hc]
      split
      · rename_i hlt
        rw [hole.heap_eq hne, ← hole.at_slot] at hlt
        refine hole.placed_of_move hcn hne (ih (hole.move hcn hne) hn ?_ ?_)
        · exact hdown.exchange hpos hcn hp hlt hmin'
        · unfold parent at hp
          omega
      · rename_i hle
        rw [hole.heap_eq hne, ← hole.at_slot] at hle
        refine hole.place (hdown.ordered fun i hi hin hpi => ?_)
        exact (le_of_not_gt hle).trans (hmin' i hi hin hpi)
    · rename_i hleft
      refine hole.place (hdown.ordered fun i hi hin hpi => ?_)
      unfold heapLeft at hleft
      unfold parent at hpi
      omega

/-- `reheap_up` places the entry. The induction is on the fuel, and the hole moves up. -/
theorem reheapUp_placed (fuel : Nat) (hole : Hole h n slot x f)
    (hup : UpOk n (fun i => h.timerValue (f i)) slot) (hfuel : slot ≤ fuel) :
    Placed h (reheapUp x fuel h slot) n f := by
  induction fuel generalizing h slot f with
  | zero => exact hole.place (hup.ordered (Or.inl (Nat.le_zero.mp hfuel)))
  | succ fuel ih =>
    unfold reheapUp
    split
    · rename_i hpos
      have hlt : parent slot < slot := by
        unfold parent
        omega
      have hpn : parent slot < n := hlt.trans hole.slot_lt
      split
      · rename_i hless
        rw [hole.heap_eq hlt.ne, ← hole.at_slot] at hless
        exact hole.placed_of_move hpn hlt.ne
          (ih (hole.move hpn hlt.ne) (hup.exchange hpos hole.slot_lt hless) (by omega))
      · rename_i hge
        rw [hole.heap_eq hlt.ne, ← hole.at_slot] at hge
        exact hole.place (hup.ordered (Or.inr (le_of_not_gt hge)))
    · rename_i hzero
      exact hole.place (hup.ordered (Or.inl (Nat.eq_zero_of_not_pos hzero)))

/-! ### The timers -/

/-- The timers of `m` are the entries of `f`, and the ids of `fl` are free. -/
structure Base (h : TimerHeap ε) (n : Nat) (f : Nat → ε) (m : ε → Option TimeVal)
    (fl : List Nat) : Prop where
  used : ∀ i < n, 0 < h.timerId (f i) ∧ h.timerId (f i) < h.maxSize
  member : ∀ e t, m e = some t ↔ (∃ i < n, f i = e) ∧ h.timerValue e = t
  idle : ∀ e, m e = none → h.timerId e = -1
  free : Chain (fun k => (-h.timerIds k).toNat) h.maxSize h.timerIdsFreelist.toNat fl
  freeIds : ∀ k ∈ fl, 0 < k ∧ k < h.maxSize ∧ ∀ i < n, (h.timerId (f i)).toNat ≠ k
  nodup : fl.Nodup
  freeCount : fl.length + n + 1 = h.maxSize

/-- What holds of a heap between two calls. -/
structure Rep (h : TimerHeap ε) (m : ε → Option TimeVal) (fl : List Nat) : Prop where
  base : Base h h.curSize h.heap m fl
  room : h.curSize + 2 ≤ h.maxSize
  ids : ∀ i < h.curSize, h.timerIds (h.timerId (h.heap i)).toNat = i
  ordered : Ordered h.curSize fun i => h.timerValue (h.heap i)

variable {m : ε → Option TimeVal} {fl : List Nat} {e : ε} {t now : TimeVal}

/-- A heap in which every entry is placed stands for its timers. -/
theorem Placed.rep (hp : Placed h h' n f) (hb : Base h n f m fl) (hroom : n + 2 ≤ h.maxSize) :
    Rep { h' with curSize := n } m fl := by
  rw [hp.fields]
  refine ⟨⟨?_, fun e t => ?_, hb.idle, ?_, fun k hk => ?_, hb.nodup, hb.freeCount⟩, hroom, hp.ids,
    hp.ordered⟩
  · intro i hi
    obtain ⟨j, hj, heq⟩ := (hp.members (h'.heap i)).mp ⟨i, hi, rfl⟩
    have hused := hb.used j hj
    rw [heq] at hused
    exact hused
  · rw [hb.member]
    exact and_congr_left fun _ => (hp.members e).symm
  · refine hb.free.congr fun k hk => ?_
    show (-h'.timerIds k).toNat = (-h.timerIds k).toNat
    rw [hp.frame k (hb.freeIds k hk).2.2]
  · obtain ⟨h1, h2, h3⟩ := hb.freeIds k hk
    refine ⟨h1, h2, fun i hi => ?_⟩
    obtain ⟨j, hj, heq⟩ := (hp.members (h'.heap i)).mp ⟨i, hi, rfl⟩
    have hne := h3 j hj
    rw [heq] at hne
    exact hne

namespace Rep

/-- No two places of the heap have one timer id. -/
theorem apart (hr : Rep h m fl) {i j : Nat} (hi : i < h.curSize) (hj : j < h.curSize)
    (heq : (h.timerId (h.heap i)).toNat = (h.timerId (h.heap j)).toNat) : i = j := by
  have h1 := hr.ids i hi
  rw [heq, hr.ids j hj] at h1
  exact Int.natCast_inj.mp h1.symm

/-- No entry is in two places of the heap. -/
theorem heap_inj (hr : Rep h m fl) {i j : Nat} (hi : i < h.curSize) (hj : j < h.curSize)
    (heq : h.heap i = h.heap j) : i = j := hr.apart hi hj (by rw [heq])

/-- The timers that the entries say run are those of the heap. -/
theorem timers_eq (hr : Rep h m fl) : h.timers = m := by
  funext e
  unfold timers
  cases hm : m e with
  | none =>
    rw [hr.base.idle e hm]
    rfl
  | some t =>
    obtain ⟨⟨i, hi, rfl⟩, ht⟩ := (hr.base.member e t).mp hm
    have hrunning : 1 ≤ h.timerId (h.heap i) := (hr.base.used i hi).1
    rw [if_pos hrunning, ht]

/-- The entry at the root expires first. -/
theorem due_some (hr : Rep h m fl) (hdue : h.due now = some e) :
    0 < h.curSize ∧ h.heap 0 = e ∧ ∃ t, m e = some t ∧ t ≤ now ∧
      ∀ e' t', m e' = some t' → t ≤ t' := by
  unfold due at hdue
  split at hdue
  · rename_i hcond
    obtain ⟨hpos, hle⟩ := hcond
    obtain rfl : h.heap 0 = e := Option.some.inj hdue
    refine ⟨hpos, rfl, _, (hr.base.member _ _).mpr ⟨⟨0, hpos, rfl⟩, rfl⟩, hle, ?_⟩
    intro e' t' hm'
    obtain ⟨⟨i, hi, rfl⟩, rfl⟩ := (hr.base.member e' t').mp hm'
    exact hr.ordered.root_le i hi
  · cases hdue

/-- When nothing is due, every timer runs out later. -/
theorem due_none (hr : Rep h m fl) (hdue : h.due now = none) (hm : m e = some t) : now < t := by
  unfold due at hdue
  split at hdue
  · cases hdue
  · rename_i hcond
    obtain ⟨⟨i, hi, rfl⟩, rfl⟩ := (hr.base.member e t).mp hm
    refine lt_of_not_ge fun hle => hcond ⟨Nat.lt_of_le_of_lt (Nat.zero_le i) hi, ?_⟩
    exact (hr.ordered.root_le i hi).trans hle

/-- The entries of the heap are those with a timer. -/
theorem mem_heap_iff (hr : Rep h m fl) (e : ε) :
    (∃ i < h.curSize, h.heap i = e) ↔ (m e).isSome = true := by
  rw [Option.isSome_iff_exists]
  constructor
  · exact fun hmem => ⟨_, (hr.base.member e _).mpr ⟨hmem, rfl⟩⟩
  · rintro ⟨t, ht⟩
    exact ((hr.base.member e t).mp ht).1

end Rep

/-! ### Operations -/

/-- A new heap has no timer, and all ids are free. -/
theorem create_rep (size : Nat) (heap : Nat → ε) (timerValue : ε → TimeVal) :
    Rep (create size heap timerValue) (fun _ => none) (List.range' 1 (size + 1)) := by
  have hchain (k n : Nat) : Chain (fun i => (- -((i : Int) + 1)).toNat) (k + n) k
      (List.range' k n) := by
    induction n generalizing k with
    | zero => rfl
    | succ n ih =>
      refine ⟨rfl, by omega, ?_⟩
      have hnext : (- -((k : Int) + 1)).toNat = k + 1 := by omega
      have hrest := ih (k + 1)
      rw [show k + 1 + n = k + (n + 1) by omega] at hrest
      dsimp only
      rw [hnext]
      exact hrest
  have hnone {P : Prop} {i : Nat} (hi : i < (create size heap timerValue).curSize) : P :=
    absurd hi (Nat.not_lt_zero i)
  refine ⟨⟨fun _ hi => hnone hi, fun e t => ?_, fun _ _ => rfl, ?_, fun k hk => ?_,
    List.nodup_range', ?_⟩, ?_, fun _ hi => hnone hi, fun _ _ hi => hnone hi⟩
  · refine iff_of_false (by simp) ?_
    rintro ⟨⟨i, hi, -⟩, -⟩
    exact hnone hi
  · have := hchain 1 (size + 1)
    rw [show 1 + (size + 1) = size + 2 by omega] at this
    exact this
  · rw [List.mem_range'_1] at hk
    exact ⟨by omega, by show k < size + 2; omega, fun _ hi => hnone hi⟩
  · rw [List.length_range']
    show size + 1 + 0 + 1 = size + 2
    omega
  · show 0 + 2 ≤ size + 2
    omega

/-- The id of an entry that goes comes to the free ones. -/
theorem Rep.pushFreelist (hr : Rep h m fl) {slot : Nat} (hs : slot < h.curSize) :
    Chain (fun k => (-(h.pushFreelist (h.timerId (h.heap slot))).timerIds k).toNat) h.maxSize
      (h.timerId (h.heap slot)).toNat ((h.timerId (h.heap slot)).toNat :: fl) := by
  obtain ⟨hpos, hlt⟩ := hr.base.used slot hs
  have hnext : (fun k => (-(h.pushFreelist (h.timerId (h.heap slot))).timerIds k).toNat) =
      Function.update (fun k => (-h.timerIds k).toNat) (h.timerId (h.heap slot)).toNat
        h.timerIdsFreelist.toNat := by
    funext k
    show (-Function.update h.timerIds (h.timerId (h.heap slot)).toNat (-h.timerIdsFreelist) k).toNat
      = _
    rw [Function.update_apply, Function.update_apply]
    split
    · rw [Int.neg_neg]
    · rfl
  rw [hnext]
  refine hr.base.free.push (fun hmem => ?_) (by omega)
  exact (hr.base.freeIds _ hmem).2.2 slot hs rfl

/-! ### Removal -/

/-- Where the entry at `i` was before the last one, at `n`, came to `slot`. -/
def cameFrom (slot n i : Nat) : Nat := if i = slot then n else i

/-- The hole is filled with the last entry. -/
theorem cameFrom_self : cameFrom slot n slot = n := if_pos rfl

/-- The other places keep their entries. -/
theorem cameFrom_of_ne {i : Nat} (hi : i ≠ slot) : cameFrom slot n i = i := if_neg hi

/-- Each place is filled with an entry that stays. -/
theorem cameFrom_spec {i : Nat} (hi : i < n) :
    cameFrom slot n i < n + 1 ∧ cameFrom slot n i ≠ slot := by
  unfold cameFrom
  split <;> omega

namespace Rep

/-- What was above `slot` is not later than what was below it. -/
theorem below (hr : Rep h m fl) (hn : h.curSize = n + 1) (hs : slot < n + 1) (hpos : 0 < slot)
    (i : Nat) (hi : 0 < i) (hin : i < n) (hp : parent i = slot) :
    h.timerValue (h.heap (cameFrom slot n (parent slot))) ≤
      h.timerValue (h.heap (cameFrom slot n i)) := by
  have hps : parent slot ≠ slot := by
    unfold parent
    omega
  have his : i ≠ slot := by
    unfold parent at hp
    omega
  have h1 := hr.ordered slot hpos (hn ▸ hs)
  have h2 := hr.ordered i hi (by omega)
  rw [hp] at h2
  rw [cameFrom_of_ne hps, cameFrom_of_ne his]
  exact h1.trans h2

/-- The last entry may have to move down from the hole. -/
theorem downOk (hr : Rep h m fl) (hn : h.curSize = n + 1) (hs : slot < n + 1)
    (hge : 0 < slot → h.timerValue (h.heap (parent slot)) ≤ h.timerValue (h.heap n)) :
    DownOk n (fun i => h.timerValue (h.heap (cameFrom slot n i))) slot := by
  refine ⟨fun i hi hin hp => ?_, hr.below hn hs⟩
  rw [cameFrom_of_ne hp]
  by_cases his : i = slot
  · subst his
    rw [cameFrom_self]
    exact hge hi
  · rw [cameFrom_of_ne his]
    exact hr.ordered i hi (by omega)

/-- The last entry may have to move up from the hole. -/
theorem upOk (hr : Rep h m fl) (hn : h.curSize = n + 1) (hs : slot < n + 1) (hpos : 0 < slot)
    (hle : h.timerValue (h.heap n) ≤ h.timerValue (h.heap (parent slot))) :
    UpOk n (fun i => h.timerValue (h.heap (cameFrom slot n i))) slot := by
  refine ⟨fun i hi hin his => ?_, hr.below hn hs⟩
  have h1 := hr.ordered i hi (by omega)
  rw [cameFrom_of_ne his]
  by_cases hp : parent i = slot
  · rw [hp, cameFrom_self]
    rw [hp] at h1
    exact (hle.trans (hr.ordered slot hpos (by omega))).trans h1
  · rw [cameFrom_of_ne hp]
    exact h1

variable [DecidableEq ε]

/-- The entries that stay keep their ids. -/
theorem takeOut_timerId (hr : Rep h m fl) (hn : h.curSize = n + 1) (hs : slot < n + 1) {i : Nat}
    (hi : i < n) : (h.takeOut slot).timerId (h.heap (cameFrom slot n i)) =
      h.timerId (h.heap (cameFrom slot n i)) := by
  obtain ⟨hlt, hne⟩ := cameFrom_spec hi
  exact Function.update_of_ne (fun heq => hne (hr.heap_inj (by omega) (by omega) heq)) _ _

/-- The entry at `slot` is no timer any more, and its id is free. -/
theorem takeOut_base (hr : Rep h m fl) (hn : h.curSize = n + 1) (hs : slot < n + 1) :
    Base (h.takeOut slot) n (fun i => h.heap (cameFrom slot n i))
      (fun e => if e = h.heap slot then none else m e)
      ((h.timerId (h.heap slot)).toNat :: fl) := by
  have hsc : slot < h.curSize := by omega
  obtain ⟨hpos, hlt⟩ := hr.base.used slot hsc
  have hfrom {i : Nat} (hi : i < n) :
      cameFrom slot n i < h.curSize ∧ cameFrom slot n i ≠ slot := by
    rw [hn]
    exact cameFrom_spec hi
  constructor
  case used =>
    intro i hi
    rw [hr.takeOut_timerId hn hs hi]
    exact hr.base.used _ (hfrom hi).1
  case member =>
    intro e t
    split
    · rename_i he
      refine iff_of_false (by simp) ?_
      rintro ⟨⟨i, hi, heq⟩, -⟩
      exact (hfrom hi).2 (hr.heap_inj (hfrom hi).1 hsc (heq.trans he))
    · rename_i he
      rw [hr.base.member]
      refine and_congr_left fun _ => ?_
      constructor
      · rintro ⟨i, hi, rfl⟩
        have his : i ≠ slot := fun his => he (by rw [his])
        by_cases hin : i = n
        · refine ⟨slot, by omega, ?_⟩
          rw [cameFrom_self, hin]
        · refine ⟨i, by omega, ?_⟩
          rw [cameFrom_of_ne his]
      · rintro ⟨i, hi, rfl⟩
        exact ⟨_, (hfrom hi).1, rfl⟩
  case idle =>
    intro e he
    show Function.update h.timerId (h.heap slot) (-1) e = -1
    rw [Function.update_apply]
    split at he
    · rename_i heq
      rw [if_pos heq]
    · rename_i heq
      rw [if_neg heq]
      exact hr.base.idle e he
  case free => exact hr.pushFreelist hsc
  case freeIds =>
    intro k hk
    rcases List.mem_cons.mp hk with rfl | hk
    · refine ⟨by omega, by show _ < h.maxSize; omega, fun i hi heq => ?_⟩
      rw [hr.takeOut_timerId hn hs hi] at heq
      exact (hfrom hi).2 (hr.apart (hfrom hi).1 hsc heq)
    · obtain ⟨h1, h2, h3⟩ := hr.base.freeIds k hk
      refine ⟨h1, h2, fun i hi => ?_⟩
      rw [hr.takeOut_timerId hn hs hi]
      exact h3 _ (hfrom hi).1
  case nodup =>
    refine List.nodup_cons.mpr ⟨fun hmem => ?_, hr.base.nodup⟩
    exact (hr.base.freeIds _ hmem).2.2 slot hsc rfl
  case freeCount =>
    have := hr.base.freeCount
    show (fl.length + 1) + n + 1 = h.maxSize
    omega

/-- The other entries are at their places. -/
theorem takeOut_ids (hr : Rep h m fl) (hn : h.curSize = n + 1) (hs : slot < n + 1) {i : Nat}
    (hi : i < n) (his : i ≠ slot) : (h.takeOut slot).timerIds
      ((h.takeOut slot).timerId (h.heap (cameFrom slot n i))).toNat = i := by
  rw [hr.takeOut_timerId hn hs hi, cameFrom_of_ne his]
  show Function.update h.timerIds (h.timerId (h.heap slot)).toNat (-h.timerIdsFreelist)
    (h.timerId (h.heap i)).toNat = i
  rw [Function.update_of_ne (fun heq => his (hr.apart (by omega) (by omega) heq))]
  exact hr.ids i (by omega)

/-- There is a hole for the last entry. -/
theorem takeOut_hole (hr : Rep h m fl) (hn : h.curSize = n + 1) (hs : slot < n) :
    Hole (h.takeOut slot) n slot (h.heap n) (fun i => h.heap (cameFrom slot n i)) := by
  have hs' := Nat.lt_succ_of_lt hs
  refine ⟨hs, ?_, fun i hi his => hr.takeOut_ids hn hs' hi his, fun i hi j hj heq => ?_⟩
  · funext k
    show h.heap (if k = slot then n else k) = Function.update h.heap slot (h.heap n) k
    rw [Function.update_apply]
    split <;> rfl
  · rw [hr.takeOut_timerId hn hs' hi, hr.takeOut_timerId hn hs' hj] at heq
    have hij := hr.apart (hn ▸ (cameFrom_spec hi).1) (hn ▸ (cameFrom_spec hj).1) heq
    unfold cameFrom at hij
    split at hij <;> split at hij <;> omega

/-- The last entry goes. Nothing has to move. -/
theorem takeOut_last (hr : Rep h m fl) (hn : h.curSize = n + 1) :
    Placed (h.takeOut n) (h.takeOut n) n fun i => h.heap (cameFrom n n i) := by
  have hplain {i : Nat} (hi : i < n) : cameFrom n n i = i := cameFrom_of_ne (by omega)
  refine ⟨rfl, fun i hi => ?_, fun e => ?_, fun i hi hin => ?_, fun _ _ => rfl⟩
  · have hid := hr.takeOut_ids hn (Nat.lt_succ_self n) hi (by omega)
    rw [hplain hi] at hid
    exact hid
  · refine exists_congr fun i => and_congr_right fun hi => ?_
    show h.heap i = e ↔ h.heap (cameFrom n n i) = e
    rw [hplain hi]
  · exact hr.ordered i hi (by omega)

/-- `remove_node`. -/
theorem removeNode (hr : Rep h m fl) (hs : slot < h.curSize) :
    Rep (h.removeNode slot) (fun e => if e = h.heap slot then none else m e)
      ((h.timerId (h.heap slot)).toNat :: fl) := by
  have hroom := hr.room
  obtain ⟨n, hn⟩ : ∃ n, h.curSize = n + 1 := ⟨h.curSize - 1, by omega⟩
  have hs' : slot < n + 1 := hn ▸ hs
  have hcur : (h.takeOut slot).curSize = n := by
    show h.curSize - 1 = n
    omega
  -- Whatever moves, the heap is as it should be when the entries are placed.
  have hend {h' : TimerHeap ε} (hp : Placed (h.takeOut slot) h' n
      fun i => h.heap (cameFrom slot n i)) : Rep h'
      (fun e => if e = h.heap slot then none else m e)
      ((h.timerId (h.heap slot)).toNat :: fl) := by
    have hcur' : h'.curSize = n := by
      rw [hp.fields]
      exact hcur
    have hrep := hp.rep (hr.takeOut_base hn hs') (by show n + 2 ≤ h.maxSize; omega)
    rw [← hcur'] at hrep
    exact hrep
  unfold TimerHeap.removeNode
  dsimp only
  rw [hcur]
  split
  · rename_i hsn
    have hole := hr.takeOut_hole hn hsn
    have hparent (hpos : 0 < slot) :
        ((h.takeOut slot).copyNode slot (h.heap n)).heap (parent slot) = h.heap (parent slot) := by
      refine Function.update_of_ne ?_ _ _
      unfold parent
      omega
    split
    · rename_i hge
      refine hend (hole.placed_of_copy (reheapDown_placed _ hole.copy hcur
        (hr.downOk hn hs' fun hpos => ?_) ?_))
      · change h.timerValue (((h.takeOut slot).copyNode slot (h.heap n)).heap (parent slot)) ≤
          h.timerValue (h.heap n) at hge
        rw [hparent hpos] at hge
        exact hge
      · show n ≤ (h.takeOut slot).curSize + slot
        omega
    · rename_i hlt
      change ¬ h.timerValue (((h.takeOut slot).copyNode slot (h.heap n)).heap (parent slot)) ≤
        h.timerValue (h.heap n) at hlt
      have hpos : 0 < slot := by
        rcases Nat.eq_zero_or_pos slot with rfl | hpos
        · refine absurd (le_of_eq (congrArg h.timerValue ?_)) hlt
          exact Function.update_self 0 (h.heap n) h.heap
        · exact hpos
      rw [hparent hpos] at hlt
      exact hend (hole.placed_of_copy (reheapUp_placed _ hole.copy
        (hr.upOk hn hs' hpos (le_of_not_ge hlt)) (Nat.le_refl _)))
  · rename_i hsn
    obtain rfl : slot = n := by omega
    exact hend (hr.takeOut_last hn)

end Rep

/-! ### Scheduling -/

/-- The new ids come to the end of the free ones. -/
theorem Base.growHeap (hb : Base h n f m fl) :
    Base h.growHeap n f m (fl ++ List.range' h.maxSize h.maxSize) := by
  have hcount := hb.freeCount
  have hold {k : Nat} (hk : k < h.maxSize) : h.growHeap.timerIds k = h.timerIds k :=
    if_neg (Nat.not_le.mpr hk)
  have hnew (k j : Nat) (hk : h.maxSize ≤ k) :
      Chain (fun i => (-h.growHeap.timerIds i).toNat) (k + j) k (List.range' k j) := by
    induction j generalizing k with
    | zero => rfl
    | succ j ih =>
      refine ⟨rfl, by omega, ?_⟩
      have hnext : (-h.growHeap.timerIds k).toNat = k + 1 := by
        rw [show h.growHeap.timerIds k = -((k : Int) + 1) from if_pos hk]
        omega
      have hrest := ih (k + 1) (by omega)
      rw [show k + 1 + j = k + (j + 1) by omega] at hrest
      dsimp only
      rw [hnext]
      exact hrest
  constructor
  case used =>
    intro i hi
    obtain ⟨h1, h2⟩ := hb.used i hi
    refine ⟨h1, ?_⟩
    show h.timerId (f i) < ((h.maxSize * 2 : Nat) : Int)
    omega
  case member => exact hb.member
  case idle => exact hb.idle
  case free =>
    have hend := hnew h.maxSize h.maxSize (Nat.le_refl _)
    rw [show h.maxSize + h.maxSize = h.maxSize * 2 by omega] at hend
    refine (hb.free.congr fun k hk => ?_).append hend fun k hk => ?_
    · show (-h.growHeap.timerIds k).toNat = (-h.timerIds k).toNat
      rw [hold (hb.freeIds k hk).2.1]
    · have := (hb.freeIds k hk).2.1
      show k ≠ h.maxSize * 2
      omega
  case freeIds =>
    intro k hk
    rcases List.mem_append.mp hk with hk | hk
    · obtain ⟨h1, h2, h3⟩ := hb.freeIds k hk
      exact ⟨h1, by show k < h.maxSize * 2; omega, h3⟩
    · rw [List.mem_range'_1] at hk
      refine ⟨by omega, by show k < h.maxSize * 2; omega, fun i hi heq => ?_⟩
      obtain ⟨h1, h2⟩ := hb.used i hi
      change (h.timerId (f i)).toNat = k at heq
      omega
  case nodup =>
    refine List.nodup_append.mpr ⟨hb.nodup, List.nodup_range', fun k hk k' hk' => ?_⟩
    have h1 := (hb.freeIds k hk).2.1
    have h2 := (List.mem_range'_1.mp hk').1
    omega
  case freeCount =>
    rw [List.length_append, List.length_range']
    show fl.length + h.maxSize + n + 1 = h.maxSize * 2
    omega

namespace Rep

variable {k : Nat}

/-- An entry that does not run is not in the heap. -/
theorem heap_ne (hr : Rep h m fl) (hm : m e = none) {i : Nat} (hi : i < h.curSize) :
    h.heap i ≠ e := by
  rintro rfl
  have hsome := (hr.base.member (h.heap i) (h.timerValue (h.heap i))).mpr ⟨⟨i, hi, rfl⟩, rfl⟩
  rw [hm] at hsome
  cases hsome

/-- The entries with `e` behind them. -/
theorem update_of_lt {i : Nat} (hi : i < h.curSize) :
    Function.update h.heap h.curSize e i = h.heap i := Function.update_of_ne (by omega) _ _

/-- The new entry comes to the end of the heap. -/
theorem update_self : Function.update h.heap h.curSize e h.curSize = e :=
  Function.update_self _ _ _

/-- The next id is the first one that is free. -/
theorem freelist_eq (hr : Rep h m (k :: fl)) : h.timerIdsFreelist = k := by
  have h1 := hr.base.free.start_eq_head
  have h2 := (hr.base.freeIds k List.mem_cons_self).1
  omega

variable [DecidableEq ε]

/-- The other entries keep their ids and their times. -/
theorem assign_old (hr : Rep h m fl) (hm : m e = none) (t : TimeVal) {i : Nat}
    (hi : i < h.curSize) :
    (h.assign e t).timerId (Function.update h.heap h.curSize e i) = h.timerId (h.heap i) ∧
      (h.assign e t).timerValue (Function.update h.heap h.curSize e i) =
        h.timerValue (h.heap i) := by
  rw [update_of_lt hi]
  exact ⟨Function.update_of_ne (hr.heap_ne hm hi) _ _, Function.update_of_ne (hr.heap_ne hm hi) _ _⟩

/-- The new entry has the id that was free. -/
theorem assign_new (hr : Rep h m (k :: fl)) (t : TimeVal) :
    (h.assign e t).timerId (Function.update h.heap h.curSize e h.curSize) = k := by
  rw [update_self]
  exact (Function.update_self _ _ _).trans hr.freelist_eq

/-- The entry is a timer, and its id is not free any more. -/
theorem assign_base (hr : Rep h m (k :: fl)) (hm : m e = none) (t : TimeVal) :
    Base (h.assign e t) (h.curSize + 1) (Function.update h.heap h.curSize e)
      (fun e' => if e' = e then some t else m e') fl := by
  have hcount := hr.base.freeCount
  obtain ⟨hk0, hkmax, hkused⟩ := hr.base.freeIds k List.mem_cons_self
  constructor
  case used =>
    intro i hi
    rcases Nat.lt_succ_iff_lt_or_eq.mp hi with hi | rfl
    · rw [(hr.assign_old hm t hi).1]
      exact hr.base.used i hi
    · rw [hr.assign_new]
      exact ⟨by omega, by show (k : Int) < h.maxSize; omega⟩
  case member =>
    intro e' t'
    by_cases he : e' = e
    · subst he
      rw [if_pos rfl]
      show some t = some t' ↔ _ ∧ Function.update h.timerValue e' t e' = t'
      rw [Function.update_self, Option.some.injEq]
      exact (and_iff_right ⟨h.curSize, Nat.lt_succ_self _, update_self⟩).symm
    · rw [if_neg he, hr.base.member]
      show _ ↔ _ ∧ Function.update h.timerValue e t e' = t'
      rw [Function.update_of_ne he]
      refine and_congr_left fun _ => ?_
      constructor
      · rintro ⟨i, hi, rfl⟩
        exact ⟨i, Nat.lt_succ_of_lt hi, update_of_lt hi⟩
      · rintro ⟨i, hi, rfl⟩
        rcases Nat.lt_succ_iff_lt_or_eq.mp hi with hi | rfl
        · exact ⟨i, hi, (update_of_lt hi).symm⟩
        · exact absurd update_self he
  case idle =>
    intro e' he
    split at he
    · cases he
    · rename_i hne
      show Function.update h.timerId e h.timerIdsFreelist e' = -1
      rw [Function.update_of_ne hne]
      exact hr.base.idle e' he
  case free =>
    show Chain _ h.maxSize (-h.timerIds h.timerIdsFreelist.toNat).toNat fl
    rw [hr.freelist_eq, Int.toNat_natCast]
    exact hr.base.free.tail
  case freeIds =>
    intro k' hk'
    obtain ⟨h2, h3, h4⟩ := hr.base.freeIds k' (List.mem_cons_of_mem k hk')
    refine ⟨h2, h3, fun i hi => ?_⟩
    rcases Nat.lt_succ_iff_lt_or_eq.mp hi with hi | rfl
    · rw [(hr.assign_old hm t hi).1]
      exact h4 i hi
    · rw [hr.assign_new, Int.toNat_natCast]
      rintro rfl
      exact (List.nodup_cons.mp hr.base.nodup).1 hk'
  case nodup => exact (List.nodup_cons.mp hr.base.nodup).2
  case freeCount =>
    rw [List.length_cons] at hcount
    show fl.length + (h.curSize + 1) + 1 = h.maxSize
    omega

/-- With the new entry there are still no two places with one id. -/
theorem assign_apart (hr : Rep h m (k :: fl)) (hm : m e = none) (t : TimeVal) :
    ∀ i < h.curSize + 1, ∀ j < h.curSize + 1,
      ((h.assign e t).timerId (Function.update h.heap h.curSize e i)).toNat =
        ((h.assign e t).timerId (Function.update h.heap h.curSize e j)).toNat → i = j := by
  obtain ⟨-, -, hkused⟩ := hr.base.freeIds k List.mem_cons_self
  intro i hi j hj heq
  rcases Nat.lt_succ_iff_lt_or_eq.mp hi with hi | rfl <;>
    rcases Nat.lt_succ_iff_lt_or_eq.mp hj with hj | rfl
  · rw [(hr.assign_old hm t hi).1, (hr.assign_old hm t hj).1] at heq
    exact hr.apart hi hj heq
  · rw [(hr.assign_old hm t hi).1, hr.assign_new, Int.toNat_natCast] at heq
    exact absurd heq (hkused i hi)
  · rw [(hr.assign_old hm t hj).1, hr.assign_new, Int.toNat_natCast] at heq
    exact absurd heq.symm (hkused j hj)
  · rfl

/-- The new entry may have to move up. -/
theorem assign_upOk (hr : Rep h m fl) (hm : m e = none) (t : TimeVal) :
    UpOk (h.curSize + 1)
      (fun i => (h.assign e t).timerValue (Function.update h.heap h.curSize e i)) h.curSize := by
  refine ⟨fun i hi hin hne => ?_, fun _ i hi hin hp => ?_⟩
  · have hlt : parent i < h.curSize := by
      unfold parent
      omega
    rw [(hr.assign_old hm t (show i < h.curSize by omega)).2, (hr.assign_old hm t hlt).2]
    exact hr.ordered i hi (by omega)
  · unfold parent at hp
    omega

/-- The entry goes to its place, after the tables may have grown. -/
theorem insert (hr : Rep h m (k :: fl)) (hm : m e = none) {t : TimeVal} {fl' : List Nat}
    (hb : Base h' (h.curSize + 1) (Function.update h.heap h.curSize e)
      (fun e' => if e' = e then some t else m e') fl')
    (hid : h'.timerId = (h.assign e t).timerId) (hheap : h'.heap = h.heap)
    (hvalue : h'.timerValue = (h.assign e t).timerValue) (hcur : h'.curSize = h.curSize)
    (hids : ∀ i < h.curSize, h'.timerIds (h.timerId (h.heap i)).toNat = i)
    (hroom : h.curSize + 3 ≤ h'.maxSize) :
    Rep { reheapUp e h'.curSize h' h'.curSize with
      curSize := (reheapUp e h'.curSize h' h'.curSize).curSize + 1 }
      (fun e' => if e' = e then some t else m e') fl' := by
  have hole : Hole h' (h.curSize + 1) h.curSize e (Function.update h.heap h.curSize e) := by
    refine ⟨Nat.lt_succ_self _, by rw [hheap], fun i hi hic => ?_, ?_⟩
    · have hi' : i < h.curSize := by omega
      rw [hid, (hr.assign_old hm t hi').1]
      exact hids i hi'
    · rw [hid]
      exact hr.assign_apart hm t
  have hup := hr.assign_upOk hm t
  rw [← hvalue] at hup
  have hp := reheapUp_placed h.curSize hole hup (Nat.le_refl _)
  have hcur' : (reheapUp e h.curSize h' h.curSize).curSize = h.curSize := by
    rw [hp.fields]
    exact hcur
  rw [hcur, hcur']
  exact hp.rep hb hroom

/-- `schedule_entry` of an entry that is not scheduled. There is always a free id. -/
theorem schedule (hr : Rep h m fl) (hm : m e = none) (t : TimeVal) :
    ∃ fl', Rep (h.schedule e t) (fun e' => if e' = e then some t else m e') fl' := by
  have hcount := hr.base.freeCount
  have hroom := hr.room
  have hidle := hr.base.idle e hm
  cases fl with
  | nil =>
    rw [List.length_nil] at hcount
    omega
  | cons k fl =>
    have hbase := hr.assign_base hm t
    unfold TimerHeap.schedule
    rw [if_pos (by rw [hidle]; decide), if_pos (by omega)]
    unfold insertNode
    by_cases hfull : (h.assign e t).maxSize ≤ (h.assign e t).curSize + 2
    · rw [if_pos hfull]
      refine ⟨_, hr.insert hm hbase.growHeap rfl rfl rfl rfl (fun i hi => ?_) ?_⟩
      · have hlt := (hr.base.used i hi).2
        have hold : ¬ (h.assign e t).maxSize ≤ (h.timerId (h.heap i)).toNat := by
          show ¬ h.maxSize ≤ _
          omega
        exact (if_neg hold).trans (hr.ids i hi)
      · show h.curSize + 3 ≤ h.maxSize * 2
        omega
    · rw [if_neg hfull]
      refine ⟨_, hr.insert hm hbase rfl rfl rfl rfl hr.ids ?_⟩
      change ¬ h.maxSize ≤ h.curSize + 2 at hfull
      show h.curSize + 3 ≤ h.maxSize
      omega

end Rep

/-! ### Whole runs -/

variable [DecidableEq ε]

/-- `cancel`. -/
theorem Rep.cancel (hr : Rep h m fl) (e : ε) :
    ∃ fl', Rep (h.cancel e) (fun e' => if e' = e then none else m e') fl' := by
  unfold TimerHeap.cancel
  cases hm : m e with
  | none =>
    have hidle := hr.base.idle e hm
    have hsame : (fun e' => if e' = e then none else m e') = m := by
      funext e'
      split
      · rename_i heq
        rw [heq, hm]
      · rfl
    rw [if_pos (Or.inl (by rw [hidle]; decide)), hsame, ← hidle, Function.update_eq_self]
    exact ⟨fl, hr⟩
  | some t =>
    obtain ⟨⟨i, hi, rfl⟩, -⟩ := (hr.base.member e t).mp hm
    obtain ⟨hpos, hlt⟩ := hr.base.used i hi
    have hin : ¬ (h.timerId (h.heap i) < 0 ∨ (h.maxSize : Int) < h.timerId (h.heap i)) := by omega
    rw [if_neg hin, hr.ids i hi]
    dsimp only
    rw [if_neg (by omega), Int.toNat_natCast, if_neg (not_not.mpr rfl)]
    exact ⟨_, hr.removeNode hi⟩

/-- The step lemma: an operation leaves a heap that stands for its timers. -/
theorem apply_rep (hr : Rep h m fl) (op : Op ε) : ∃ m' fl', Rep (h.apply op) m' fl' := by
  cases op with
  | schedule e t =>
    cases hm : m e with
    | none =>
      obtain ⟨fl', hr'⟩ := hr.schedule hm t
      exact ⟨_, fl', hr'⟩
    | some t' =>
      obtain ⟨⟨i, hi, rfl⟩, -⟩ := (hr.base.member e t').mp hm
      have hpos := (hr.base.used i hi).1
      have heq : h.apply (.schedule (h.heap i) t) = h := if_neg (by omega)
      rw [heq]
      exact ⟨m, fl, hr⟩
  | cancel e =>
    obtain ⟨fl', hr'⟩ := hr.cancel e
    exact ⟨_, fl', hr'⟩
  | fire now =>
    show ∃ m' fl', Rep (if (h.due now).isSome then h.removeNode 0 else h) m' fl'
    split
    · rename_i hsome
      obtain ⟨e, hdue⟩ := Option.isSome_iff_exists.mp hsome
      exact ⟨_, _, hr.removeNode (hr.due_some hdue).1⟩
    · exact ⟨m, fl, hr⟩

/-- The run lemma, by induction on the operations. -/
theorem run_rep (ops : List (Op ε)) {h : TimerHeap ε} {m : ε → Option TimeVal} {fl : List Nat}
    (hr : Rep h m fl) : ∃ m' fl', Rep (h.run ops) m' fl' := by
  induction ops generalizing h m fl with
  | nil => exact ⟨m, fl, hr⟩
  | cons op ops ih =>
    obtain ⟨m1, fl1, hr1⟩ := apply_rep hr op
    exact ih hr1

section

variable (size : Nat) (heap : Nat → ε) (timerValue : ε → TimeVal) (ops : List (Op ε))

/-- The heap holds the timers that are running, each at one place. `pj_timer_heap_schedule` adds
its timer unless it is running, and `pj_timer_heap_cancel` takes it away. No other timer
changes. -/
theorem run_timers (e e' : ε) (t : TimeVal) :
    let h := (create size heap timerValue).run ops
    ((∃ i < h.curSize, h.heap i = e) ↔ (h.timers e).isSome = true) ∧
      (∀ i < h.curSize, ∀ j < h.curSize, h.heap i = h.heap j → i = j) ∧
      (h.schedule e t).timers e' =
        (if e' = e ∧ (h.timers e).isNone then some t else h.timers e') ∧
      (h.cancel e).timers e' = if e' = e then none else h.timers e' := by
  intro h
  obtain ⟨m, fl, hr⟩ := run_rep ops (create_rep size heap timerValue)
  change Rep h m fl at hr
  have htimers := hr.timers_eq
  refine ⟨?_, fun i hi j hj => hr.heap_inj hi hj, ?_, ?_⟩
  · rw [htimers]
    exact hr.mem_heap_iff e
  · cases hm : m e with
    | none =>
      obtain ⟨fl', hr'⟩ := hr.schedule hm t
      rw [hr'.timers_eq, htimers, hm]
      show (if e' = e then some t else m e') = _
      by_cases he : e' = e
      · rw [if_pos he, if_pos ⟨he, rfl⟩]
      · rw [if_neg he, if_neg fun hno => he hno.1]
    | some t' =>
      obtain ⟨⟨i, hi, rfl⟩, -⟩ := (hr.base.member e t').mp hm
      have hpos := (hr.base.used i hi).1
      have heq : h.schedule (h.heap i) t = h := if_neg (by omega)
      rw [heq, htimers, hm, if_neg (by simp)]
  · obtain ⟨fl', hr'⟩ := hr.cancel e
    rw [hr'.timers_eq, htimers]

/-- A round of `pj_timer_heap_poll` fires a timer that expires first, and only that one. It does
so whenever a timer is due. -/
theorem run_due (now : TimeVal) :
    let h := (create size heap timerValue).run ops
    (∀ e, h.due now = some e → (∃ t, h.timers e = some t ∧ t ≤ now ∧
        ∀ e' t', h.timers e' = some t' → t ≤ t') ∧
        ∀ e', (h.removeNode 0).timers e' = if e' = e then none else h.timers e') ∧
      (h.due now = none → ∀ e t, h.timers e = some t → now < t) := by
  intro h
  obtain ⟨m, fl, hr⟩ := run_rep ops (create_rep size heap timerValue)
  change Rep h m fl at hr
  have htimers := hr.timers_eq
  rw [htimers]
  refine ⟨fun e hdue => ?_, fun hdue e t hm => hr.due_none hdue hm⟩
  obtain ⟨hpos, rfl, hfirst⟩ := hr.due_some hdue
  refine ⟨hfirst, fun e' => ?_⟩
  rw [(hr.removeNode hpos).timers_eq]

end

end TimerHeap

end EChannel.PjLib
