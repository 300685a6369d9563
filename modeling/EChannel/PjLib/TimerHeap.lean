import EChannel.Support.BinaryHeap

/-!
# `EChannel.PjLib.TimerHeap`: the timer heap of pjlib

`pj_timer_heap_t` (`pjlib/src/pj/timer.c`) has the timers of the ICE transport, and
`handleEvents` of `imppjice.cpp` polls it. The entries lie in an array that is a heap by the time
when they expire. Each has an id from 1 on, and `timer_ids` has the place of the entry with an id
in the heap. The ids that are not in use form a list, whose links are the negated values there.

`ε` is the entries, known by their address. The lock is not modelled: a callback runs while it
is released, so a round of the loop of `pj_timer_heap_poll` is a step of its own (`Op.fire`), and
other steps may come in between.
-/

set_option autoImplicit false

namespace EChannel.PjLib

open BinaryHeap

/-- `pj_time_val`: seconds, then milliseconds. -/
abbrev TimeVal := Int ×ₗ Int

/-- `pj_timer_heap_t`, and the fields `_timer_id` and `_timer_value` of every entry. -/
structure TimerHeap (ε : Type) where
  maxSize : Nat
  curSize : Nat
  heap : Nat → ε
  timerIds : Nat → Int
  timerIdsFreelist : Int
  timerId : ε → Int
  timerValue : ε → TimeVal

namespace TimerHeap

variable {ε : Type}

/-- `HEAP_LEFT`. -/
def heapLeft (i : Nat) : Nat := i + i + 1

/-- `pj_timer_heap_create`, and `pj_timer_entry_init` of every entry. What the memory of the heap
has at first is in `heap` and `timerValue`. -/
def create (size : Nat) (heap : Nat → ε) (timerValue : ε → TimeVal) : TimerHeap ε :=
  { maxSize := size + 2
    curSize := 0
    heap
    timerIds := fun i => -((i : Int) + 1)
    timerIdsFreelist := 1
    timerId := fun _ => -1
    timerValue }

/-- `pop_freelist`, the list without its first id. -/
def popFreelist (h : TimerHeap ε) : TimerHeap ε :=
  { h with timerIdsFreelist := -h.timerIds h.timerIdsFreelist.toNat }

/-- `grow_heap`. -/
def growHeap (h : TimerHeap ε) : TimerHeap ε :=
  { h with
    timerIds := fun i => if h.maxSize ≤ i then -((i : Int) + 1) else h.timerIds i
    maxSize := h.maxSize * 2 }

/-- `copy_node`. -/
def copyNode (h : TimerHeap ε) (slot : Nat) (moved : ε) : TimerHeap ε :=
  { h with
    heap := Function.update h.heap slot moved
    timerIds := Function.update h.timerIds (h.timerId moved).toNat slot }

/-- `push_freelist`. -/
def pushFreelist (h : TimerHeap ε) (oldId : Int) : TimerHeap ε :=
  { h with
    timerIds := Function.update h.timerIds oldId.toNat (-h.timerIdsFreelist)
    timerIdsFreelist := oldId }

/-- The smaller of the two children. -/
def smallerChild (h : TimerHeap ε) (child : Nat) : Nat :=
  if child + 1 < h.curSize ∧ h.timerValue (h.heap (child + 1)) < h.timerValue (h.heap child) then
    child + 1
  else child

/-- `reheap_down`. -/
def reheapDown (moved : ε) : Nat → TimerHeap ε → Nat → TimerHeap ε
  | 0, h, slot => h.copyNode slot moved
  | n + 1, h, slot =>
    if heapLeft slot < h.curSize then
      let child := h.smallerChild (heapLeft slot)
      if h.timerValue (h.heap child) < h.timerValue moved then
        reheapDown moved n (h.copyNode slot (h.heap child)) child
      else h.copyNode slot moved
    else h.copyNode slot moved

/-- `reheap_up`. -/
def reheapUp (moved : ε) : Nat → TimerHeap ε → Nat → TimerHeap ε
  | 0, h, slot => h.copyNode slot moved
  | n + 1, h, slot =>
    if 0 < slot then
      if h.timerValue moved < h.timerValue (h.heap (parent slot)) then
        reheapUp moved n (h.copyNode slot (h.heap (parent slot))) (parent slot)
      else h.copyNode slot moved
    else h.copyNode slot moved

/-- `insert_node`. -/
def insertNode (h : TimerHeap ε) (entry : ε) : TimerHeap ε :=
  let h := if h.maxSize ≤ h.curSize + 2 then h.growHeap else h
  let h := reheapUp entry h.curSize h h.curSize
  { h with curSize := h.curSize + 1 }

variable [DecidableEq ε]

/-- The beginning of `remove_node`: the entry gives its id back. -/
def takeOut (h : TimerHeap ε) (slot : Nat) : TimerHeap ε :=
  { h.pushFreelist (h.timerId (h.heap slot)) with
    curSize := h.curSize - 1
    timerId := Function.update h.timerId (h.heap slot) (-1) }

/-- `remove_node`. The last entry comes to the place of the one that goes. -/
def removeNode (h : TimerHeap ε) (slot : Nat) : TimerHeap ε :=
  let h := h.takeOut slot
  if slot < h.curSize then
    let moved := h.heap h.curSize
    let h := h.copyNode slot moved
    if h.timerValue (h.heap (parent slot)) ≤ h.timerValue moved then
      reheapDown moved h.curSize h slot
    else reheapUp moved slot h slot
  else h

/-- The entry of `schedule_entry` has an id and its time. -/
def assign (h : TimerHeap ε) (entry : ε) (future : TimeVal) : TimerHeap ε :=
  { h.popFreelist with
    timerId := Function.update h.timerId entry h.timerIdsFreelist
    timerValue := Function.update h.timerValue entry future }

/-- `schedule_entry`, for an entry that is not scheduled already. -/
def schedule (h : TimerHeap ε) (entry : ε) (future : TimeVal) : TimerHeap ε :=
  if h.timerId entry < 1 then
    if h.curSize < h.maxSize then (h.assign entry future).insertNode entry else h
  else h

/-- `cancel`. -/
def cancel (h : TimerHeap ε) (entry : ε) : TimerHeap ε :=
  let forget := { h with timerId := Function.update h.timerId entry (-1) }
  if h.timerId entry < 0 ∨ (h.maxSize : Int) < h.timerId entry then forget
  else
    let slot := h.timerIds (h.timerId entry).toNat
    if slot < 0 then forget
    else if entry ≠ h.heap slot.toNat then forget
    else h.removeNode slot.toNat

/-- The entry of a round of the loop of `pj_timer_heap_poll`. -/
def due (h : TimerHeap ε) (now : TimeVal) : Option ε :=
  if 0 < h.curSize ∧ h.timerValue (h.heap 0) ≤ now then some (h.heap 0) else none

/-- The entries that are scheduled (`pj_timer_entry_running`), with the time when they expire. -/
def timers (h : TimerHeap ε) (e : ε) : Option TimeVal :=
  if 1 ≤ h.timerId e then some (h.timerValue e) else none

/-- What happens to a heap. -/
inductive Op (ε : Type)
  | schedule (entry : ε) (future : TimeVal)
  | cancel (entry : ε)
  | fire (now : TimeVal)

def apply (h : TimerHeap ε) : Op ε → TimerHeap ε
  | .schedule entry future => h.schedule entry future
  | .cancel entry => h.cancel entry
  | .fire now => if (h.due now).isSome then h.removeNode 0 else h

def run (h : TimerHeap ε) (ops : List (Op ε)) : TimerHeap ε := ops.foldl apply h

end TimerHeap

end EChannel.PjLib
