import EChannel.LibTrans.UtpHandle

/-!
# `EChannel.LibTrans.History`: reading the history of the uTP thread

The history of `UtpHandle` is a list of events. The functions below read it: the packs that
were enqueued, finished and discarded, and the bytes that `utp_write` took. `taken sel` puts
the taken bytes together in the order of the calls, for the calls that `sel` selects by
socket and pack: those on one socket, those for one peer, those of one pack.

Each function distributes over `++`, so a step that appends events appends to its value.
-/

set_option autoImplicit false

namespace EChannel.LibTrans

open LibUtp

namespace HistEvent

/-- The pack of an `enqueue` event. -/
def enqueued? : HistEvent → Option PackInfo
  | .enqueue p => some p
  | _ => none

/-- The pack of a `finish` event. -/
def finished? : HistEvent → Option PackInfo
  | .finish p => some p
  | _ => none

/-- The pack of a `discard` event. -/
def discarded? : HistEvent → Option PackInfo
  | .discard p _ => some p
  | _ => none

/-- The pack that an event takes out of the queue. -/
def left? : HistEvent → Option PackInfo
  | .finish p => some p
  | .discard p _ => some p
  | _ => none

/-- The bytes that an event hands to libutp, if `sel` selects its socket and pack. -/
def taken (sel : SockId → PackInfo → Bool) : HistEvent → QByteArray
  | .offer s p sent => if sel s p then p.rest.take sent else []
  | _ => []

/-- The events that concern no pack. -/
def isNeutral : HistEvent → Bool
  | .enqueue _ | .offer _ _ _ | .finish _ | .discard _ _ => false
  | _ => true

end HistEvent

/-- The packs enqueued, in order. -/
def enqueued (h : List HistEvent) : List PackInfo := h.filterMap HistEvent.enqueued?

/-- The packs written to the end, in order. -/
def finished (h : List HistEvent) : List PackInfo := h.filterMap HistEvent.finished?

/-- The packs discarded, in order. -/
def discarded (h : List HistEvent) : List PackInfo := h.filterMap HistEvent.discarded?

/-- The packs that left the queue, in order. -/
def left (h : List HistEvent) : List PackInfo := h.filterMap HistEvent.left?

/-- The bytes taken by the selected `utp_write` calls, in the order of the calls. -/
def taken (sel : SockId → PackInfo → Bool) (h : List HistEvent) : QByteArray :=
  h.flatMap (HistEvent.taken sel)

/-- The bytes taken on the socket `s`. -/
def takenOn (s : SockId) (h : List HistEvent) : QByteArray := taken (fun s' _ => s' = s) h

/-- The bytes taken for the peer `a`. -/
def takenFor (a : QString) (h : List HistEvent) : QByteArray :=
  taken (fun _ p => p.peerAddr = a) h

/-- The bytes taken of the pack with the ticket `t`. -/
def takenOf (t : Nat) (h : List HistEvent) : QByteArray := taken (fun _ p => p.ticket = t) h

section Append
variable (h h' : List HistEvent) (sel : SockId → PackInfo → Bool)

/-- The packs of two histories in a row are those of the first, then those of the second. -/
@[simp] theorem enqueued_append : enqueued (h ++ h') = enqueued h ++ enqueued h' := by
  simp [enqueued]

/-- `finished` reads a history from front to back. -/
@[simp] theorem finished_append : finished (h ++ h') = finished h ++ finished h' := by
  simp [finished]

/-- `discarded` reads a history from front to back. -/
@[simp] theorem discarded_append : discarded (h ++ h') = discarded h ++ discarded h' := by
  simp [discarded]

/-- `left` reads a history from front to back. -/
@[simp] theorem left_append : left (h ++ h') = left h ++ left h' := by
  simp [left]

/-- What libutp took in two histories in a row is what it took in the first, then in the
second. -/
@[simp] theorem taken_append : taken sel (h ++ h') = taken sel h ++ taken sel h' := by
  simp [taken]

/-- The case of `taken_append` for an address. -/
@[simp] theorem takenFor_append (a : QString) :
    takenFor a (h ++ h') = takenFor a h ++ takenFor a h' := taken_append h h' _

/-- The case of `taken_append` for a ticket. -/
@[simp] theorem takenOf_append (t : Nat) :
    takenOf t (h ++ h') = takenOf t h ++ takenOf t h' := taken_append h h' _

end Append

/-- Neutral events say nothing about packs. -/
theorem neutral_history {es : List HistEvent} (h : ∀ e ∈ es, e.isNeutral = true) :
    enqueued es = [] ∧ finished es = [] ∧ discarded es = [] ∧ left es = [] ∧
      ∀ sel, taken sel es = [] := by
  refine ⟨?_, ?_, ?_, ?_, fun sel => ?_⟩
  · refine List.filterMap_eq_nil_iff.mpr fun e he => ?_
    have := h e he
    cases e <;> first | rfl | cases this
  · refine List.filterMap_eq_nil_iff.mpr fun e he => ?_
    have := h e he
    cases e <;> first | rfl | cases this
  · refine List.filterMap_eq_nil_iff.mpr fun e he => ?_
    have := h e he
    cases e <;> first | rfl | cases this
  · refine List.filterMap_eq_nil_iff.mpr fun e he => ?_
    have := h e he
    cases e <;> first | rfl | cases this
  · refine List.flatMap_eq_nil_iff.mpr fun e he => ?_
    have := h e he
    cases e <;> first | rfl | cases this

/-- Selecting by two conditions that agree on the recorded calls gives the same bytes. -/
theorem taken_congr {sel sel' : SockId → PackInfo → Bool} {h : List HistEvent}
    (hsel : ∀ s p n, HistEvent.offer s p n ∈ h → sel s p = sel' s p) :
    taken sel h = taken sel' h := by
  refine List.flatMap_congr fun e he => ?_
  cases e with
  | offer s p n => simp only [HistEvent.taken, hsel s p n he]
  | _ => rfl

/-- No call is selected, so no byte is taken. -/
theorem taken_eq_nil {sel : SockId → PackInfo → Bool} {h : List HistEvent}
    (hsel : ∀ s p n, HistEvent.offer s p n ∈ h → sel s p = false) : taken sel h = [] := by
  refine List.flatMap_eq_nil_iff.mpr fun e he => ?_
  cases e with
  | offer s p n => simp [HistEvent.taken, hsel s p n he]
  | _ => rfl

end EChannel.LibTrans
