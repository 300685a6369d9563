import Mathlib.Tactic.Common

/-!
# `EChannel.Support.Trace`: the order of events in a growing record

A record is a list of events to which events are appended. `RecordedBefore h e t` says that
`e` stands at an index below `t`, `Precedes h e e'` that an occurrence of `e` stands before
one of `e'`. Both survive when the record grows. The lemmas `of_append` go back: an order that
holds in the longer record held before, unless the new events made it.
-/

set_option autoImplicit false

namespace EChannel

variable {ε : Type} {h es : List ε} {e e' x : ε} {t : Nat}

/-- The event is recorded at an index below `t`. -/
def RecordedBefore (h : List ε) (e : ε) (t : Nat) : Prop := ∃ k < t, h[k]? = some e

/-- An occurrence of `e` stands before an occurrence of `e'`. -/
def Precedes (h : List ε) (e e' : ε) : Prop :=
  ∃ i j : Nat, i < j ∧ h[i]? = some e ∧ h[j]? = some e'

/-- An index of the old record keeps its event. -/
theorem getElem?_append_some {k : Nat} (hk : h[k]? = some e) : (h ++ es)[k]? = some e := by
  rw [List.getElem?_append_left (List.getElem?_eq_some_iff.mp hk).1]
  exact hk

/-- What was recorded early stays recorded early. -/
theorem RecordedBefore.append (hr : RecordedBefore h e t) : RecordedBefore (h ++ es) e t := by
  obtain ⟨k, hlt, hk⟩ := hr
  exact ⟨k, hlt, getElem?_append_some hk⟩

/-- Everything recorded is recorded before the next event. -/
theorem recordedBefore_length (he : e ∈ h) : RecordedBefore h e h.length := by
  obtain ⟨k, hlt, hk⟩ := List.mem_iff_getElem.mp he
  exact ⟨k, hlt, by rw [List.getElem?_eq_getElem hlt, hk]⟩

/-- What was recorded early is recorded. -/
theorem RecordedBefore.mem (hr : RecordedBefore h e t) : e ∈ h := by
  obtain ⟨k, -, hk⟩ := hr
  exact List.mem_of_getElem? hk

/-- What was recorded early was recorded before the events that are appended. -/
theorem RecordedBefore.of_append (hr : RecordedBefore (h ++ es) e t) (ht : t ≤ h.length) :
    RecordedBefore h e t := by
  obtain ⟨k, hlt, hk⟩ := hr
  rw [List.getElem?_append_left (by omega)] at hk
  exact ⟨k, hlt, hk⟩

/-- An event before the index of another one precedes it. -/
theorem RecordedBefore.precedes (hr : RecordedBefore h e t) (ht : h[t]? = some e') :
    Precedes h e e' := by
  obtain ⟨k, hlt, hk⟩ := hr
  exact ⟨k, t, hlt, hk, ht⟩

/-- The earlier event is recorded. -/
theorem Precedes.mem_left (hp : Precedes h e e') : e ∈ h := by
  obtain ⟨i, j, -, hi, -⟩ := hp
  exact List.mem_of_getElem? hi

/-- The later event is recorded. -/
theorem Precedes.mem_right (hp : Precedes h e e') : e' ∈ h := by
  obtain ⟨i, j, -, -, hj⟩ := hp
  exact List.mem_of_getElem? hj

/-- The order is old when its second event is. -/
theorem Precedes.of_append (hp : Precedes (h ++ es) e e') (hne : e' ∉ es) :
    Precedes h e e' := by
  obtain ⟨i, j, hlt, hi, hj⟩ := hp
  have hj' : j < h.length := by
    by_contra hge
    rw [List.getElem?_append_right (by omega)] at hj
    exact hne (List.mem_of_getElem? hj)
  rw [List.getElem?_append_left hj'] at hj
  rw [List.getElem?_append_left (by omega)] at hi
  exact ⟨i, j, hlt, hi, hj⟩

/-- The first event of an order is old, unless the new events hold the whole order. -/
theorem Precedes.left_mem (hp : Precedes (h ++ x :: es) e e') (he : e ∉ es)
    (hx : e = x → e' ∉ es) : e ∈ h := by
  obtain ⟨i, j, hlt, hi, hj⟩ := hp
  by_cases hil : i < h.length
  · rw [List.getElem?_append_left hil] at hi
    exact List.mem_of_getElem? hi
  · rw [List.getElem?_append_right (by omega)] at hi hj
    obtain ⟨k, hk⟩ : ∃ k, j - h.length = k + 1 := ⟨j - h.length - 1, by omega⟩
    rw [hk, List.getElem?_cons_succ] at hj
    cases hi' : i - h.length with
    | zero =>
      rw [hi', List.getElem?_cons_zero] at hi
      exact absurd (List.mem_of_getElem? hj) (hx (Option.some.inj hi).symm)
    | succ m =>
      rw [hi', List.getElem?_cons_succ] at hi
      exact absurd (List.mem_of_getElem? hi) he

end EChannel
