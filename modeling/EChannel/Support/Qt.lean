import EChannel.Support.Run
import Mathlib.Data.List.AList

/-!
# `EChannel.Support.Qt`: the Qt containers

`QString` and `QByteArray` are lists. `QHash` is Mathlib's association list with distinct
keys; `contains`, `operator[]`, `insert` and `remove` are `AList.lookup`, `AList.insert` and
`AList.erase`.

Qt leaves the iteration order of a `QHash` open, and `QHash::key(value)` returns the first
key in that order. `QHash.key` takes the order of the entries here. `key_eq_of_unique` is
the case where the order does not matter: the value is stored under one key only.

A map of that kind often holds the objects of a table under their names. `QHash.Files` says
so, and insertion, removal and the change of an object keep it.
-/

set_option autoImplicit false

namespace EChannel

/-- A `QByteArray`, or the bytes of a `std::string`. -/
abbrev QByteArray := List UInt8

/-- A `QString`. -/
abbrev QString := List Char

/-- A `QHash<K, V>`. -/
abbrev QHash (K V : Type) := AList (fun _ : K => V)

namespace QHash

variable {K V : Type} [DecidableEq K]

section Key
variable [DecidableEq V]

/-- `QHash::key(value, defaultKey)`: the first key that maps to `v`, `d` when there is
none. -/
def key (h : QHash K V) (v : V) (d : K) : K :=
  match h.entries.find? (fun e => decide (e.2 = v)) with
  | some e => e.1
  | none => d

/-- `key` answers with a key of the value, or with the default when the value is not
stored. -/
theorem key_spec (h : QHash K V) (v : V) (d : K) :
    h.lookup (h.key v d) = some v ∨ (h.key v d = d ∧ ∀ k, h.lookup k ≠ some v) := by
  unfold key
  cases hf : h.entries.find? (fun e => decide (e.2 = v)) with
  | some e =>
    left
    have hval : e.2 = v := by simpa using List.find?_some hf
    have hmem : e ∈ h.entries := List.mem_of_find?_eq_some hf
    subst hval
    exact AList.mem_lookup_iff.mpr hmem
  | none =>
    right
    refine ⟨rfl, fun k hk => ?_⟩
    have hmem : (⟨k, v⟩ : (_ : K) × V) ∈ h.entries := AList.mem_lookup_iff.mp hk
    have := List.find?_eq_none.mp hf _ hmem
    simp at this

/-- A value stored under one key only is found under that key. -/
theorem key_eq_of_unique {h : QHash K V} {v : V} {k : K} (d : K) (hk : h.lookup k = some v)
    (huniq : ∀ k', h.lookup k' = some v → k' = k) : h.key v d = k := by
  rcases h.key_spec v d with hkey | ⟨-, hnone⟩
  · exact huniq _ hkey
  · exact absurd hk (hnone k)

end Key

/-- Lookup after an insertion, as one equation. -/
theorem lookup_insert_eq (h : QHash K V) (k k' : K) (v : V) :
    (h.insert k v).lookup k' = if k' = k then some v else h.lookup k' := by
  split
  · rename_i hk
    subst hk
    exact AList.lookup_insert h
  · rename_i hk
    exact AList.lookup_insert_ne hk

/-- What an insertion leaves is the new entry, or was there before. -/
theorem lookup_of_insert {h : QHash K V} {k k' : K} {v v' : V}
    (hl : (h.insert k v).lookup k' = some v') :
    k' = k ∧ v' = v ∨ k' ≠ k ∧ h.lookup k' = some v' := by
  rw [lookup_insert_eq] at hl
  split at hl
  · rename_i hk
    exact Or.inl ⟨hk, (Option.some.inj hl).symm⟩
  · rename_i hk
    exact Or.inr ⟨hk, hl⟩

/-- Lookup after a removal, as one equation. -/
theorem lookup_erase_eq (h : QHash K V) (k k' : K) :
    (h.erase k).lookup k' = if k' = k then none else h.lookup k' := by
  split
  · rename_i hk
    subst hk
    exact AList.lookup_erase k' h
  · rename_i hk
    exact AList.lookup_erase_ne hk

/-- What a removal leaves was there before. -/
theorem lookup_of_erase {h : QHash K V} {k k' : K} {v : V}
    (hl : (h.erase k).lookup k' = some v) : h.lookup k' = some v := by
  rw [lookup_erase_eq] at hl
  split at hl
  · cases hl
  · exact hl

/-- The key of a removal is not there any more. -/
theorem ne_of_lookup_erase {h : QHash K V} {k k' : K} {v : V}
    (hl : (h.erase k).lookup k' = some v) : k' ≠ k := by
  rintro rfl
  rw [AList.lookup_erase] at hl
  cases hl

/-! ### Objects that are stored under their names -/

section Files
variable {O A : Type} {h : QHash K O} {objects : O → Option A} {name : A → K}
  {o : O} {a : A}

/-- The map has the objects that are there, each under its name. -/
structure Files (h : QHash K O) (objects : O → Option A) (name : A → K) : Prop where
  stored : ∀ k o, h.lookup k = some o → ∃ a, objects o = some a ∧ name a = k
  there : ∀ o a, objects o = some a → h.lookup (name a) = some o

/-- An empty table files nothing. -/
theorem Files.empty (name : A → K) : Files (∅ : QHash K O) (fun _ => none) name where
  stored _ _ hl := by cases hl
  there _ _ ho := by cases ho

/-- What is stored when the name of an object was removed is another object. -/
theorem Files.lookup_erase (hf : Files h objects name) (ho : objects o = some a) {k : K} {p : O}
    (hl : (h.erase (name a)).lookup k = some p) : h.lookup k = some p ∧ p ≠ o := by
  have hold := lookup_of_erase hl
  refine ⟨hold, ?_⟩
  rintro rfl
  obtain ⟨b, hp, hname⟩ := hf.stored k p hold
  rw [ho] at hp
  cases hp
  exact ne_of_lookup_erase hl hname.symm

variable [DecidableEq O]

/-- A new object is stored under a new name. -/
theorem Files.insert (hf : Files h objects name) (hnew : objects o = none)
    (hnone : h.lookup (name a) = none) :
    Files (AList.insert (name a) o h) (Function.update objects o (some a)) name where
  stored k p hl := by
    rcases lookup_of_insert hl with ⟨rfl, rfl⟩ | ⟨-, hold⟩
    · rw [Function.update_self]
      exact ⟨a, rfl, rfl⟩
    · -- The entries that were there are of other objects.
      obtain ⟨b, hp, hname⟩ := hf.stored k p hold
      have hne : p ≠ o := by
        rintro rfl
        rw [hnew] at hp
        cases hp
      rw [Function.update_of_ne hne]
      exact ⟨b, hp, hname⟩
  there p b hp := by
    rw [lookup_insert_eq]
    rcases update_cases hp with ⟨rfl, heq⟩ | ⟨-, hold⟩
    · cases heq
      rw [if_pos rfl]
    · have hstored := hf.there p b hold
      have hne : name b ≠ name a := by
        intro heq
        rw [heq, hnone] at hstored
        cases hstored
      rw [if_neg hne]
      exact hstored

/-- An object goes with its name. -/
theorem Files.erase (hf : Files h objects name) (ho : objects o = some a) :
    Files (h.erase (name a)) (Function.update objects o none) name where
  stored k p hl := by
    obtain ⟨hold, hne⟩ := hf.lookup_erase ho hl
    rw [Function.update_of_ne hne]
    exact hf.stored k p hold
  there p b hp := by
    rcases update_cases hp with ⟨-, heq⟩ | ⟨hne, hold⟩
    · cases heq
    · have hstored := hf.there p b hold
      rw [AList.lookup_erase_ne]
      · exact hstored
      · intro heq
        rw [heq, hf.there o a ho] at hstored
        exact hne (Option.some.inj hstored).symm

/-- An object changes and keeps its name. -/
theorem Files.update (hf : Files h objects name) (ho : objects o = some a) {b : A}
    (hname : name b = name a) : Files h (Function.update objects o (some b)) name where
  stored k p hl := by
    obtain ⟨c, hp, hc⟩ := hf.stored k p hl
    by_cases hpo : p = o
    · subst hpo
      rw [ho] at hp
      cases hp
      rw [Function.update_self]
      exact ⟨b, rfl, hname.trans hc⟩
    · rw [Function.update_of_ne hpo]
      exact ⟨c, hp, hc⟩
  there p c hp := by
    rcases update_cases hp with ⟨rfl, heq⟩ | ⟨-, hold⟩
    · cases heq
      rw [hname]
      exact hf.there p a ho
    · exact hf.there p c hold

/-- `QHash::key` finds the name of an object. -/
theorem Files.key_eq (hf : Files h objects name) (ho : objects o = some a) (d : K) :
    h.key o d = name a := by
  refine key_eq_of_unique d (hf.there o a ho) fun k hl => ?_
  obtain ⟨b, hb, hname⟩ := hf.stored k o hl
  rw [ho] at hb
  cases hb
  exact hname.symm

end Files

end QHash

end EChannel
