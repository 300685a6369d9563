import EChannel.LibUtp.UtpHash
import EChannel.Support.Chain
import Mathlib.Data.List.Nodup

/-!
# `EChannel.Proofs.LibUtp.HashTable`: the hash table of libutp is a finite map

`UtpHash.Rep` relates the memory of a table to the map `m` that it stands for: every element up
to `used` is on the list of exactly one bucket, on the list of free elements, or it is `loose`
while it goes from one list to another. `add` and `del` are made of such moves.

Keys must not be added twice. The lists then have each key once, and `lookup` is the map.
-/

set_option autoImplicit false

namespace EChannel.LibUtp

namespace UtpHash

variable {κ β : Type}

/-- The table stands for `m`. -/
structure Rep (h : UtpHash κ β) (chains : Nat → List Nat) (loose freeList : List Nat)
    (m : κ → Option β) : Prop where
  buckets : 0 < h.N ∧ h.N < libutpHashUnused
  chain : ∀ b < h.N, Chain h.link libutpHashUnused (h.inits b) (chains b)
  free : Chain h.link libutpHashUnused h.free freeList
  cells : List.Perm ((List.range h.N).flatMap chains ++ (loose ++ freeList)) (List.range h.used)
  size : h.used ≤ h.allocated ∧ 0 < h.allocated ∧ h.allocated ≤ libutpHashUnused
  count : h.count = ((List.range h.N).flatMap chains).length
  entry : ∀ b < h.N, ∀ i ∈ chains b, ∃ k v, h.entry i = some (k, v) ∧ h.mkidx k = b ∧ m k = some v
  stored : ∀ k v, m k = some v → ∃ i ∈ chains (h.mkidx k), h.entry i = some (k, v)
  unique : ∀ b < h.N, ∀ i ∈ chains b, ∀ j ∈ chains b,
    (h.entry i).map Prod.fst = (h.entry j).map Prod.fst → i = j

variable {h : UtpHash κ β} {chains : Nat → List Nat} {loose freeList : List Nat}
  {m : κ → Option β} {k : κ} {v : β} {b e i : Nat}

/-! ### Where the elements are -/

/-- A bucket index is inside the table. -/
theorem mkidx_lt (h : UtpHash κ β) (hN : 0 < h.N) (k : κ) : h.mkidx k < h.N := Nat.mod_lt _ hN

namespace Rep

/-- No cell is in two chains, or in a chain and the free list. -/
theorem nodup (hr : Rep h chains loose freeList m) :
    ((List.range h.N).flatMap chains ++ (loose ++ freeList)).Nodup :=
  hr.cells.nodup_iff.mpr List.nodup_range

/-- All cells of the chains and of the free list are in use. -/
theorem lt_used (hr : Rep h chains loose freeList m)
    (hi : i ∈ (List.range h.N).flatMap chains ++ (loose ++ freeList)) : i < h.used :=
  List.mem_range.mp (hr.cells.mem_iff.mp hi)

/-- A cell of a chain is one of the cells of the table. -/
theorem mem_cells (hb : b < h.N) (hi : i ∈ chains b) : i ∈ (List.range h.N).flatMap chains :=
  List.mem_flatMap.mpr ⟨b, List.mem_range.mpr hb, hi⟩

/-- The mark for no cell is not the index of one. -/
theorem ne_unused (hr : Rep h chains loose freeList m) (hi : i < h.used) :
    i ≠ libutpHashUnused := by
  have := hr.size
  omega

/-- No cell is twice in a chain. -/
theorem chain_nodup (hr : Rep h chains loose freeList m) (hb : b < h.N) : (chains b).Nodup := by
  have h1 := (List.nodup_append.mp hr.nodup).1
  have h2 := (flatMap_perm (f := chains) (List.mem_range.mpr hb) List.nodup_range).nodup_iff.mp h1
  exact (List.nodup_append.mp h2).1

/-- No element is on the lists of two buckets. -/
theorem notMem_of_ne (hr : Rep h chains loose freeList m) {b' : Nat} (hb : b < h.N)
    (hb' : b' < h.N) (hne : b' ≠ b) (hi : i ∈ chains b) : i ∉ chains b' := by
  intro hi'
  have h1 := (List.nodup_append.mp hr.nodup).1
  have h2 := (flatMap_perm (f := chains) (List.mem_range.mpr hb) List.nodup_range).nodup_iff.mp h1
  have hmem : b' ∈ (List.range h.N).erase b :=
    (List.mem_erase_of_ne hne).mpr (List.mem_range.mpr hb')
  exact (List.nodup_append.mp h2).2.2 i hi i (List.mem_flatMap.mpr ⟨b', hmem, hi'⟩) rfl

/-- A cell of a chain is neither free nor loose. -/
theorem notMem_free (hr : Rep h chains loose freeList m) (hb : b < h.N) (hi : i ∈ chains b) :
    i ∉ loose ++ freeList := fun hi' =>
  (List.nodup_append.mp hr.nodup).2.2 i (mem_cells hb hi) i hi' rfl

/-- A loose cell is in no chain, and it is not free. -/
theorem loose_notMem (hr : Rep h chains [e] freeList m) (hb : b < h.N) :
    e ∉ chains b ∧ e ∉ freeList := by
  refine ⟨fun hmem => hr.notMem_free hb hmem List.mem_cons_self, ?_⟩
  exact (List.nodup_cons.mp (List.nodup_append.mp hr.nodup).2.1).1

/-- A loose cell is in use. -/
theorem loose_lt (hr : Rep h chains [e] freeList m) : e < h.used :=
  hr.lt_used (List.mem_append_right _ List.mem_cons_self)

/-- A chain is not longer than the table has cells. -/
theorem length_chain_le (hr : Rep h chains loose freeList m) (hb : b < h.N) :
    (chains b).length ≤ h.used := by
  have h1 := hr.cells.length_eq
  have h2 := (flatMap_perm (f := chains) (List.mem_range.mpr hb) List.nodup_range).length_eq
  simp only [List.length_append, List.length_range] at h1 h2
  omega

end Rep

/-- The key of an element. -/
def keyAt (h : UtpHash κ β) (i : Nat) : Option κ := (h.entry i).map Prod.fst

/-- No key is in the table twice. -/
theorem Rep.keys_nodup (hr : Rep h chains loose freeList m) :
    (((List.range h.N).flatMap chains).map h.keyAt).Nodup := by
  rw [List.Nodup, List.pairwise_map]
  refine (List.nodup_append.mp hr.nodup).1.imp_of_mem fun {i j} hi hj hij hkey => ?_
  obtain ⟨b, hb, hi⟩ := List.mem_flatMap.mp hi
  obtain ⟨b', hb', hj⟩ := List.mem_flatMap.mp hj
  obtain ⟨k1, v1, hentry, hidx, -⟩ := hr.entry b (List.mem_range.mp hb) i hi
  obtain ⟨k2, v2, hentry', hidx', -⟩ := hr.entry b' (List.mem_range.mp hb') j hj
  have hsame := hkey
  rw [keyAt, keyAt, hentry, hentry'] at hsame
  obtain rfl : k1 = k2 := Option.some.inj hsame
  -- Elements with the same key are in the same bucket, so they are the same.
  obtain rfl : b = b' := hidx.symm.trans hidx'
  exact hij (hr.unique b (List.mem_range.mp hb) i hi j hj hkey)

/-! ### Moves of an element -/

namespace Rep

/-- A new table is the empty map. -/
theorem create {N initial : Nat} (f : κ → UInt32) (hN : 0 < N ∧ N < libutpHashUnused)
    (hinit : 0 < initial ∧ initial ≤ libutpHashUnused) :
    Rep (UtpHash.create N initial f : UtpHash κ β) (fun _ => []) [] [] fun _ => none := by
  constructor
  case buckets => exact hN
  case chain => exact fun _ _ => rfl
  case free => rfl
  case cells => simp [UtpHash.create]
  case size => exact ⟨Nat.zero_le _, hinit⟩
  case count => simp [UtpHash.create]
  case entry => exact fun _ _ _ hi => absurd hi List.not_mem_nil
  case stored => exact fun _ _ hno => by cases hno
  case unique => exact fun _ _ _ hi => absurd hi List.not_mem_nil

/-- The first free element is taken. -/
theorem popFree (hr : Rep h chains [] (e :: freeList) m) :
    Rep { h with free := h.link e } chains [e] freeList m :=
  { hr with free := hr.free.tail, cells := hr.cells }

/-- The first unused element is taken. -/
theorem newCell (hr : Rep h chains [] freeList m) (hroom : h.used < h.allocated) :
    Rep { h with used := h.used + 1 } chains [h.used] freeList m := by
  refine { hr with cells := ?_, size := ⟨hroom, hr.size.2⟩ }
  show List.Perm ((List.range h.N).flatMap chains ++ h.used :: freeList) (List.range (h.used + 1))
  rw [List.range_succ]
  refine List.perm_middle.trans ?_
  exact (List.Perm.cons h.used hr.cells).trans (List.perm_append_singleton _ _).symm

/-- An element comes to the free ones. -/
theorem pushFree (hr : Rep h chains [e] freeList m) :
    Rep { h with link := Function.update h.link e h.free, free := e } chains [] (e :: freeList)
      m := by
  have hne := hr.ne_unused hr.loose_lt
  refine { hr with
    chain := fun b hb => (hr.chain b hb).update (hr.loose_notMem hb).1
    free := hr.free.push (hr.loose_notMem hr.buckets.1).2 hne
    cells := hr.cells }

variable [DecidableEq κ]

/-- An element becomes the first one of its bucket. -/
theorem linkIn (hr : Rep h chains [e] freeList m) (hm : m k = none) (v : β) :
    Rep (h.linkIn e k v)
      (Function.update chains (h.mkidx k) (e :: chains (h.mkidx k))) [] freeList
      (fun k' => if k' = k then some v else m k') := by
  have hb := mkidx_lt h hr.buckets.1 k
  have hne := hr.ne_unused hr.loose_lt
  have hcells : List.Perm ((List.range h.N).flatMap
      (Function.update chains (h.mkidx k) (e :: chains (h.mkidx k))))
      (e :: (List.range h.N).flatMap chains) := by
    refine (flatMap_update_perm _ (List.mem_range.mpr hb) List.nodup_range).trans ?_
    exact ((flatMap_perm (List.mem_range.mpr hb) List.nodup_range).cons e).symm
  -- What is on a list now: the new element, or one that was there.
  have hmem {b i : Nat} (hb' : b < h.N)
      (hi : i ∈ Function.update chains (h.mkidx k) (e :: chains (h.mkidx k)) b) :
      i = e ∧ b = h.mkidx k ∨ i ≠ e ∧ i ∈ chains b := by
    by_cases heq : b = h.mkidx k
    · subst heq
      rw [Function.update_self] at hi
      rcases List.mem_cons.mp hi with rfl | hi
      · exact Or.inl ⟨rfl, rfl⟩
      · exact Or.inr ⟨fun hie => (hr.loose_notMem hb').1 (hie ▸ hi), hi⟩
    · rw [Function.update_of_ne heq] at hi
      exact Or.inr ⟨fun hie => (hr.loose_notMem hb').1 (hie ▸ hi), hi⟩
  have hold {i : Nat} (hi : i ≠ e) : (h.linkIn e k v).entry i = h.entry i :=
    Function.update_of_ne hi _ _
  have hnew : (h.linkIn e k v).entry e = some (k, v) := Function.update_self _ _ _
  have hkey {b i : Nat} (hb' : b < h.N) (hi : i ∈ chains b) :
      (h.entry i).map Prod.fst ≠ some k := by
    obtain ⟨k', v', hentry, -, hk'⟩ := hr.entry b hb' i hi
    rw [hentry]
    rintro heq
    obtain rfl : k' = k := Option.some.inj heq
    rw [hm] at hk'
    cases hk'
  constructor
  case buckets => exact hr.buckets
  case chain =>
    intro b hb'
    show Chain (Function.update h.link e (h.inits (h.mkidx k))) _
      (Function.update h.inits (h.mkidx k) e b) _
    by_cases heq : b = h.mkidx k
    · subst heq
      rw [Function.update_self, Function.update_self]
      exact (hr.chain _ hb').push (hr.loose_notMem hb').1 hne
    · rw [Function.update_of_ne heq, Function.update_of_ne heq]
      exact (hr.chain b hb').update (hr.loose_notMem hb').1
  case free => exact hr.free.update (hr.loose_notMem hb).2
  case cells => exact (hcells.append_right freeList).trans (List.perm_middle.symm.trans hr.cells)
  case size => exact hr.size
  case count =>
    show h.count + 1 = ((List.range h.N).flatMap _).length
    rw [hcells.length_eq, List.length_cons, ← hr.count]
  case entry =>
    intro b hb' i hi
    rcases hmem hb' hi with ⟨rfl, rfl⟩ | ⟨hie, hi⟩
    · exact ⟨k, v, hnew, rfl, if_pos rfl⟩
    · obtain ⟨k', v', hentry, hidx, hk'⟩ := hr.entry b hb' i hi
      refine ⟨k', v', (hold hie).trans hentry, hidx, ?_⟩
      rw [if_neg, hk']
      rintro rfl
      rw [hm] at hk'
      cases hk'
  case stored =>
    intro k' v' hk'
    show ∃ i ∈ Function.update chains (h.mkidx k) (e :: chains (h.mkidx k)) (h.mkidx k'), _
    by_cases heq : k' = k
    · subst heq
      rw [if_pos rfl] at hk'
      obtain rfl : v = v' := Option.some.inj hk'
      exact ⟨e, by rw [Function.update_self]; exact List.mem_cons_self, hnew⟩
    · rw [if_neg heq] at hk'
      obtain ⟨i, hi, hentry⟩ := hr.stored k' v' hk'
      have hb' := mkidx_lt h hr.buckets.1 k'
      have hie : i ≠ e := fun hie => (hr.loose_notMem hb').1 (hie ▸ hi)
      refine ⟨i, ?_, (hold hie).trans hentry⟩
      by_cases hidx : h.mkidx k' = h.mkidx k
      · rw [hidx, Function.update_self]
        exact List.mem_cons_of_mem e (hidx ▸ hi)
      · rw [Function.update_of_ne hidx]
        exact hi
  case unique =>
    intro b hb' i hi j hj heq
    rcases hmem hb' hi with ⟨rfl, rfl⟩ | ⟨hie, hi'⟩
    · rcases hmem hb' hj with ⟨rfl, -⟩ | ⟨hje, hj⟩
      · rfl
      · rw [hold hje, hnew] at heq
        exact absurd heq.symm (hkey hb' hj)
    · rcases hmem hb' hj with ⟨rfl, -⟩ | ⟨hje, hj'⟩
      · rw [hold hie, hnew] at heq
        exact absurd heq (hkey hb' hi')
      · rw [hold hie, hold hje] at heq
        exact hr.unique b hb' i hi' j hj' heq

end Rep

/-! ### Iteration -/

/-- The iterator goes on with the elements `rest`. -/
structure IterAt (h : UtpHash κ β) (chains : Nat → List Nat) (it : UtpHashIterator)
    (rest : List Nat) : Prop where
  ahead : ∃ l, Chain h.link libutpHashUnused it.elem l ∧
    (∀ i ∈ l, it.bucket < h.N ∧ i ∈ chains it.bucket) ∧
    rest = l ++ ((List.range h.N).drop ((it.bucket + 1) % 0x100000000)).flatMap chains

/-- An iterator that begins has all cells in front of it. -/
theorem IterAt.init (h : UtpHash κ β) (chains : Nat → List Nat) :
    IterAt h chains .init ((List.range h.N).flatMap chains) := by
  refine ⟨[], rfl, fun i hi => absurd hi List.not_mem_nil, ?_⟩
  show _ = [] ++ ((List.range h.N).drop ((libutpHashUnused + 1) % 0x100000000)).flatMap chains
  rw [show (libutpHashUnused + 1) % 0x100000000 = 0 by decide, List.drop_zero, List.nil_append]

/-- An element that the iterator has behind it is taken out. -/
theorem IterAt.takeOut {it : UtpHashIterator} {rest : List Nat} (hit : IterAt h chains it rest)
    (link : Nat → Nat) (hlink : ∀ i, i ≠ e → h.link i ≠ e → link i = h.link i)
    (hrest : e ∉ rest) (hne : e ≠ libutpHashUnused) {chains' : Nat → List Nat}
    (he : e ∈ chains b) (hother : ∀ b', b' ≠ b → chains' b' = chains b')
    (hkeep : ∀ i ∈ chains b, i ≠ e → i ∈ chains' b) :
    IterAt { h with link := link } chains' it rest := by
  obtain ⟨l, hc, hl, rfl⟩ := hit.ahead
  have hel : e ∉ l := fun hmem => hrest (List.mem_append_left _ hmem)
  refine ⟨l, hc.congr fun i hi => ?_, fun i hi => ?_, ?_⟩
  · refine hlink i (fun hie => hel (hie ▸ hi)) fun hie => hel ?_
    rw [← hie]
    refine hc.mem_of_link hi ?_
    rw [hie]
    exact hne
  · obtain ⟨hbucket, hmem⟩ := hl i hi
    refine ⟨hbucket, ?_⟩
    by_cases heq : it.bucket = b
    · rw [heq] at hmem ⊢
      exact hkeep i hmem fun hie => hel (hie ▸ hi)
    · rw [hother _ heq]
      exact hmem
  · -- The bucket of `e` is behind the iterator.
    have hsame (x : Nat) (hx : x ∈ (List.range h.N).drop ((it.bucket + 1) % 0x100000000)) :
        chains x = chains' x := by
      refine (hother x ?_).symm
      rintro rfl
      exact hrest (List.mem_append_right l (List.mem_flatMap.mpr ⟨x, hx, he⟩))
    show _ = l ++ ((List.range h.N).drop _).flatMap chains'
    rw [List.flatMap_def, List.flatMap_def, List.map_congr_left hsame]

/-- The elements ahead of an iterator are in buckets. -/
theorem IterAt.mem {it : UtpHashIterator} {rest : List Nat} (hit : IterAt h chains it rest)
    (hi : i ∈ rest) : ∃ b < h.N, i ∈ chains b := by
  obtain ⟨l, -, hl, rfl⟩ := hit.ahead
  rcases List.mem_append.mp hi with hi | hi
  · exact ⟨it.bucket, hl i hi⟩
  · obtain ⟨b, hb, hi⟩ := List.mem_flatMap.mp hi
    exact ⟨b, List.mem_range.mp (List.mem_of_mem_drop hb), hi⟩

/-- The buckets from one on are that bucket and those behind it. -/
theorem drop_range {n buck : Nat} (h : buck < n) :
    (List.range n).drop buck = buck :: (List.range n).drop (buck + 1) := by
  rw [List.drop_eq_getElem_cons (by simpa using h), List.getElem_range]

/-- The first element of the buckets from `buck` on. -/
theorem nextBucket_eq (hr : Rep h chains loose freeList m) (n buck : Nat)
    (hn : h.N < n + buck) :
    h.nextBucket n buck = none ∧ ((List.range h.N).drop buck).flatMap chains = [] ∨
      ∃ b i l, h.nextBucket n buck = some (b, i) ∧ b < h.N ∧ chains b = i :: l ∧
        ((List.range h.N).drop buck).flatMap chains =
          i :: l ++ ((List.range h.N).drop (b + 1)).flatMap chains := by
  induction n generalizing buck with
  | zero =>
    rw [List.drop_eq_nil_of_le (by rw [List.length_range]; omega)]
    exact Or.inl ⟨rfl, rfl⟩
  | succ n ih =>
    unfold nextBucket
    by_cases hb : h.N ≤ buck
    · rw [List.drop_eq_nil_of_le (by rw [List.length_range]; exact hb), if_pos hb]
      exact Or.inl ⟨rfl, rfl⟩
    · rw [drop_range (Nat.lt_of_not_le hb), List.flatMap_cons, if_neg hb]
      have hc := hr.chain buck (Nat.lt_of_not_le hb)
      cases hl : chains buck with
      | nil =>
        rw [hl] at hc
        rw [if_neg (not_not.mpr (show h.inits buck = libutpHashUnused from hc)), List.nil_append]
        exact ih (buck + 1) (by omega)
      | cons i l =>
        rw [hl] at hc
        obtain ⟨hi, hne, -⟩ := hc
        rw [hi, if_pos hne]
        exact Or.inr ⟨buck, i, l, rfl, Nat.lt_of_not_le hb, hl, rfl⟩

/-- `utp_hash_iterate`. -/
theorem iterate_eq (hr : Rep h chains loose freeList m) {it : UtpHashIterator} {rest : List Nat}
    (hit : IterAt h chains it rest) :
    h.iterate it = none ∧ rest = [] ∨ ∃ i it' rest', h.iterate it = some (i, it') ∧
      rest = i :: rest' ∧ IterAt h chains it' rest' := by
  obtain ⟨l, hc, hl, rfl⟩ := hit.ahead
  unfold iterate
  have hmod {b : Nat} (hb : b < h.N) : (b + 1) % 0x100000000 = b + 1 := by
    have := hr.buckets.2
    have hu : libutpHashUnused = 0xFFFFFFFF := rfl
    exact Nat.mod_eq_of_lt (by omega)
  cases l with
  | nil =>
    rw [if_pos (show it.elem = libutpHashUnused from hc), List.nil_append]
    rcases nextBucket_eq hr (h.N + 1) ((it.bucket + 1) % 0x100000000) (by omega) with
      ⟨hnone, hrest⟩ | ⟨b, i, l, hsome, hb, hchain, hrest⟩
    · rw [hnone]
      exact Or.inl ⟨rfl, hrest⟩
    · rw [hsome]
      refine Or.inr ⟨i, _, l ++ ((List.range h.N).drop (b + 1)).flatMap chains, rfl, hrest, l, ?_,
        fun j hj => ⟨hb, ?_⟩, ?_⟩
      · have hstart := hr.chain b hb
        rw [hchain] at hstart
        exact hstart.tail
      · show j ∈ chains b
        rw [hchain]
        exact List.mem_cons_of_mem i hj
      · show l ++ ((List.range h.N).drop (b + 1)).flatMap chains =
          l ++ ((List.range h.N).drop ((b + 1) % 0x100000000)).flatMap chains
        rw [hmod hb]
  | cons i l =>
    obtain ⟨hi, hne, htail⟩ := hc
    rw [if_neg (hi ▸ hne), hi]
    exact Or.inr ⟨i, _, _, rfl, rfl, l, htail, fun j hj => hl j (List.mem_cons_of_mem i hj), rfl⟩

/-! ### Lookup -/

variable [DecidableEq κ]

/-- `compare` asks whether the cell holds the key. -/
theorem compare_eq_true : h.compare k i = true ↔ ∃ v, h.entry i = some (k, v) := by
  unfold compare
  split
  · rename_i hnone
    rw [hnone]
    simp
  · rename_i k2 v hsome
    rw [hsome]
    simp only [decide_eq_true_eq, Option.some.injEq, Prod.mk.injEq]
    exact ⟨fun heq => ⟨v, heq.symm, rfl⟩, fun ⟨_, heq, _⟩ => heq.symm⟩

/-- The walk along a chain finds the first cell with the key. The induction is on the fuel. -/
theorem lookupFrom_eq {l : List Nat} {n start : Nat}
    (hc : Chain h.link libutpHashUnused start l) (hn : l.length < n) :
    h.lookupFrom k n start = l.find? (h.compare k) := by
  induction l generalizing n start with
  | nil =>
    cases n with
    | zero => cases hn
    | succ n =>
      rw [lookupFrom, if_pos (show start = libutpHashUnused from hc)]
      rfl
  | cons i l ih =>
    obtain ⟨rfl, hne, htail⟩ := hc
    cases n with
    | zero => cases hn
    | succ n =>
      rw [lookupFrom, if_neg hne, List.find?_cons]
      cases h.compare k start with
      | true => rfl
      | false => exact ih htail (Nat.lt_of_succ_lt_succ hn)

namespace Rep

/-- The lookup searches the chain of the key. -/
theorem lookupIndex_eq (hr : Rep h chains loose freeList m) (k : κ) :
    h.lookupIndex k = (chains (h.mkidx k)).find? (h.compare k) := by
  have hb := mkidx_lt h hr.buckets.1 k
  exact lookupFrom_eq (hr.chain _ hb) (Nat.lt_succ_of_le (hr.length_chain_le hb))

/-- The element of a key that is there. -/
theorem lookupIndex_of_some (hr : Rep h chains loose freeList m) (hm : m k = some v) :
    ∃ i ∈ chains (h.mkidx k), h.lookupIndex k = some i ∧ h.entry i = some (k, v) := by
  obtain ⟨i, hi, hentry⟩ := hr.stored k v hm
  have hb := mkidx_lt h hr.buckets.1 k
  rw [hr.lookupIndex_eq]
  have hsome : ((chains (h.mkidx k)).find? (h.compare k)).isSome = true :=
    List.find?_isSome.mpr ⟨i, hi, compare_eq_true.mpr ⟨v, hentry⟩⟩
  obtain ⟨j, hj⟩ := Option.isSome_iff_exists.mp hsome
  obtain ⟨v', hv'⟩ := compare_eq_true.mp (List.find?_some hj)
  have hjmem := List.mem_of_find?_eq_some hj
  obtain rfl : j = i := hr.unique _ hb j hjmem i hi (by rw [hv', hentry]; rfl)
  exact ⟨j, hi, hj, hentry⟩

/-- Without an entry no cell of the chain holds the key. -/
theorem lookupIndex_of_none (hr : Rep h chains loose freeList m) (hm : m k = none) :
    ∀ i ∈ chains (h.mkidx k), h.compare k i = false := by
  intro i hi
  by_contra htrue
  obtain ⟨v, hv⟩ := compare_eq_true.mp (by simpa using htrue)
  obtain ⟨k', v', hentry, -, hk'⟩ := hr.entry _ (mkidx_lt h hr.buckets.1 k) i hi
  rw [hv] at hentry
  obtain ⟨rfl, rfl⟩ := Prod.mk.inj (Option.some.inj hentry)
  rw [hm] at hk'
  cases hk'

/-- `utp_hash_lookup` is the map. -/
theorem lookup_eq (hr : Rep h chains loose freeList m) (k : κ) : h.lookup k = m k := by
  unfold lookup
  cases hm : m k with
  | some v =>
    obtain ⟨i, -, hindex, hentry⟩ := hr.lookupIndex_of_some hm
    rw [hindex, Option.bind_some, hentry]
    rfl
  | none =>
    rw [hr.lookupIndex_eq, List.find?_eq_none.mpr]
    · rfl
    · intro i hi
      rw [hr.lookupIndex_of_none hm i hi]
      simp

end Rep

/-! ### Operations -/

/-- `utp_hash_add` of a new key. -/
theorem add_of_none (hr : Rep h chains [] freeList m) (hm : m k = none) (v : β)
    (hroom : h.count < libutpHashUnused) :
    ∃ h' chains' freeList', h.add k v = some h' ∧ h'.N = h.N ∧ h'.count = h.count + 1 ∧
      Rep h' chains' [] freeList' (fun k' => if k' = k then some v else m k') := by
  unfold add
  cases freeList with
  | nil =>
    rw [if_pos (show h.free = libutpHashUnused from hr.free)]
    -- Without free elements every used one is in a bucket.
    have hused : h.used = h.count := by
      have := hr.cells.length_eq
      rw [List.append_nil, List.append_nil, List.length_range, ← hr.count] at this
      exact this.symm
    obtain ⟨h1, h2, h3⟩ := hr.size
    have hgrow : ∃ n, h.grow = some { h with allocated := n } ∧ h.used < n ∧
        n ≤ libutpHashUnused := by
      unfold grow
      split
      · split
        · exact ⟨_, rfl, by omega, by omega⟩
        · split
          · exact ⟨_, rfl, by omega, Nat.le_refl _⟩
          · omega
      · exact ⟨h.allocated, rfl, by omega, h3⟩
    obtain ⟨n, heq, hlt, hle⟩ := hgrow
    rw [heq]
    have hr' : Rep { h with allocated := n } chains [] [] m :=
      { hr with size := ⟨Nat.le_of_lt hlt, by show 0 < n; omega, hle⟩ }
    exact ⟨_, _, _, rfl, rfl, rfl, (hr'.newCell hlt).linkIn hm v⟩
  | cons e freeList =>
    obtain ⟨hfree, hne, -⟩ := hr.free
    rw [hfree, if_neg hne]
    exact ⟨_, _, _, rfl, rfl, rfl, hr.popFree.linkIn hm v⟩

/-- There is nothing to unlink when no cell holds the key. -/
theorem findCurp_of_false {l : List Nat} {n start : Nat} {prev : Option Nat}
    (hc : Chain h.link libutpHashUnused start l) (hl : ∀ i ∈ l, h.compare k i = false) :
    h.findCurp k n prev start = none := by
  induction l generalizing n start prev with
  | nil =>
    cases n with
    | zero => rfl
    | succ n => rw [findCurp, if_pos (show start = libutpHashUnused from hc)]
  | cons i l ih =>
    obtain ⟨rfl, hne, htail⟩ := hc
    cases n with
    | zero => rfl
    | succ n =>
      rw [findCurp, if_neg hne, hl start List.mem_cons_self]
      exact ih htail fun i hi => hl i (List.mem_cons_of_mem start hi)

/-- The loop stops at the first match, with the element before it. -/
theorem findCurp_of_append {l₁ l₂ : List Nat} {n start : Nat} (prev : Option Nat)
    (hc : Chain h.link libutpHashUnused start (l₁ ++ e :: l₂)) (hn : l₁.length < n)
    (hl : ∀ i ∈ l₁, h.compare k i = false) (he : h.compare k e = true) :
    h.findCurp k n prev start = some (l₁.getLast?.or prev, e) := by
  induction l₁ generalizing n start prev with
  | nil =>
    obtain ⟨rfl, hne, -⟩ := hc
    cases n with
    | zero => cases hn
    | succ n =>
      rw [findCurp, if_neg hne, if_pos he]
      rfl
  | cons i l₁ ih =>
    obtain ⟨rfl, hne, htail⟩ := hc
    cases n with
    | zero => cases hn
    | succ n =>
      rw [findCurp, if_neg hne, hl start List.mem_cons_self]
      have hrest := ih (some start) htail (Nat.lt_of_succ_lt_succ hn)
        fun i hi => hl i (List.mem_cons_of_mem start hi)
      refine hrest.trans ?_
      rw [List.getLast?_cons]
      cases l₁.getLast? <;> rfl

namespace Rep

/-- An element is taken out of its bucket, however the links were changed for that. -/
theorem takeOut (hr : Rep h chains [] freeList m) {l₁ l₂ : List Nat}
    (hsplit : chains (h.mkidx k) = l₁ ++ e :: l₂) (he : h.entry e = some (k, v))
    (link inits : Nat → Nat)
    (hchain : Chain link libutpHashUnused (inits (h.mkidx k)) (l₁ ++ l₂))
    (hother : ∀ b < h.N, b ≠ h.mkidx k → Chain link libutpHashUnused (inits b) (chains b))
    (hfree : Chain link libutpHashUnused h.free freeList) :
    Rep { h with link := link, inits := inits, count := h.count - 1 }
      (Function.update chains (h.mkidx k) (l₁ ++ l₂)) [e] freeList
      (fun k' => if k' = k then none else m k') := by
  have hb := mkidx_lt h hr.buckets.1 k
  have hemem : e ∈ chains (h.mkidx k) := by
    rw [hsplit]
    exact List.mem_append_right l₁ List.mem_cons_self
  have hnd := hr.chain_nodup hb
  rw [hsplit] at hnd
  have hcells : List.Perm ((List.range h.N).flatMap chains)
      (e :: (List.range h.N).flatMap (Function.update chains (h.mkidx k) (l₁ ++ l₂))) := by
    refine (flatMap_perm (List.mem_range.mpr hb) List.nodup_range).trans ?_
    rw [hsplit]
    refine (List.perm_middle.append_right _).trans ?_
    exact ((flatMap_update_perm _ (List.mem_range.mpr hb) List.nodup_range).cons e).symm
  -- What is on a list now was there before, and is not `e`.
  have hmem {b i : Nat} (hb' : b < h.N)
      (hi : i ∈ Function.update chains (h.mkidx k) (l₁ ++ l₂) b) : i ∈ chains b ∧ i ≠ e := by
    by_cases heq : b = h.mkidx k
    · subst heq
      rw [Function.update_self] at hi
      obtain ⟨hnot, -⟩ := List.nodup_cons.mp (List.perm_middle.nodup_iff.mp hnd)
      refine ⟨?_, fun hie => hnot (hie ▸ hi)⟩
      rw [hsplit]
      exact List.perm_middle.symm.subset (List.mem_cons_of_mem e hi)
    · rw [Function.update_of_ne heq] at hi
      exact ⟨hi, fun hie => hr.notMem_of_ne hb hb' heq hemem (hie ▸ hi)⟩
  have hmem' {b i : Nat} (hi : i ∈ chains b) (hie : i ≠ e) :
      i ∈ Function.update chains (h.mkidx k) (l₁ ++ l₂) b := by
    by_cases heq : b = h.mkidx k
    · subst heq
      rw [Function.update_self]
      rw [hsplit] at hi
      exact (List.mem_cons.mp (List.perm_middle.subset hi)).resolve_left hie
    · rw [Function.update_of_ne heq]
      exact hi
  constructor
  case buckets => exact hr.buckets
  case chain =>
    intro b hb'
    by_cases heq : b = h.mkidx k
    · subst heq
      rw [Function.update_self]
      exact hchain
    · rw [Function.update_of_ne heq]
      exact hother b hb' heq
  case free => exact hfree
  case cells =>
    refine List.Perm.trans ?_ hr.cells
    exact List.perm_middle.trans (hcells.append_right freeList).symm
  case size => exact hr.size
  case count =>
    show h.count - 1 = ((List.range h.N).flatMap _).length
    rw [hr.count, hcells.length_eq, List.length_cons, Nat.add_sub_cancel]
  case entry =>
    intro b hb' i hi
    obtain ⟨hi', hie⟩ := hmem hb' hi
    obtain ⟨k', v', hentry, hidx, hk'⟩ := hr.entry b hb' i hi'
    refine ⟨k', v', hentry, hidx, ?_⟩
    rw [if_neg, hk']
    -- The key of another element is another key.
    rintro rfl
    refine hie (hr.unique b hb' i hi' e (hidx ▸ hemem) ?_)
    rw [hentry, he]
    rfl
  case stored =>
    intro k' v' hk'
    have hne : k' ≠ k := by
      rintro rfl
      rw [if_pos rfl] at hk'
      cases hk'
    rw [if_neg hne] at hk'
    obtain ⟨i, hi, hentry⟩ := hr.stored k' v' hk'
    refine ⟨i, hmem' hi ?_, hentry⟩
    rintro rfl
    rw [he] at hentry
    exact hne (Prod.mk.inj (Option.some.inj hentry)).1.symm
  case unique =>
    intro b hb' i hi j hj heq
    exact hr.unique b hb' i (hmem hb' hi).1 j (hmem hb' hj).1 heq

/-- `utp_hash_del`. An iterator that has the element behind it goes on as before. -/
theorem del (hr : Rep h chains [] freeList m) (k : κ) :
    ∃ chains' freeList', (h.del k).1.N = h.N ∧ (h.del k).1.entry = h.entry ∧
      (h.del k).1.count ≤ h.count ∧ (h.del k).2 = (m k).isSome ∧
      Rep (h.del k).1 chains' [] freeList' (fun k' => if k' = k then none else m k') ∧
      ∀ it rest, IterAt h chains it rest → (∀ i ∈ rest, h.compare k i = false) →
        IterAt (h.del k).1 chains' it rest := by
  have hb := mkidx_lt h hr.buckets.1 k
  unfold UtpHash.del
  cases hm : m k with
  | none =>
    rw [findCurp_of_false (hr.chain _ hb) (hr.lookupIndex_of_none hm)]
    refine ⟨chains, freeList, rfl, rfl, Nat.le_refl _, rfl, ?_, fun it rest hit _ => hit⟩
    have hsame : (fun k' => if k' = k then none else m k') = m := by
      funext k'
      split
      · rename_i heq
        rw [heq, hm]
      · rfl
    rw [hsame]
    exact hr
  | some v =>
    obtain ⟨e, he, hindex, hentry⟩ := hr.lookupIndex_of_some hm
    rw [hr.lookupIndex_eq] at hindex
    obtain ⟨hcmp, l₁, l₂, hsplit, hl₁⟩ := List.find?_eq_some_iff_append.mp hindex
    have hchain := hr.chain _ hb
    have hlen := hr.length_chain_le hb
    have hnd := hr.chain_nodup hb
    rw [hsplit] at hchain hlen hnd
    rw [findCurp_of_append none hchain (by rw [List.length_append] at hlen; omega)
      (fun i hi => by simpa using hl₁ i hi) hcmp, Option.or_none]
    dsimp only
    have hnot (rest : List Nat) (hrest : ∀ i ∈ rest, h.compare k i = false) : e ∉ rest := by
      intro hmem
      rw [hrest e hmem] at hcmp
      cases hcmp
    have hiter (link : Nat → Nat) (hlink : ∀ i, i ≠ e → h.link i ≠ e → link i = h.link i)
        (it : UtpHashIterator) (rest : List Nat) (hit : IterAt h chains it rest)
        (hrest : e ∉ rest) : IterAt { h with link := link }
          (Function.update chains (h.mkidx k) (l₁ ++ l₂)) it rest := by
      refine hit.takeOut link hlink hrest (hr.ne_unused (hr.lt_used
        (List.mem_append_left _ (mem_cells hb he)))) he ?_ fun i hi hie => ?_
      · exact fun b hne => Function.update_of_ne hne _ _
      · rw [Function.update_self]
        rw [hsplit] at hi
        exact (List.mem_cons.mp (List.perm_middle.subset hi)).resolve_left hie
    -- The element before `e`, if there is one, gets the link of `e`.
    rcases List.eq_nil_or_concat' l₁ with rfl | ⟨l, j, rfl⟩
    · have hout := hr.takeOut hsplit hentry h.link
        (Function.update h.inits (h.mkidx k) (h.link e))
        (by rw [Function.update_self]; exact hchain.tail)
        (fun b hb' hne => by rw [Function.update_of_ne hne]; exact hr.chain b hb') hr.free
      refine ⟨_, _, rfl, rfl, Nat.sub_le _ _, rfl, hout.pushFree, fun it rest hit hrest => ?_⟩
      exact { hiter (Function.update h.link e h.free)
        (fun i hie _ => Function.update_of_ne hie _ _) it rest hit (hnot rest hrest) with }
    · rw [List.append_assoc] at hchain hnd
      have hj : j ∈ chains (h.mkidx k) := by
        rw [hsplit, List.append_assoc]
        exact List.mem_append_right l List.mem_cons_self
      have hout := hr.takeOut hsplit hentry (Function.update h.link j (h.link e)) h.inits
        (by
          rw [List.append_assoc]
          exact hchain.unlink hnd)
        (fun b hb' hne => (hr.chain b hb').update (hr.notMem_of_ne hb hb' hne hj))
        (hr.free.update (hr.notMem_free hb hj))
      have hje : h.link j = e := hchain.drop.start_eq_head
      rw [List.getLast?_concat]
      refine ⟨_, _, rfl, rfl, Nat.sub_le _ _, rfl, hout.pushFree, fun it rest hit hrest => ?_⟩
      exact { hiter (Function.update (Function.update h.link j (h.link e)) e h.free)
        (fun i hie hlink => by
          rw [Function.update_of_ne hie, Function.update_of_ne]
          rintro rfl
          exact hlink hje) it rest hit (hnot rest hrest) with }

/-- A new value keeps the key of each cell. -/
theorem keyAt_setValue (hr : Rep h chains [] freeList m) {w : β} (hm : m k = some w) (v : β)
    (i : Nat) : (h.setValue k v).keyAt i = h.keyAt i := by
  obtain ⟨e, -, hindex, hentry⟩ := hr.lookupIndex_of_some hm
  unfold UtpHash.setValue
  rw [hindex]
  show (Function.update h.entry e (some (k, v)) i).map Prod.fst = (h.entry i).map Prod.fst
  by_cases hie : i = e
  · rw [hie, Function.update_self, hentry]
    rfl
  · rw [Function.update_of_ne hie]

/-- The value of a key is changed in place. -/
theorem setValue (hr : Rep h chains [] freeList m) {w : β} (hm : m k = some w) (v : β) :
    (h.setValue k v).N = h.N ∧ Rep (h.setValue k v) chains [] freeList
      (fun k' => if k' = k then some v else m k') := by
  obtain ⟨e, he, hindex, hentry⟩ := hr.lookupIndex_of_some hm
  have hset : h.setValue k v =
      { h with entry := Function.update h.entry e (some (k, v)) } := by
    unfold UtpHash.setValue
    rw [hindex]
  have hkeys := hr.keyAt_setValue hm v
  rw [hset] at hkeys ⊢
  refine ⟨rfl, ?_⟩
  refine { hr with entry := ?_, stored := ?_, unique := ?_ }
  · intro b hb' i hi
    by_cases hie : i = e
    · subst hie
      obtain ⟨k', v', hentry', hidx, -⟩ := hr.entry b hb' i hi
      rw [hentry] at hentry'
      obtain ⟨rfl, -⟩ := Prod.mk.inj (Option.some.inj hentry')
      exact ⟨k, v, Function.update_self _ _ _, hidx, if_pos rfl⟩
    · obtain ⟨k', v', hentry', hidx, hk'⟩ := hr.entry b hb' i hi
      refine ⟨k', v', (Function.update_of_ne hie _ _).trans hentry', hidx, ?_⟩
      rw [if_neg, hk']
      rintro rfl
      refine hie (hr.unique b hb' i hi e (hidx ▸ he) ?_)
      rw [hentry', hentry]
      rfl
  · intro k' v' hk'
    by_cases heq : k' = k
    · subst heq
      rw [if_pos rfl] at hk'
      obtain rfl : v = v' := Option.some.inj hk'
      exact ⟨e, he, Function.update_self _ _ _⟩
    · rw [if_neg heq] at hk'
      obtain ⟨i, hi, hentry'⟩ := hr.stored k' v' hk'
      refine ⟨i, hi, (Function.update_of_ne ?_ _ _).trans hentry'⟩
      rintro rfl
      rw [hentry] at hentry'
      exact heq (Prod.mk.inj (Option.some.inj hentry')).1.symm
  · intro b hb' i hi j hj heq
    exact hr.unique b hb' i hi j hj ((hkeys i).symm.trans (heq.trans (hkeys j)))

end Rep

/-- A new value keeps the number of entries. -/
theorem setValue_count (h : UtpHash κ β) (k : κ) (v : β) : (h.setValue k v).count = h.count := by
  unfold setValue
  split <;> rfl

/-- A new value keeps the iterators. -/
theorem IterAt.setValue {it : UtpHashIterator} {rest : List Nat} (hit : IterAt h chains it rest)
    (k : κ) (v : β) : IterAt (h.setValue k v) chains it rest := by
  unfold UtpHash.setValue
  split
  · exact hit
  · exact { hit with }

/-! ### Whole runs -/

omit [DecidableEq κ] in

/-- The walk of an iterator visits the cells in front of it, one after the other. -/
theorem walk_eq (hr : Rep h chains loose freeList m) {it : UtpHashIterator} {rest : List Nat}
    (hit : IterAt h chains it rest) {n : Nat} (hn : rest.length < n) : h.walk n it = rest := by
  induction n generalizing it rest with
  | zero => cases hn
  | succ n ih =>
    unfold walk
    rcases iterate_eq hr hit with ⟨hnone, rfl⟩ | ⟨i, it', rest', hsome, rfl, hit'⟩
    · rw [hnone]
    · rw [hsome]
      exact congrArg (i :: ·) (ih hit' (Nat.lt_of_succ_lt_succ hn))

/-- An operation of a caller. -/
theorem apply_rep (hr : Rep h chains [] freeList m) (op : Op κ β)
    (hroom : h.count < libutpHashUnused) :
    ∃ chains' freeList', Rep (h.apply op) chains' [] freeList' (op.onMap m) ∧
      (h.apply op).count ≤ h.count + 1 := by
  cases op with
  | add k v =>
    dsimp only [apply]
    cases hm : m k with
    | some w =>
      obtain ⟨i, -, hi, -⟩ := hr.lookupIndex_of_some hm
      have hsame : (Op.add k v).onMap m = m := by
        funext k'
        exact if_neg fun hno => by rw [hm] at hno; cases hno.2
      rw [hi, if_pos (show (some i).isSome = true from rfl), hsame]
      exact ⟨chains, freeList, hr, Nat.le_succ _⟩
    | none =>
      obtain ⟨h', chains', freeList', hadd, -, hcount, hr'⟩ := add_of_none hr hm v hroom
      have hnone : h.lookupIndex k = none := by
        rw [hr.lookupIndex_eq]
        refine List.find?_eq_none.mpr fun i hi => ?_
        rw [hr.lookupIndex_of_none hm i hi]
        simp
      have hsame : (Op.add k v).onMap m = fun k' => if k' = k then some v else m k' := by
        funext k'
        simp [Op.onMap, hm]
      rw [hnone, hadd, hsame]
      exact ⟨chains', freeList', hr', Nat.le_of_eq hcount⟩
  | del k =>
    obtain ⟨chains', freeList', -, -, hcount, -, hr', -⟩ := hr.del k
    exact ⟨chains', freeList', hr', Nat.le_succ_of_le hcount⟩

/-- The run lemma: a table stays a map, by induction on the operations. -/
theorem run_rep (ops : List (Op κ β)) {h : UtpHash κ β} {chains : Nat → List Nat}
    {freeList : List Nat} {m : κ → Option β} (hr : Rep h chains [] freeList m)
    (hops : h.count + ops.length ≤ libutpHashUnused) :
    ∃ chains' freeList', Rep (h.run ops) chains' [] freeList' (ops.foldl Op.onMap m) := by
  induction ops generalizing h chains freeList m with
  | nil => exact ⟨chains, freeList, hr⟩
  | cons op ops ih =>
    rw [List.length_cons] at hops
    obtain ⟨chains', freeList', hr', hcount⟩ := apply_rep hr op (by omega)
    exact ih hr' (by omega)

/-- The table is the map that the operations make, and a loop over it has each entry once. -/
theorem run_map {N initial : Nat} (f : κ → UInt32) (hN : 0 < N ∧ N < libutpHashUnused)
    (hinit : 0 < initial ∧ initial ≤ libutpHashUnused) (ops : List (Op κ β))
    (hops : ops.length ≤ libutpHashUnused) :
    let h := (create N initial f).run ops
    let m := ops.foldl Op.onMap fun _ => none
    let entries := (h.walk (h.count + 1) .init).filterMap h.entry
    (∀ k, h.lookup k = m k) ∧ (entries.map Prod.fst).Nodup ∧
      ∀ k v, (k, v) ∈ entries ↔ m k = some v := by
  intro h m entries
  obtain ⟨chains, freeList, hr⟩ := run_rep ops (Rep.create f hN hinit)
    (by rw [show (create N initial f : UtpHash κ β).count = 0 from rfl, Nat.zero_add]; exact hops)
  have hr : Rep h chains [] freeList m := hr
  have hentries : entries = ((List.range h.N).flatMap chains).filterMap h.entry := by
    refine congrArg (List.filterMap h.entry) (walk_eq hr (.init h chains) ?_)
    rw [← hr.count]
    exact Nat.lt_succ_self _
  refine ⟨hr.lookup_eq, ?_, fun k v => ?_⟩
  · have hkeys := hr.keys_nodup.filterMap (f := id) fun _ _ _ h1 h2 => h1.trans h2.symm
    rw [List.filterMap_map] at hkeys
    rw [hentries, List.map_filterMap]
    exact hkeys
  · rw [hentries, List.mem_filterMap]
    constructor
    · rintro ⟨i, hi, hentry⟩
      obtain ⟨b, hb, hi⟩ := List.mem_flatMap.mp hi
      obtain ⟨k', v', hentry', -, hk'⟩ := hr.entry b (List.mem_range.mp hb) i hi
      rw [hentry] at hentry'
      obtain ⟨rfl, rfl⟩ := Prod.mk.inj (Option.some.inj hentry')
      exact hk'
    · intro hk
      obtain ⟨i, hi, hentry⟩ := hr.stored k v hk
      exact ⟨i, Rep.mem_cells (mkidx_lt h hr.buckets.1 k) hi, hentry⟩

/-- Two keys in one bucket, and the first one is deleted. -/
theorem run_map_collision :
    ((create 79 15 (fun k : Nat => UInt32.ofNat k)).run
      [.add 1 10, .add 80 20, .del 1, .add 2 30]).lookup 80 = some 20 :=
  (run_map _ (by decide) (by decide) _ (by decide)).1 80

end UtpHash

end EChannel.LibUtp
