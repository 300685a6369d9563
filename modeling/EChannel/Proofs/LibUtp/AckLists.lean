import EChannel.LibUtp.AckSockets
import EChannel.Proofs.LibUtp.Contexts

/-!
# `EChannel.Proofs.LibUtp.AckLists`: `ack_sockets` is a set

`Indexed a` says that `ida` and the array agree. Every operation keeps it, so the array has the
sockets with a pending acknowledgment once each, and `utp_issue_deferred_acks` ends with an empty
array after one acknowledgment for each of them.
-/

set_option autoImplicit false

namespace EChannel.LibUtp

namespace AckSockets

variable {σ : Type} {a : AckSockets σ} {conn : σ}

/-- `ida` is the index in the array, or -1. -/
structure Indexed (a : AckSockets σ) : Prop where
  nodup : a.sockets.Nodup
  index : ∀ (i : Nat) (s : σ), a.sockets[i]? = some s ↔ a.ida s = i
  absent : ∀ s, 0 ≤ a.ida s ∨ a.ida s = -1
  fault : a.fault = false

namespace Indexed

/-- A socket is in the array exactly when its index is not -1. -/
theorem mem_iff (h : Indexed a) (s : σ) : s ∈ a.sockets ↔ 0 ≤ a.ida s := by
  constructor
  · intro hs
    obtain ⟨i, hi⟩ := List.mem_iff_getElem?.mp hs
    rw [(h.index i s).mp hi]
    exact Int.natCast_nonneg i
  · intro hs
    refine List.mem_of_getElem? ((h.index (a.ida s).toNat s).mpr ?_)
    exact (Int.toNat_of_nonneg hs).symm

/-- No socket owes an ack at first. -/
theorem init : Indexed (AckSockets.init : AckSockets σ) := by
  refine ⟨List.nodup_nil, fun i s => ?_, fun s => Or.inr rfl, rfl⟩
  refine iff_of_false (by simp [AckSockets.init]) ?_
  show ¬ (-1 : Int) = i
  omega

variable [DecidableEq σ]

/-- A socket is put at the end of the array once. -/
theorem scheduleAck (h : Indexed a) (conn : σ) : Indexed (a.scheduleAck conn) := by
  unfold AckSockets.scheduleAck
  split
  · rename_i habsent
    have hnot : conn ∉ a.sockets := by
      rw [h.mem_iff, habsent]
      decide
    constructor
    case nodup => exact List.nodup_append.mpr ⟨h.nodup, List.nodup_singleton _,
      fun s hs s' hs' => by rintro rfl; exact hnot (List.mem_singleton.mp hs' ▸ hs)⟩
    case index =>
      intro i s
      show (a.sockets ++ [conn])[i]? = some s ↔ Function.update a.ida conn a.sockets.length s = i
      have hold := h.index i s
      rw [Function.update_apply, List.getElem?_append]
      grind
    case absent =>
      intro s
      show 0 ≤ Function.update a.ida conn a.sockets.length s ∨
        Function.update a.ida conn a.sockets.length s = -1
      by_cases hs : s = conn
      · rw [hs, Function.update_self]
        exact Or.inl (Int.natCast_nonneg _)
      · rw [Function.update_of_ne hs]
        exact h.absent s
    case fault => exact h.fault
  · exact h

/-- The last socket of the array moves to the place of one that goes. -/
theorem removeSocket_eq (h : Indexed a) (hmem : 0 ≤ a.ida conn) :
    ∃ last l, a.ida last = (a.sockets.length - 1 : Nat) ∧
      l = (a.sockets.set (a.ida conn).toNat last).dropLast ∧
      List.Perm a.sockets (conn :: l) ∧
      a.removeSocketFromAckList conn = { a with
        sockets := l
        ida := fun s => if s = conn then -1 else if s = last then a.ida conn else a.ida s } := by
  obtain ⟨l₁, l₂, hl⟩ := List.append_of_mem ((h.mem_iff conn).mpr hmem)
  have hida : a.ida conn = l₁.length := (h.index l₁.length conn).mp (by rw [hl]; simp)
  obtain ⟨l₃, hmove, hperm⟩ := UtpContext.moveUpLast_perm l₁ l₂ conn
  obtain ⟨last, hlast⟩ : ∃ last, a.sockets.getLast? = some last := by
    rw [hl]
    exact ⟨_, List.getLast?_eq_some_getLast (by simp)⟩
  have hlastIda : a.ida last = (a.sockets.length - 1 : Nat) := by
    rw [← h.index, ← List.getLast?_eq_getElem?]
    exact hlast
  have hpos : 0 < a.sockets.length := by
    rw [hl, List.length_append, List.length_cons]
    omega
  have hok : a.lastOk last = true := by
    unfold lastOk
    rw [hlastIda, Int.toNat_natCast, ← List.getLast?_eq_getElem?, hlast]
    simp only [decide_eq_true_eq, and_true]
    omega
  have hsockets : (a.sockets.set (a.ida conn).toNat last).dropLast = l₁ ++ l₃ := by
    rw [hida, Int.toNat_natCast, ← hmove, ← hl]
    unfold UtpContext.moveUpLast
    rw [hlast]
  -- `ida` of the socket is read again after that of the last one has changed.
  have hsame : Function.update a.ida last (a.ida conn) conn = a.ida conn := by
    rw [Function.update_apply]
    split <;> rfl
  refine ⟨last, _, hlastIda, rfl, ?_, ?_⟩
  · rw [hsockets, hl]
    exact List.perm_middle.trans ((hperm.symm.append_left l₁).cons conn)
  · unfold AckSockets.removeSocketFromAckList
    rw [if_pos hmem, hlast]
    dsimp only
    rw [hsame, hok, h.fault]
    congr 1
    funext s
    rw [Function.update_apply, Function.update_apply]

/-- The last socket moves into the place of the one that is removed. -/
theorem removeSocketFromAckList (h : Indexed a) (conn : σ) :
    Indexed (a.removeSocketFromAckList conn) ∧
      (a.removeSocketFromAckList conn).acks = a.acks ∧
      (0 ≤ a.ida conn → List.Perm a.sockets (conn :: (a.removeSocketFromAckList conn).sockets)) ∧
      ∀ s, 0 ≤ (a.removeSocketFromAckList conn).ida s ↔ s ≠ conn ∧ 0 ≤ a.ida s := by
  by_cases hmem : 0 ≤ a.ida conn
  · obtain ⟨last, l, hlast, hl, hperm, heq⟩ := h.removeSocket_eq hmem
    rw [heq]
    refine ⟨⟨?_, fun i s => ?_, fun s => ?_, h.fault⟩, rfl, fun _ => hperm, fun s => ?_⟩
    · exact (List.nodup_cons.mp (hperm.nodup_iff.mp h.nodup)).2
    · dsimp only
      rw [hl, List.getElem?_dropLast, List.length_set, List.getElem?_set]
      have hs := h.index i s
      have hconn := h.index i conn
      have hend := h.index (a.sockets.length - 1) last
      have hend' := h.index (a.sockets.length - 1) s
      have hat := h.index i last
      grind
    · dsimp only
      split
      · exact Or.inr rfl
      · split
        · exact Or.inl hmem
        · exact h.absent s
    · dsimp only
      split
      · rename_i hs
        exact iff_of_false (by decide) fun hno => hno.1 hs
      · rename_i hs
        split
        · rename_i hs'
          have hend : 0 ≤ a.ida s := by
            rw [hs', hlast]
            exact Int.natCast_nonneg _
          exact iff_of_true hmem ⟨hs, hend⟩
        · exact ⟨fun hpos => ⟨hs, hpos⟩, fun hpos => hpos.2⟩
  · have heq : a.removeSocketFromAckList conn = a := if_neg hmem
    rw [heq]
    refine ⟨h, rfl, fun hno => absurd hno hmem, fun s => ?_⟩
    constructor
    · intro hs
      refine ⟨?_, hs⟩
      rintro rfl
      exact hmem hs
    · exact fun hs => hs.2

/-- `send_ack` takes the socket out, and a second time changes nothing. -/
theorem sendAck_eq (h : Indexed a) (conn : σ) :
    a.sendAck conn = a.removeSocketFromAckList conn := by
  obtain ⟨-, -, -, hida⟩ := h.removeSocketFromAckList conn
  exact if_neg fun hno => ((hida conn).mp hno).1 rfl

/-- The loop goes on until the array is empty, and has every socket of it once. -/
theorem issueLoop (h : Indexed a) (n : Nat) (hn : a.sockets.length ≤ n) :
    Indexed (a.issueLoop n) ∧ (a.issueLoop n).sockets = [] ∧
      ∃ l, (a.issueLoop n).acks = a.acks ++ l ∧ List.Perm l a.sockets := by
  induction n generalizing a with
  | zero =>
    have hnil : a.sockets = [] := List.length_eq_zero_iff.mp (Nat.le_zero.mp hn)
    exact ⟨h, hnil, [], (List.append_nil _).symm, hnil ▸ List.Perm.refl _⟩
  | succ n ih =>
    unfold AckSockets.issueLoop
    cases hl : a.sockets.head? with
    | none =>
      have hnil : a.sockets = [] := List.head?_eq_none_iff.mp hl
      exact ⟨h, hnil, [], (List.append_nil _).symm, hnil ▸ List.Perm.refl _⟩
    | some conn =>
      have h0 : Indexed { a with acks := a.acks ++ [conn] } := { h with }
      have hmem : 0 ≤ a.ida conn := (h.mem_iff conn).mp (List.mem_of_mem_head? hl)
      obtain ⟨h1, hacks, hperm, -⟩ := h0.removeSocketFromAckList conn
      have hperm : List.Perm a.sockets _ := hperm hmem
      have hlen := hperm.length_eq
      rw [List.length_cons] at hlen
      dsimp only
      rw [h0.sendAck_eq]
      obtain ⟨h2, hempty, l, hacks', hl'⟩ := ih h1 (by omega)
      refine ⟨h2, hempty, conn :: l, ?_, (hl'.cons conn).trans hperm.symm⟩
      rw [hacks', hacks, List.append_assoc, List.singleton_append]

/-- All sockets of the array send their acks, and the array is empty then. -/
theorem issueDeferredAcks (h : Indexed a) :
    Indexed a.issueDeferredAcks ∧ a.issueDeferredAcks.sockets = [] ∧
      ∃ l, a.issueDeferredAcks.acks = a.acks ++ l ∧ List.Perm l a.sockets :=
  h.issueLoop a.sockets.length (Nat.le_refl _)

end Indexed

/-- The array has the sockets of `pending`. -/
structure Holds (a : AckSockets σ) (pending : σ → Bool) : Prop where
  indexed : Indexed a
  member : ∀ s, 0 ≤ a.ida s ↔ pending s = true

variable [DecidableEq σ] {pending : σ → Bool}

/-- The step lemma: the array and the indices follow what is owed. -/
theorem apply_holds (h : Holds a pending) (op : Op σ) :
    Holds (a.apply op) (op.onPending pending) := by
  cases op with
  | schedule conn =>
    refine ⟨h.indexed.scheduleAck conn, fun s => ?_⟩
    show 0 ≤ (a.scheduleAck conn).ida s ↔ Function.update pending conn true s = true
    have hold := h.member s
    unfold scheduleAck
    split
    · show 0 ≤ Function.update a.ida conn a.sockets.length s ↔ _
      by_cases hs : s = conn
      · rw [hs, Function.update_self, Function.update_self]
        exact iff_of_true (Int.natCast_nonneg _) rfl
      · rw [Function.update_of_ne hs, Function.update_of_ne hs]
        exact hold
    · rename_i hin
      by_cases hs : s = conn
      · rw [hs, Function.update_self]
        exact iff_of_true ((h.indexed.absent conn).resolve_right hin) rfl
      · rw [Function.update_of_ne hs]
        exact hold
  | send conn =>
    obtain ⟨h1, -, -, hida⟩ := h.indexed.removeSocketFromAckList conn
    refine ⟨h1, fun s => (hida s).trans ?_⟩
    show s ≠ conn ∧ 0 ≤ a.ida s ↔ Function.update pending conn false s = true
    by_cases hs : s = conn
    · rw [hs, Function.update_self]
      exact iff_of_false (fun hno => hno.1 rfl) (by decide)
    · rw [Function.update_of_ne hs, ← h.member s]
      exact and_iff_right hs
  | issue =>
    obtain ⟨h1, hempty, -⟩ := h.indexed.issueDeferredAcks
    refine ⟨h1, fun s => iff_of_false (fun hno => ?_) (by simp [Op.onPending])⟩
    have hmem := (h1.mem_iff s).mpr hno
    rw [hempty] at hmem
    cases hmem

/-- The run lemma, by induction on the operations. -/
theorem run_holds (ops : List (Op σ)) {a : AckSockets σ} {pending : σ → Bool}
    (h : Holds a pending) : Holds (a.run ops) (ops.foldl Op.onPending pending) := by
  induction ops generalizing a pending with
  | nil => exact h
  | cons op ops ih => exact ih (apply_holds h op)

/-- `ack_sockets` has each socket that owes an acknowledgment once, at its `ida`, and no other.
`utp_issue_deferred_acks` comes to an end and sends each of them one acknowledgment. -/
theorem run_acks (ops : List (Op σ)) :
    let a := (init : AckSockets σ).run ops
    let pending := ops.foldl Op.onPending fun _ => false
    a.fault = false ∧ (∀ (i : Nat) (s : σ), a.sockets[i]? = some s ↔ a.ida s = i) ∧
      (∀ s, s ∈ a.sockets ↔ pending s = true) ∧
      a.issueDeferredAcks.sockets = [] ∧
      ∃ l, a.issueDeferredAcks.acks = a.acks ++ l ∧ l.Nodup ∧ ∀ s, s ∈ l ↔ pending s = true := by
  intro a pending
  have h : Holds a pending := run_holds ops
    ⟨Indexed.init, fun s => iff_of_false (by show ¬ (0 : Int) ≤ -1; decide) (by decide)⟩
  have hmem (s : σ) : s ∈ a.sockets ↔ pending s = true :=
    (h.indexed.mem_iff s).trans (h.member s)
  obtain ⟨-, hempty, l, hacks, hperm⟩ := h.indexed.issueDeferredAcks
  exact ⟨h.indexed.fault, h.indexed.index, hmem, hempty, l, hacks,
    hperm.nodup_iff.mpr h.indexed.nodup, fun s => hperm.mem_iff.trans (hmem s)⟩

end AckSockets

end EChannel.LibUtp
