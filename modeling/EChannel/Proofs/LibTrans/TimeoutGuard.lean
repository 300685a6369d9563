import EChannel.LibTrans.UtpTimer

/-!
# `EChannel.Proofs.LibTrans.TimeoutGuard`: the guard of the timeouts and the clock's wrap

The difference that the guard compares is taken modulo 2^64, of values that are congruent to
the clock modulo 2^32. So it is the elapsed time or larger by a multiple of 2^32
(`toNat_sub_lastTime`), and the guard never takes a second for less. `early_cases` has the two
ways in which it takes less for a second: the clock has passed 2^31, where an `int` becomes
negative, or the value is the one that `onInit` has stored, which is not negative as it should
be.

`lastTime_eq` is the invariant of a run: `m_last_time` is the clock of the last call, in one of
the two forms.
-/

set_option autoImplicit false

namespace EChannel.LibTrans

namespace UtpTimer

/-- The milliseconds from `a` to `b` on a clock that wraps around. -/
def elapsed (a b : UInt32) : Nat := (b - a).toNat

/-- The clock `a` as `m_last_time` has it: from `onInit` when it is `initial`, else from one of
the slots. -/
def stored (initial : Bool) (a : UInt32) : UInt64 :=
  if initial then utpDefaultGetMilliseconds a else ofInt (curTime a)

/-! ### The difference -/

/-- The conversion of an `int` extends the sign. -/
theorem toNat_ofInt_curTime (tick : UInt32) :
    (ofInt (curTime tick)).toNat =
      if tick.toNat < 2147483648 then tick.toNat else tick.toNat + 18446744069414584320 := by
  have hlt := tick.toNat_lt
  have hmsb : tick.toBitVec.msb = decide (2147483648 ≤ tick.toNat) := BitVec.msb_eq_decide _
  show (BitVec.signExtend 64 (BitVec.setWidth 32 (BitVec.setWidth 64 tick.toBitVec))).toNat = _
  rw [BitVec.setWidth_setWidth_of_le _ (by decide), BitVec.setWidth_eq, BitVec.toNat_signExtend,
    BitVec.toNat_setWidth, hmsb]
  show tick.toNat % 2 ^ 64 + _ = _
  by_cases htick : tick.toNat < 2147483648
  · rw [if_pos htick, if_neg (by simpa using htick)]
    omega
  · rw [if_neg htick, if_pos (by simpa using htick)]
    omega

/-- The stored time: the sign of a tick fills the upper half, but not in the first one. -/
theorem toNat_stored (initial : Bool) (a : UInt32) :
    (stored initial a).toNat = if initial = true ∨ a.toNat < 2147483648 then a.toNat
      else a.toNat + 18446744069414584320 := by
  cases initial with
  | true =>
    show (BitVec.setWidth 64 a.toBitVec).toNat = _
    have hlt := a.toNat_lt
    rw [BitVec.toNat_setWidth, if_pos (Or.inl rfl)]
    exact Nat.mod_eq_of_lt (Nat.lt_trans hlt (by decide))
  | false =>
    show (ofInt (curTime a)).toNat = _
    rw [toNat_ofInt_curTime]
    simp

/-- The elapsed time is the difference of the ticks modulo 2^32. -/
theorem elapsed_eq (a b : UInt32) : elapsed a b = (4294967296 - a.toNat + b.toNat) % 4294967296 :=
  UInt32.toNat_sub b a

/-- The difference is the elapsed time, up to a multiple of 2^32. -/
theorem toNat_sub_mod (initial : Bool) (a b : UInt32) :
    (ofInt (curTime b) - stored initial a).toNat % 4294967296 = elapsed a b := by
  have ha := a.toNat_lt
  have hb := b.toNat_lt
  rw [UInt64.toNat_sub, toNat_ofInt_curTime, toNat_stored, elapsed_eq]
  split <;> split <;> omega

/-- It is the elapsed time itself unless the clock has passed 2^31 or the stored value should be
negative. -/
theorem toNat_sub_eq {initial : Bool} {a b : UInt32} (hle : elapsed a b ≤ 1000)
    (hcross : ¬ (a.toNat < 2147483648 ∧ 2147483648 ≤ b.toNat))
    (hinit : ¬ (initial = true ∧ 2147483648 ≤ a.toNat)) :
    (ofInt (curTime b) - stored initial a).toNat = elapsed a b := by
  have ha := a.toNat_lt
  have hb := b.toNat_lt
  rw [elapsed_eq] at hle
  rw [UInt64.toNat_sub, toNat_ofInt_curTime, toNat_stored, elapsed_eq]
  by_cases hstored : initial = true ∨ a.toNat < 2147483648
  · have hlow : a.toNat < 2147483648 := by
      rcases hstored with h | h
      · exact Nat.lt_of_not_le fun hge => hinit ⟨h, hge⟩
      · exact h
    rw [if_pos hstored]
    split <;> omega
  · rw [if_neg hstored]
    have hhigh : 2147483648 ≤ a.toNat := Nat.le_of_not_lt fun h => hstored (Or.inr h)
    split <;> omega

/-! ### The guard -/

/-- When the guard lets `utp_check_timeouts` be called. -/
theorem expired_iff (lastTime : UInt64) (tick : UInt32) :
    expired lastTime tick = true ↔ 1000 < (ofInt (curTime tick) - lastTime).toNat := by
  rw [expired, decide_eq_true_iff]
  exact UInt64.lt_iff_toNat_lt

/-- More than a second is never taken for less. -/
theorem expired_of_lt_elapsed (initial : Bool) {a b : UInt32} (h : 1000 < elapsed a b) :
    expired (stored initial a) b = true := by
  rw [expired_iff]
  have hmod := toNat_sub_mod initial a b
  have hle := Nat.mod_le (ofInt (curTime b) - stored initial a).toNat 4294967296
  omega

/-- Less than a second is taken for more in two cases. -/
theorem early_cases {initial : Bool} {a b : UInt32} (h : expired (stored initial a) b = true)
    (hle : elapsed a b ≤ 1000) :
    (a.toNat < 2147483648 ∧ 2147483648 ≤ b.toNat) ∨
      (initial = true ∧ 2147483648 ≤ a.toNat) := by
  by_contra hnot
  have hsub := toNat_sub_eq hle (fun h => hnot (Or.inl h)) fun h => hnot (Or.inr h)
  rw [expired_iff, hsub] at h
  omega

/-! ### Runs of ticks -/

/-- A tick calls `utp_check_timeouts` and stores the clock, or it leaves both as they are. -/
theorem step_cases (t : UtpTimer) (x : Tick) :
    expired t.lastTime x.clock = true ∧ (t.step x).lastTime = stored false x.clock ∧
        (t.step x).checks = t.checks ++ [x.clock] ∨
      expired t.lastTime x.clock = false ∧ (t.step x).lastTime = t.lastTime ∧
        (t.step x).checks = t.checks := by
  have hcheck : ∀ (u : UtpTimer) (c : UInt32), expired u.lastTime c = true ∧
      (u.checkTimeouts c).lastTime = stored false c ∧
        (u.checkTimeouts c).checks = u.checks ++ [c] ∨
      expired u.lastTime c = false ∧ (u.checkTimeouts c).lastTime = u.lastTime ∧
        (u.checkTimeouts c).checks = u.checks := by
    intro u c
    cases hexp : expired u.lastTime c with
    | true =>
      rw [checkTimeouts, if_pos hexp]
      exact Or.inl ⟨rfl, rfl, rfl⟩
    | false =>
      rw [checkTimeouts, if_neg (by rw [hexp]; decide)]
      exact Or.inr ⟨rfl, rfl, rfl⟩
  cases x with
  | checkUtp recvQueueEmpty clock =>
    -- The acknowledgements come first, and they touch neither field.
    cases recvQueueEmpty with
    | true => exact hcheck { t with deferredAcks := t.deferredAcks + 1 } clock
    | false => exact hcheck t clock
  | processLoop clock => exact hcheck t clock

/-- The clock of the last call, or of `onInit` when there was none. -/
def lastCall (start : UInt32) (t : UtpTimer) : UInt32 := t.checks.getLast?.getD start

/-- The invariant of a run: `m_last_time` is the clock of the last call, or the one that `onInit`
has stored. -/
def Keeps (start : UInt32) (t : UtpTimer) : Prop :=
  t.lastTime = stored t.checks.isEmpty (lastCall start t)

/-- The start of the timer is kept from the beginning. -/
theorem keeps_onInit (start : UInt32) : Keeps start (onInit start) := rfl

/-- A tick keeps the invariant. -/
theorem Keeps.step {start : UInt32} {t : UtpTimer} (h : Keeps start t) (x : Tick) :
    Keeps start (t.step x) := by
  rcases t.step_cases x with ⟨-, hlast, hchecks⟩ | ⟨-, hlast, hchecks⟩
  · have hcalled : (t.checks ++ [x.clock]).isEmpty = false := by cases t.checks <;> rfl
    rw [Keeps, hlast, lastCall, hchecks, List.getLast?_concat, Option.getD_some, hcalled]
  · rw [Keeps, hlast, lastCall, hchecks]
    exact h

/-- Any number of ticks keep the invariant. -/
theorem Keeps.ticks {start : UInt32} : ∀ (run : List Tick) {t : UtpTimer}, Keeps start t →
    Keeps start (t.ticks run)
  | [], _, h => h
  | x :: run, _, h => Keeps.ticks run (h.step x)

/-- The calls that were made stay recorded, and without a new one nothing is stored. -/
theorem ticks_checks (run : List Tick) : ∀ t : UtpTimer, ∃ calls,
    (t.ticks run).checks = t.checks ++ calls ∧
      (calls = [] → (t.ticks run).lastTime = t.lastTime) := by
  induction run with
  | nil => exact fun t => ⟨[], (List.append_nil _).symm, fun _ => rfl⟩
  | cons x run ih =>
    intro t
    obtain ⟨calls, hchecks, hnone⟩ := ih (t.step x)
    rcases t.step_cases x with ⟨-, -, hstep⟩ | ⟨-, hlast, hstep⟩
    · refine ⟨x.clock :: calls, ?_, fun h => absurd h (List.cons_ne_nil _ _)⟩
      show ((t.step x).ticks run).checks = _
      rw [hchecks, hstep, List.append_assoc]
      rfl
    · refine ⟨calls, ?_, fun h => (hnone h).trans hlast⟩
      show ((t.step x).ticks run).checks = _
      rw [hchecks, hstep]

/-- There is a call up to the first tick that is more than a second behind the last call. -/
theorem exists_check {start : UInt32} {t : UtpTimer} (h : Keeps start t) (mid : List Tick)
    (x : Tick) (hx : 1000 < elapsed (lastCall start t) x.clock) :
    t.checks.length < (t.ticks (mid ++ [x])).checks.length := by
  obtain ⟨calls, hchecks, hnone⟩ := ticks_checks mid t
  have hrun : t.ticks (mid ++ [x]) = (t.ticks mid).step x := by
    rw [ticks, List.foldl_append]
    rfl
  rw [hrun]
  cases calls with
  | nil =>
    -- Nothing was stored in between, so the guard still has the clock of the last call.
    have hstored : t.lastTime = stored t.checks.isEmpty (lastCall start t) := h
    rcases (t.ticks mid).step_cases x with ⟨-, -, hstep⟩ | ⟨hexp, -, -⟩
    · rw [hstep, hchecks]
      simp
    · rw [hnone rfl, hstored, expired_of_lt_elapsed _ hx] at hexp
      cases hexp
  | cons call calls =>
    obtain ⟨calls', hstep, -⟩ := ticks_checks [x] (t.ticks mid)
    show _ < ((t.ticks mid).ticks [x]).checks.length
    rw [hstep, hchecks]
    simp only [List.length_append, List.length_cons]
    omega

/-- The guard is true whenever more than a second has elapsed since the stored value, and when it
is true before, the clock has passed 2^31 or the value is an initial one from 2^31 on. In a run
of ticks the stored value is the clock of the previous call, and `utp_check_timeouts` is called no
later than at the first tick that is more than a second behind that call. -/
theorem timeout_guard_survives_wrap :
    (∀ (initial : Bool) (a b : UInt32), 1000 < elapsed a b →
      expired (stored initial a) b = true) ∧
    (∀ (initial : Bool) (a b : UInt32), expired (stored initial a) b = true →
      elapsed a b ≤ 1000 → (a.toNat < 2147483648 ∧ 2147483648 ≤ b.toNat) ∨
        (initial = true ∧ 2147483648 ≤ a.toNat)) ∧
    ∀ (start : UInt32) (pre : List Tick),
      ((onInit start).ticks pre).lastTime = stored ((onInit start).ticks pre).checks.isEmpty
        (lastCall start ((onInit start).ticks pre)) ∧
      ∀ (mid : List Tick) (x : Tick),
        1000 < elapsed (lastCall start ((onInit start).ticks pre)) x.clock →
        ((onInit start).ticks pre).checks.length <
          (((onInit start).ticks pre).ticks (mid ++ [x])).checks.length := by
  refine ⟨fun initial a b h => expired_of_lt_elapsed initial h,
    fun initial a b h hle => early_cases h hle, fun start pre => ?_⟩
  have hkeeps := (keeps_onInit start).ticks pre
  exact ⟨hkeeps, fun mid x hx => exists_check hkeeps mid x hx⟩

-- Both boundaries, and an initial value from 2^31 on: 1 ms counts as more than a second.
example : expired (stored false 2147483000) 2147484001 = true ∧
    expired (stored false 4294967000) 705 = true ∧ expired (stored false 4294967000) 704 = false ∧
    expired (stored true 2147483648) 2147483649 = true := by decide

/-! ### Time that does not wrap -/

/-- Times less than 2^32 milliseconds apart show in the clock. -/
theorem elapsed_ofNat {s t : Nat} (hle : s ≤ t) (hlt : t < s + 4294967296) :
    elapsed (UInt32.ofNat s) (UInt32.ofNat t) = t - s := by
  rw [elapsed_eq, UInt32.toNat_ofNat', UInt32.toNat_ofNat']
  omega

/-- When the ticks are never 49 days apart, the first one that comes more than a second behind the
previous call makes a call, or one before it has. The times are those of the last call, of the
last tick that is within the second, and of the first one that is not. -/
theorem exists_check_of_times {start : UInt32} {pre mid : List Tick} {x : Tick} {s r t : Nat}
    (hlast : lastCall start ((onInit start).ticks pre) = UInt32.ofNat s)
    (hclock : x.clock = UInt32.ofNat t) (hsr : s ≤ r) (hr : r ≤ s + 1000) (ht : s + 1000 < t)
    (hgap : t < r + 4294966296) :
    ((onInit start).ticks pre).checks.length <
      (((onInit start).ticks pre).ticks (mid ++ [x])).checks.length := by
  refine exists_check ((keeps_onInit start).ticks pre) mid x ?_
  rw [hlast, hclock, elapsed_ofNat (by omega) (by omega)]
  omega

end UtpTimer

end EChannel.LibTrans
