import EChannel.LibTrans.Negotiation
import EChannel.Proofs.LibTrans.SdpRoundTrip

/-!
# `EChannel.Proofs.LibTrans.NegoStart`: a negotiation that never starts

`updateRemoteSDP` keeps the text of the peer, and `onICEInit` takes it up again when the transport
was not initialised before. There is no such second try for the session: `iceAppStartNego` gives
up without one, and `getLocalSDP`, which creates it, drops the description of the peer and starts
nothing. A session that is created behind `onICEInit` comes too late for every text that was
supplied before it. Where the session is in time, `onICEInit` starts with the last text only.

A start that fails may stop the session, and the next `getLocalSDP` then makes another one. The
texts that came in between are lost in the same way (`Known` are those that the sessions before
have taken up).

`Joined` is the invariant of runs in which nothing is lost (`InTime`). `Joined.inTime` is the
other direction: `always_started_iff` is the exact condition. Where no start stops its session the
condition has a simpler form (`allSteps_inTime_iff`).
-/

set_option autoImplicit false

namespace EChannel.LibTrans

open CText

/-! ### Valid texts -/

variable {pj : PjSock} {sdp : QString}

/-- A text that passes the checks has candidates. -/
theorem cand_of_checkRemote {st st' : InputState} (h : checkRemote pj st = .ok st') :
    st'.rem.cand.length ≠ 0 := by
  unfold checkRemote at h
  split at h
  · cases h
  · rename_i hcand
    split at h
    · cases h
    · cases haddr : readAddr pj st.comp0Addr st.comp0Port.toNat with
      | error stop =>
        rw [haddr] at h
        cases h
      | ok addr =>
        rw [haddr] at h
        cases h
        exact fun hlen => hcand (Or.inl hlen)

namespace NegoChannel

variable {c t : NegoChannel} {d : StartIce}

/-- A valid text has a description with candidates. -/
theorem inputRemote_of_describe (h : describe pj sdp = some d) :
    ∃ rem, icedemoInputRemote pj sdp = .ok (true, rem) ∧ rem.startIce = d ∧
      rem.cand.length ≠ 0 := by
  unfold describe at h
  split at h
  · rename_i rem hread
    refine ⟨rem, hread, Option.some.inj h, ?_⟩
    unfold icedemoInputRemote at hread
    split at hread
    · rename_i st hok
      obtain ⟨st₀, -, hcheck⟩ := bind_eq_ok.mp hok
      cases hread
      exact cand_of_checkRemote hcheck
    · cases hread
    · cases hread
  · cases h

/-- The empty text has no description. -/
theorem describe_nil (pj : PjSock) : describe pj [] = none := by
  have hread : icedemoInputRemote pj [] = .ok (false, resetRemoteInfo) := by
    rw [icedemoInputRemote, inputLines, if_pos rfl]
    rfl
  rw [describe, hread]

/-! ### What the calls do -/

/-- `negoWith` on a valid text starts the negotiation if there is a session. -/
theorem negoWith_spec (stopped : Bool) (hs : c.sInit = true) (hd : describe pj sdp = some d) :
    ∃ rem, c.negoWith pj sdp stopped =
      some { c with
        rem
        hasSess := c.hasSess && !stopped
        started := if c.hasSess then c.started ++ [d] else c.started
        tried := if c.hasSess then c.tried ++ [sdp] else c.tried } := by
  obtain ⟨rem, hread, rfl, hcand⟩ := inputRemote_of_describe hd
  refine ⟨rem, ?_⟩
  simp only [negoWith, if_pos hs, hread, iceAppStartNego]
  cases hsess : c.hasSess with
  | false =>
    -- "No ICE session, initialize first": the text is in `rem`, and nothing is started.
    rw [if_pos (Or.inl rfl)]
    simp
  | true =>
    rw [if_neg]
    · simp
    · rintro (hno | hno)
      · exact Bool.noConfusion hno
      · exact hcand hno

/-- `getLocalSDP` creates the session, if the transport is initialised, and starts nothing. -/
theorem getLocalSDP_spec (c : NegoChannel) (ok : Bool) :
    (c.getLocalSDP ok).isInitialized = c.isInitialized ∧ (c.getLocalSDP ok).sInit = c.sInit ∧
      (c.getLocalSDP ok).remoteSDP = c.remoteSDP ∧ (c.getLocalSDP ok).supplied = c.supplied ∧
      (c.getLocalSDP ok).started = c.started ∧ (c.getLocalSDP ok).tried = c.tried ∧
      (c.getLocalSDP ok).initReports = c.initReports ∧
      (c.getLocalSDP ok).hasSess = (c.hasSess || (c.sInit && ok)) := by
  unfold getLocalSDP localSdp
  by_cases hs : c.sInit = true
  · rw [if_pos hs]
    unfold iceAppInitSession
    by_cases hsess : c.hasSess = true
    · rw [if_pos hsess]
      exact ⟨rfl, rfl, rfl, rfl, rfl, rfl, rfl, by rw [hsess, Bool.true_or]⟩
    · rw [if_neg hsess, hs, eq_false_of_ne_true hsess, Bool.false_or, Bool.true_and]
      exact ⟨rfl, rfl, rfl, rfl, rfl, rfl, rfl, rfl⟩
  · rw [if_neg hs, eq_false_of_ne_true hs, Bool.false_and, Bool.or_false]
    exact ⟨rfl, rfl, rfl, rfl, rfl, rfl, rfl, rfl⟩

/-! ### The condition and the invariant -/

/-- The description of the text was taken up before, by a session that was there. -/
def Known (pj : PjSock) (c : NegoChannel) (sdp : QString) : Prop :=
  ∃ sdp' ∈ c.tried, describe pj sdp' = describe pj sdp

/-- The session is created before the transport is known to be initialised, or before a text is
supplied. The first start with a session finds one description only. Where a start has failed
and stopped its session, the texts that this session has taken up do not count again; a channel
that keeps its first session has none of these. -/
def InTime (pj : PjSock) (c : NegoChannel) : NegoAction → Prop
  | .getLocalSDP ok =>
    ok = true → c.hasSess = false → c.isInitialized = true → ∀ sdp ∈ c.supplied, Known pj c sdp
  | .onICEInit listener ok stopped =>
    c.isInitialized = true ∧ c.hasSess = true ∨
      c.hasSess = false ∧ ¬ (listener = true ∧ ok = true) ∨
      stopped = true ∧ c.remoteSDP ≠ [] ∨
      ∀ sdp ∈ c.supplied, describe pj sdp = describe pj c.remoteSDP ∨ Known pj c sdp
  | _ => True

/-- The three inputs are joined so far. -/
structure Joined (pj : PjSock) (c : NegoChannel) : Prop where
  sInit_of : c.isInitialized = true ∨ 0 < c.initReports → c.sInit = true
  valid : ∀ sdp ∈ c.supplied, (describe pj sdp).isSome = true
  latest : c.supplied = [] ∧ c.remoteSDP = [] ∨ c.remoteSDP ∈ c.supplied
  /-- Every text that is taken up starts the negotiation once. -/
  started_eq : c.started = c.tried.filterMap (describe pj)
  known : c.isInitialized = true → c.hasSess = true → ∀ sdp ∈ c.supplied, Known pj c sdp

/-- Nothing is supplied at first. -/
theorem joined_init (pj : PjSock) : Joined pj init where
  sInit_of h := by
    rcases h with h | h
    · exact Bool.noConfusion h
    · exact absurd h (Nat.lt_irrefl 0)
  valid _ h := by cases h
  latest := Or.inl ⟨rfl, rfl⟩
  started_eq := rfl
  known h := Bool.noConfusion h

/-- A text is known when pjnath was called with its description. -/
theorem mem_started_iff (h : c.started = c.tried.filterMap (describe pj))
    (hd : describe pj sdp = some d) : d ∈ c.started ↔ Known pj c sdp := by
  rw [h, List.mem_filterMap, Known, hd]

/-- In a state with the invariant, every start that is due was made. -/
theorem Joined.started (h : Joined pj c) : Started pj c := by
  intro hinit hsess sdp hmem d hd
  exact (mem_started_iff h.started_eq hd).mpr (h.known hinit hsess sdp hmem)

/-- With everything started, all texts are known. -/
theorem Started.known (h : Started pj c) (heq : c.started = c.tried.filterMap (describe pj))
    (hvalid : ∀ sdp ∈ c.supplied, (describe pj sdp).isSome = true)
    (hinit : c.isInitialized = true) (hsess : c.hasSess = true) :
    ∀ sdp ∈ c.supplied, Known pj c sdp := by
  intro sdp hmem
  obtain ⟨d, hd⟩ := Option.isSome_iff_exists.mp (hvalid sdp hmem)
  exact (mem_started_iff heq hd).mp (h hinit hsess sdp hmem d hd)

/-- With one more text taken up, one more start was made. -/
theorem filterMap_tried (h : c.started = c.tried.filterMap (describe pj))
    (hd : describe pj sdp = some d) :
    (if c.hasSess then c.started ++ [d] else c.started) =
      (if c.hasSess then c.tried ++ [sdp] else c.tried).filterMap (describe pj) := by
  split
  · rw [List.filterMap_append, ← h, List.filterMap_cons_some hd, List.filterMap_nil]
  · exact h

/-- What is known stays known. -/
theorem Known.append {sdps : List QString} (h : Known pj c sdp)
    (ht : t.tried = c.tried ++ sdps) : Known pj t sdp := by
  obtain ⟨sdp', hmem, hsame⟩ := h
  exact ⟨sdp', ht ▸ List.mem_append_left _ hmem, hsame⟩

/-! ### The steps -/

/-- What `updateRemoteSDP` does with a valid text. -/
theorem updateRemoteSDP_spec {stopped : Bool} (h : Joined pj c) (hd : describe pj sdp = some d)
    (ht : c.updateRemoteSDP pj sdp stopped = some t) :
    t.isInitialized = c.isInitialized ∧ t.sInit = c.sInit ∧ t.initReports = c.initReports ∧
      t.remoteSDP = sdp ∧ t.supplied = c.supplied ++ [sdp] ∧
      t.started = t.tried.filterMap (describe pj) ∧
      (c.isInitialized = true → c.hasSess = true → t.tried = c.tried ++ [sdp]) ∧
      (t.hasSess = true → c.hasSess = true) := by
  unfold updateRemoteSDP at ht
  dsimp only at ht
  by_cases hinit : c.isInitialized = true
  · obtain ⟨rem, hnego⟩ := negoWith_spec stopped
      (c := { c with remoteSDP := sdp, supplied := c.supplied ++ [sdp] })
      (h.sInit_of (Or.inl hinit)) hd
    rw [if_pos hinit, hnego] at ht
    cases ht
    exact ⟨rfl, rfl, rfl, rfl, rfl, filterMap_tried h.started_eq hd, fun _ hsess => if_pos hsess,
      fun hsess => (Bool.and_eq_true_iff.mp hsess).1⟩
  · -- The text is stored for `onICEInit`.
    rw [if_neg hinit] at ht
    cases ht
    exact ⟨rfl, rfl, rfl, rfl, rfl, h.started_eq, fun hi => absurd hi hinit, id⟩

/-- What `onICEInit` does. With a session it takes up the last text, if there is one. -/
theorem onICEInit_spec {listener ok stopped : Bool} (h : Joined pj c) (hrep : 0 < c.initReports)
    (ht : { c with initReports := c.initReports - 1 }.onICEInit pj listener ok stopped =
      some t) :
    t.isInitialized = true ∧ t.sInit = true ∧ t.remoteSDP = c.remoteSDP ∧
      t.supplied = c.supplied ∧ t.started = t.tried.filterMap (describe pj) ∧
      t.hasSess = ((c.hasSess || (listener && ok)) && !(stopped && decide (c.remoteSDP ≠ []))) ∧
      t.tried = if (c.hasSess || (listener && ok)) = true ∧ c.remoteSDP ≠ []
        then c.tried ++ [c.remoteSDP] else c.tried := by
  have hs := h.sInit_of (Or.inr hrep)
  unfold onICEInit at ht
  dsimp only at ht
  -- The state behind the slots of `initialized()`.
  generalize hc₁ : (if listener = true then
      getLocalSDP { c with initReports := c.initReports - 1, isInitialized := true } ok
    else { c with initReports := c.initReports - 1, isInitialized := true }) = c₁ at ht
  have hspec : c₁.isInitialized = true ∧ c₁.sInit = true ∧ c₁.remoteSDP = c.remoteSDP ∧
      c₁.supplied = c.supplied ∧ c₁.started = c.started ∧ c₁.tried = c.tried ∧
      c₁.hasSess = (c.hasSess || (listener && ok)) := by
    cases listener with
    | false =>
      rw [← hc₁, if_neg Bool.noConfusion, Bool.false_and, Bool.or_false]
      exact ⟨rfl, hs, rfl, rfl, rfl, rfl, rfl⟩
    | true =>
      rw [← hc₁, if_pos rfl, Bool.true_and]
      obtain ⟨hi, hsi, hr, hsup, hst, htr, -, hsess⟩ := getLocalSDP_spec
        { c with initReports := c.initReports - 1, isInitialized := true } ok
      refine ⟨hi, hsi.trans hs, hr, hsup, hst, htr, hsess.trans ?_⟩
      show (c.hasSess || (c.sInit && ok)) = _
      rw [hs, Bool.true_and]
  obtain ⟨hi, hsi, hr, hsup, hst, htr, hsess⟩ := hspec
  rw [← hr, ← htr, ← hsess]
  have heq : c₁.started = c₁.tried.filterMap (describe pj) := by rw [hst, htr, h.started_eq]
  by_cases hremote : c₁.remoteSDP = []
  · rw [if_pos hremote] at ht
    cases ht
    exact ⟨hi, hsi, rfl, hsup, heq, by simp [hremote], by simp [hremote]⟩
  · rw [if_neg hremote] at ht
    obtain ⟨-, hnil⟩ | hmem := h.latest
    · exact absurd (hr.trans hnil) hremote
    · obtain ⟨d, hd⟩ := Option.isSome_iff_exists.mp (h.valid _ hmem)
      rw [← hr] at hd
      obtain ⟨rem, hnego⟩ := negoWith_spec stopped hsi hd
      rw [hnego] at ht
      cases ht
      exact ⟨hi, hsi, rfl, hsup, filterMap_tried heq hd, by simp [hremote], by simp [hremote]⟩

/-- A valid text keeps the invariant. -/
theorem Joined.updateRemoteSDP {stopped : Bool} (h : Joined pj c)
    (hd : describe pj sdp = some d) (ht : c.updateRemoteSDP pj sdp stopped = some t) :
    Joined pj t := by
  obtain ⟨hi, hs, hrep, hr, hsup, hst, htried, hsess⟩ := updateRemoteSDP_spec h hd ht
  refine ⟨?_, ?_, ?_, hst, ?_⟩
  · rw [hi, hs, hrep]
    exact h.sInit_of
  · intro sdp' hmem
    rw [hsup] at hmem
    rcases List.mem_append.mp hmem with hmem | hmem
    · exact h.valid sdp' hmem
    · rw [List.mem_singleton.mp hmem, hd]
      rfl
  · -- The text that is kept is the one just supplied.
    right
    rw [hr, hsup]
    exact List.mem_append_right _ (List.mem_singleton.mpr rfl)
  · intro hinit hse sdp' hmem
    have hinit' : c.isInitialized = true := hi ▸ hinit
    have htr := htried hinit' (hsess hse)
    rw [hsup] at hmem
    rcases List.mem_append.mp hmem with hmem | hmem
    · exact (h.known hinit' (hsess hse) sdp' hmem).append htr
    · rw [List.mem_singleton.mp hmem]
      exact ⟨sdp, htr ▸ List.mem_append_right _ (List.mem_singleton.mpr rfl), rfl⟩

/-- A session that is made in time keeps the invariant. -/
theorem Joined.getLocalSDP (h : Joined pj c) {ok : Bool} (hc : InTime pj c (.getLocalSDP ok)) :
    Joined pj (c.getLocalSDP ok) := by
  obtain ⟨hi, hs, hr, hsup, hst, htr, hrep, hsess⟩ := getLocalSDP_spec c ok
  refine ⟨?_, ?_, ?_, ?_, ?_⟩
  · rw [hi, hs, hrep]
    exact h.sInit_of
  · rw [hsup]
    exact h.valid
  · rw [hsup, hr]
    exact h.latest
  · rw [hst, htr]
    exact h.started_eq
  · intro hinit hnew sdp' hmem
    rw [hi] at hinit
    rw [hsup] at hmem
    unfold Known
    rw [htr]
    by_cases hse : c.hasSess = true
    · exact h.known hinit hse sdp' hmem
    · -- The session is new, so that nothing was supplied that is not known.
      rw [hsess, eq_false_of_ne_true hse, Bool.false_or, Bool.and_eq_true] at hnew
      exact hc hnew.2 (eq_false_of_ne_true hse) hinit sdp' hmem

/-- A report that is delivered in time keeps the invariant. -/
theorem Joined.onICEInit {listener ok stopped : Bool} (h : Joined pj c)
    (hrep : 0 < c.initReports) (hc : InTime pj c (.onICEInit listener ok stopped))
    (ht : { c with initReports := c.initReports - 1 }.onICEInit pj listener ok stopped =
      some t) :
    Joined pj t := by
  obtain ⟨hi, hs, hr, hsup, hst, hsess, htried⟩ := onICEInit_spec h hrep ht
  refine ⟨fun _ => hs, ?_, ?_, hst, ?_⟩
  · rw [hsup]
    exact h.valid
  · rw [hsup, hr]
    exact h.latest
  · intro _ hse sdp' hmem
    rw [hsup] at hmem
    rw [hsess, Bool.and_eq_true, Bool.not_eq_true'] at hse
    obtain ⟨hthere, hlive⟩ := hse
    -- A text was supplied, so there is a last one.
    have hne : c.remoteSDP ≠ [] := by
      intro hnil
      rcases h.latest with ⟨hnone, -⟩ | hlast
      · rw [hnone] at hmem
        cases hmem
      · have hsome := h.valid _ hlast
        rw [hnil, describe_nil] at hsome
        cases hsome
    rw [if_pos ⟨hthere, hne⟩] at htried
    obtain ⟨hinit, hold⟩ | ⟨hno, hnot⟩ | ⟨hstop, -⟩ | hsame := hc
    · -- A second report: what is due was started before.
      exact (h.known hinit hold sdp' hmem).append htried
    · -- There is no session, so nothing is due.
      rw [hno, Bool.false_or, Bool.and_eq_true] at hthere
      exact absurd hthere hnot
    · -- The start fails, and the session is gone.
      rw [hstop, Bool.true_and, decide_eq_false_iff_not] at hlive
      exact absurd hne hlive
    · -- The last text stands for all of them that are not known.
      rcases hsame sdp' hmem with hsame | hknown
      · exact ⟨c.remoteSDP, htried ▸ List.mem_append_right _ (List.mem_singleton.mpr rfl),
          hsame.symm⟩
      · exact hknown.append htried

/-- A step that is in time keeps the invariant. -/
theorem Joined.step {a : NegoAction} (h : Joined pj c) (hv : a.Valid pj)
    (ht : c.step pj a = some t) (hc : InTime pj c a) : Joined pj t := by
  cases a with
  | iceInitResult =>
    cases ht
    exact ⟨fun _ => rfl, h.valid, h.latest, h.started_eq, h.known⟩
  | onICEInit listener ok stopped =>
    simp only [NegoChannel.step] at ht
    split at ht
    · cases ht
    · rename_i hrep
      exact h.onICEInit (Nat.pos_of_ne_zero hrep) hc ht
  | updateRemoteSDP sdp stopped =>
    obtain ⟨d, hd⟩ := Option.isSome_iff_exists.mp hv
    exact h.updateRemoteSDP hd ht
  | getLocalSDP ok =>
    cases ht
    exact h.getLocalSDP hc

/-- A step into a state with everything started was in time. -/
theorem Joined.inTime {a : NegoAction} (h : Joined pj c) (ht : c.step pj a = some t)
    (hst : Started pj t) : InTime pj c a := by
  cases a with
  | iceInitResult => trivial
  | updateRemoteSDP sdp stopped => trivial
  | getLocalSDP ok =>
    intro hok hno hinit
    cases ht
    obtain ⟨hi, -, -, hsup, hstd, htr, -, hsess⟩ := getLocalSDP_spec c ok
    have hs := h.sInit_of (Or.inl hinit)
    have hse : (c.getLocalSDP ok).hasSess = true := by
      rw [hsess, hs, hok, Bool.true_and, Bool.or_true]
    -- `getLocalSDP` starts nothing, so all texts were known before it.
    have hknown := hst.known (by rw [hstd, htr, h.started_eq]) (hsup ▸ h.valid)
      (hi.trans hinit) hse
    rw [hsup] at hknown
    intro sdp hmem
    have := hknown sdp hmem
    rwa [Known, htr] at this
  | onICEInit listener ok stopped =>
    simp only [NegoChannel.step] at ht
    split at ht
    · cases ht
    · rename_i hrep
      obtain ⟨hi, -, -, hsup, hstd, hsess, htried⟩ :=
        onICEInit_spec h (Nat.pos_of_ne_zero hrep) ht
      right
      by_cases hthere : (c.hasSess || (listener && ok)) = true
      · by_cases hstop : stopped = true ∧ c.remoteSDP ≠ []
        · exact Or.inr (Or.inl hstop)
        · -- The session is there after the step, so every text is known, or is the last one.
          right; right
          have hse : t.hasSess = true := by
            rw [hsess, hthere, Bool.true_and, Bool.not_eq_true', Bool.and_eq_false_iff,
              decide_eq_false_iff_not]
            by_cases hstopped : stopped = true
            · exact Or.inr fun hne => hstop ⟨hstopped, hne⟩
            · exact Or.inl (eq_false_of_ne_true hstopped)
          intro sdp hmem
          obtain ⟨sdp', hmem', hsame⟩ := hst.known hstd (hsup ▸ h.valid) hi hse sdp (hsup ▸ hmem)
          rw [htried] at hmem'
          split at hmem'
          · rcases List.mem_append.mp hmem' with hmem' | hmem'
            · exact Or.inr ⟨sdp', hmem', hsame⟩
            · rw [List.mem_singleton.mp hmem'] at hsame
              exact Or.inl hsame.symm
          · exact Or.inr ⟨sdp', hmem', hsame⟩
      · rw [Bool.or_eq_true, Bool.and_eq_true, not_or] at hthere
        exact Or.inl ⟨eq_false_of_ne_true hthere.1, hthere.2⟩

/-- In every state of a run, the negotiation was started with every description that is due, if
and only if all steps are in time. -/
theorem always_started_iff (pj : PjSock) (as : List NegoAction) (u : NegoChannel)
    (hvalid : ∀ a ∈ as, a.Valid pj) (hrun : run (step pj) init as = some u) :
    Always (step pj) (Started pj) init as ↔ AllSteps (step pj) (InTime pj) init as :=
  always_iff_allSteps_of (fun _ _ _ h hv hst hc => h.step hv hst hc) (fun _ h => h.started)
    (fun _ _ _ h _ hst hP => h.inTime hst hP) as init u (joined_init pj)
    (allSteps_of_forall as init hvalid) hrun

/-! ### Runs that keep their session -/

/-- No start in this step stops the session. -/
def KeepsSession : NegoAction → Prop
  | .onICEInit _ _ stopped => stopped = false
  | .updateRemoteSDP _ stopped => stopped = false
  | _ => True

/-- `InTime` for a channel whose session was never stopped. -/
def InTimeKept (pj : PjSock) (c : NegoChannel) : NegoAction → Prop
  | .getLocalSDP ok =>
    ok = true → c.hasSess = false → c.isInitialized = true → c.supplied = []
  | .onICEInit listener ok _ =>
    c.isInitialized = true ∧ c.hasSess = true ∨
      c.hasSess = false ∧ ¬ (listener = true ∧ ok = true) ∨
      ∀ sdp ∈ c.supplied, describe pj sdp = describe pj c.remoteSDP
  | _ => True

/-- What was taken up was taken up by the session that is there. -/
def SessionKept (c : NegoChannel) : Prop :=
  c.tried ≠ [] → c.isInitialized = true ∧ c.hasSess = true

/-- A start that stops no session. -/
theorem negoWith_kept (h : c.negoWith pj sdp false = some t) :
    t.isInitialized = c.isInitialized ∧ t.hasSess = c.hasSess ∧
      (t.tried ≠ [] → c.tried = [] → c.hasSess = true) := by
  unfold negoWith at h
  split at h
  · split at h
    · cases h
      unfold iceAppStartNego
      dsimp only
      cases hsess : c.hasSess with
      | false => exact ⟨rfl, rfl, fun hne hnil => absurd hnil hne⟩
      | true =>
        split
        · exact ⟨rfl, rfl, fun _ _ => rfl⟩
        · exact ⟨rfl, rfl, fun _ _ => rfl⟩
    · cases h
  · cases h

/-- A step that stops no session. -/
theorem SessionKept.step {a : NegoAction} (h : SessionKept c) (ha : KeepsSession a)
    (ht : c.step pj a = some t) : SessionKept t := by
  have hnego : ∀ {c₁ : NegoChannel} {sdp : QString}, SessionKept c₁ → c₁.isInitialized = true →
      c₁.negoWith pj sdp false = some t → SessionKept t := by
    intro c₁ sdp h₁ hinit hst hne
    obtain ⟨hi, hsess, htried⟩ := negoWith_kept hst
    rw [hi, hsess]
    by_cases hnil : c₁.tried = []
    · exact ⟨hinit, htried hne hnil⟩
    · exact h₁ hnil
  have hlocal : ∀ {c₁ : NegoChannel} (ok : Bool), SessionKept c₁ →
      SessionKept (c₁.getLocalSDP ok) := by
    intro c₁ ok h₁ hne
    obtain ⟨hi, -, -, -, -, htried, -, hsess⟩ := getLocalSDP_spec c₁ ok
    rw [htried] at hne
    rw [hi, hsess, (h₁ hne).2]
    exact ⟨(h₁ hne).1, rfl⟩
  cases a with
  | iceInitResult =>
    cases ht
    exact h
  | getLocalSDP ok =>
    cases ht
    exact hlocal ok h
  | updateRemoteSDP sdp stopped =>
    cases ha
    simp only [NegoChannel.step, NegoChannel.updateRemoteSDP] at ht
    have hstored : SessionKept { c with remoteSDP := sdp, supplied := c.supplied ++ [sdp] } := h
    split at ht
    · rename_i hinit
      exact hnego hstored hinit ht
    · cases ht
      exact hstored
  | onICEInit listener ok stopped =>
    cases ha
    simp only [NegoChannel.step, NegoChannel.onICEInit] at ht
    split at ht
    · cases ht
    · -- The channel is initialised now, and a slot may have made the session.
      have hready : SessionKept
          { c with initReports := c.initReports - 1, isInitialized := true } := fun hne =>
        ⟨rfl, (h hne).2⟩
      split at ht
      · have hinit := (getLocalSDP_spec
          { c with initReports := c.initReports - 1, isInitialized := true } ok).1
        split at ht
        · cases ht
          exact hlocal ok hready
        · exact hnego (hlocal ok hready) hinit ht
      · split at ht
        · cases ht
          exact hready
        · exact hnego hready rfl ht

/-- With the first session still there, or none yet, no text is known but those of this session. -/
theorem inTime_iff_of_kept {a : NegoAction} (h : SessionKept c) (ha : KeepsSession a) :
    InTime pj c a ↔ InTimeKept pj c a := by
  have hnone : c.tried = [] → ∀ sdp, ¬ Known pj c sdp := by
    rintro hnil sdp ⟨sdp', hmem, -⟩
    rw [hnil] at hmem
    cases hmem
  cases a with
  | iceInitResult => exact Iff.rfl
  | updateRemoteSDP sdp stopped => exact Iff.rfl
  | getLocalSDP ok =>
    simp only [InTime, InTimeKept]
    refine imp_congr_right fun _ => forall_congr' fun hno => imp_congr_right fun _ => ?_
    have hnil : c.tried = [] := by
      by_contra hne
      rw [(h hne).2] at hno
      cases hno
    rw [List.eq_nil_iff_forall_not_mem]
    exact forall₂_congr fun sdp _ => iff_false_intro (hnone hnil sdp)
  | onICEInit listener ok stopped =>
    cases ha
    simp only [InTime, InTimeKept]
    by_cases hnil : c.tried = []
    · simp [hnone hnil]
    · exact iff_of_true (Or.inl (h hnil)) (Or.inl (h hnil))

/-- As long as no start stops its session, nothing is lost exactly when the session is created
before the transport is known to be initialised or before a text is supplied, and the first start
with a session finds one description only. -/
theorem allSteps_inTime_iff (pj : PjSock) (as : List NegoAction) (u : NegoChannel)
    (hkeeps : ∀ a ∈ as, KeepsSession a) (hrun : run (step pj) init as = some u) :
    AllSteps (step pj) (InTime pj) init as ↔ AllSteps (step pj) (InTimeKept pj) init as := by
  have hinit : SessionKept init := fun hne => absurd rfl hne
  have hstep : ∀ c a t, SessionKept c → KeepsSession a → step pj c a = some t →
      InTimeKept pj c a → SessionKept t := fun _ _ _ h ha hst _ => h.step ha hst
  exact allSteps_iff hstep (fun _ _ _ h ha _ => inTime_iff_of_kept h ha) as init u hinit
    (allSteps_of_forall as init hkeeps) hrun

/-! ### A text that is in time, and one that is lost -/

/-- The lines of a description with one candidate. -/
def oneCandLines : List (List Char) :=
  ["a=ice-ufrag:5f0a".toList, "a=ice-pwd:1d2c3b4a".toList, "m=audio 4000 RTP/AVP 0".toList,
    "c=IN IP4 10.0.0.1".toList,
    "a=candidate:H0a000001 1 UDP 2130706431 10.0.0.1 4000 typ host".toList]

/-- The description with one candidate is valid. -/
theorem isSome_describe_oneCand : (describe inetSock (unlines oneCandLines)).isSome = true := by
  have hlines : ∀ line ∈ oneCandLines, IsLine line := by
    intro line hline
    have hall : (oneCandLines.all fun line => decide (line ≠ []) &&
        line.all fun c => decide (c ≠ nul) && !isEol c) = true := by decide +kernel
    have hthis := List.all_eq_true.mp hall line hline
    rw [Bool.and_eq_true, decide_eq_true_eq] at hthis
    exact ⟨hthis.1, plain_of_all hthis.2⟩
  rw [describe, icedemoInputRemote, inputLines_lines _ hlines]
  decide +kernel

/-- The state with the text and the session, and no start yet. -/
def unstartedWith (sdp : QString) (hasSess : Bool) : NegoChannel :=
  { init with
    isInitialized := true
    sInit := true
    hasSess
    rem := if hasSess then resetRemoteInfo else init.rem
    remoteSDP := sdp
    supplied := [sdp] }

/-- The session is created while `initialized()` is emitted, and the text comes later. -/
theorem run_session_first (hd : describe pj sdp = some d) :
    ∃ u, run (step pj) init [.iceInitResult, .onICEInit true true false,
      .updateRemoteSDP sdp false] = some u := by
  have hinit : (unstartedWith sdp true).sInit = true := rfl
  obtain ⟨rem, hnego⟩ := negoWith_spec false hinit hd
  have hreport : step pj init .iceInitResult = some init.iceInitResult := rfl
  have hinit : step pj init.iceInitResult (.onICEInit true true false) =
      some { init with isInitialized := true, sInit := true, hasSess := true,
                       rem := resetRemoteInfo } := rfl
  have hupdate : step pj { init with isInitialized := true, sInit := true, hasSess := true,
                                     rem := resetRemoteInfo } (.updateRemoteSDP sdp false) =
      negoWith pj (unstartedWith sdp true) sdp false := rfl
  rw [run_step hreport, run_step hinit, run_step (hupdate.trans hnego)]
  exact ⟨_, rfl⟩

/-- The text is stored, `iceAppStartNego` refuses it when the transport is initialised, and the
session is created behind that. -/
theorem run_session_late (hd : describe pj sdp = some d) :
    run (step pj) init [.iceInitResult, .updateRemoteSDP sdp false,
      .onICEInit false true false, .getLocalSDP true] = some (unstartedWith sdp true) := by
  have hinit : (unstartedWith sdp false).sInit = true := rfl
  obtain ⟨rem, hnego⟩ := negoWith_spec false hinit hd
  have hne : sdp ≠ [] := by
    intro hnil
    rw [hnil, describe_nil] at hd
    cases hd
  have hreport : step pj init .iceInitResult = some init.iceInitResult := rfl
  have hupdate : step pj init.iceInitResult (.updateRemoteSDP sdp false) =
      some { init.iceInitResult with remoteSDP := sdp, supplied := [sdp] } := rfl
  have hinit : step pj { init.iceInitResult with remoteSDP := sdp, supplied := [sdp] }
      (.onICEInit false true false) = negoWith pj (unstartedWith sdp false) sdp false := by
    show (if sdp = [] then _ else _) = _
    rw [if_neg hne]
    rfl
  rw [run_step hreport, run_step hupdate, run_step (hinit.trans hnego)]
  rfl

/-- The negotiation starts with a text that comes last. -/
theorem always_started_oneCand :
    Always (step inetSock) (Started inetSock) init
      [.iceInitResult, .onICEInit true true false,
        .updateRemoteSDP (unlines oneCandLines) false] := by
  obtain ⟨d, hd⟩ := Option.isSome_iff_exists.mp isSome_describe_oneCand
  obtain ⟨u, hrun⟩ := run_session_first hd
  refine (always_started_iff inetSock _ u ?_ hrun).mpr ?_
  · intro a ha
    rcases List.mem_cons.mp ha with rfl | ha
    · trivial
    · rcases List.mem_pair.mp ha with rfl | rfl
      · trivial
      · exact isSome_describe_oneCand
  · refine ⟨trivial, fun t ht => ?_⟩
    cases ht
    exact ⟨Or.inr (Or.inr (Or.inr fun sdp hmem => nomatch hmem)),
      fun t _ => ⟨trivial, fun _ _ => trivial⟩⟩

/-- The negotiation with a text is lost when the session is created last. -/
theorem not_always_started :
    ¬ ∀ (pj : PjSock) (as : List NegoAction) (u : NegoChannel), (∀ a ∈ as, a.Valid pj) →
      run (step pj) init as = some u → Started pj u := by
  intro h
  obtain ⟨d, hd⟩ := Option.isSome_iff_exists.mp isSome_describe_oneCand
  have hvalid : ∀ a ∈ [NegoAction.iceInitResult, .updateRemoteSDP (unlines oneCandLines) false,
      .onICEInit false true false, .getLocalSDP true], a.Valid inetSock := by
    intro a ha
    rcases List.mem_cons.mp ha with rfl | ha
    · trivial
    · rcases List.mem_cons.mp ha with rfl | ha
      · exact isSome_describe_oneCand
      · rcases List.mem_pair.mp ha with rfl | rfl
        · trivial
        · trivial
  have hstarted := h inetSock _ _ hvalid (run_session_late hd) rfl rfl _
    (List.mem_singleton.mpr rfl) d hd
  cases hstarted

end NegoChannel

end EChannel.LibTrans
