import EChannel.LibTrans.SdpBuffer
import EChannel.Proofs.LibTrans.SdpSafety

/-!
# `EChannel.Proofs.LibTrans.SdpEncoding`: the SDP text is written whole or not at all

There are two levels. On texts, each `PRINT` appends its text if there is room for it and for a
NUL; `Appends` says so of a function and is closed under sequence and loop, which gives
`encodeSession_eq`. On the buffer, `Refines` relates a function that writes to the one on texts:
when it returns, the buffer shows the text, and it never writes behind the end.

The room is compared as an `int`. From 2^31 on it is negative, and the first `PRINT` gives up with
any text. `encodeSession_whole_iff` has this as the exact condition. `localSdp` has a buffer of
4096 characters, and its text is whole or empty in any case.
-/

set_option autoImplicit false

namespace EChannel.LibTrans

open CText

/-! ### The text -/

section Text
variable {maxlen : Nat} {f g : List Char → Except Int (List Char)} {t t' : List Char}

/-- The function appends the text if there is room for it and for a NUL, and has a negative result
otherwise. -/
def Appends (maxlen : Nat) (f : List Char → Except Int (List Char)) (t : List Char) : Prop :=
  ∀ p, p.length < maxlen → (p.length + t.length < maxlen → f p = .ok (p ++ t)) ∧
    (maxlen ≤ p.length + t.length → ∃ e, e < 0 ∧ f p = .error e)

/-- Writing nothing appends the empty text. -/
theorem Appends.pure (maxlen : Nat) : Appends maxlen (fun p => .ok p) [] := by
  intro p hp
  refine ⟨fun _ => by rw [List.append_nil], fun hle => ?_⟩
  rw [List.length_nil] at hle
  omega

/-- One function behind another. -/
theorem Appends.bind (hf : Appends maxlen f t) (hg : Appends maxlen g t') :
    Appends maxlen (fun p => f p >>= g) (t ++ t') := by
  intro p hp
  dsimp only
  rw [List.length_append]
  by_cases hfit : p.length + t.length < maxlen
  · have hok := (hf p hp).1 hfit
    have hlen : (p ++ t).length = p.length + t.length := List.length_append
    have hnext := hg (p ++ t) (by omega)
    rw [hlen] at hnext
    have hbind : (f p >>= g) = g (p ++ t) := by
      rw [hok]
      rfl
    constructor
    · intro hlt
      rw [hbind, hnext.1 (by omega), List.append_assoc]
    · intro hle
      rw [hbind]
      exact hnext.2 (by omega)
  · obtain ⟨e, he, herr⟩ := (hf p hp).2 (Nat.le_of_not_lt hfit)
    refine ⟨fun hlt => by omega, fun _ => ⟨e, he, ?_⟩⟩
    rw [herr]
    rfl

/-- A loop of such functions. -/
theorem Appends.foldlM {α : Type} {h : List Char → α → Except Int (List Char)}
    {text : α → List Char} : ∀ l : List α, (∀ a ∈ l, Appends maxlen (fun p => h p a) (text a)) →
    Appends maxlen (fun p => l.foldlM h p) (l.flatMap text)
  | [], _ => Appends.pure maxlen
  | a :: l, hall => by
    have hfirst := hall a List.mem_cons_self
    have hrest := Appends.foldlM l fun b hb => hall b (List.mem_cons_of_mem _ hb)
    have hboth := hfirst.bind hrest
    intro p hp
    dsimp only
    rw [List.foldlM_cons, List.flatMap_cons]
    exact hboth p hp

/-- `PRINT`, with an `int` for the size. -/
theorem appends_printText (hmax : maxlen < 2147483648) (ht : t ≠ []) :
    Appends maxlen (fun p => printText maxlen p t) t := by
  have hpos : t.length ≠ 0 := fun h => ht (List.length_eq_zero_iff.mp h)
  intro p _
  have hroom : cInt (maxlen - p.length) = ((maxlen - p.length : Nat) : Int) := if_pos (by omega)
  constructor
  · intro hlt
    have hcond : ¬ (t.length = 0 ∨ cInt (maxlen - p.length) ≤ t.length) := by
      rw [hroom]
      omega
    exact if_neg hcond
  · intro hle
    have hcond : t.length = 0 ∨ cInt (maxlen - p.length) ≤ t.length := by
      rw [hroom]
      omega
    exact ⟨-etoosmall, by decide, if_pos hcond⟩

/-- The test for a full buffer behind the last `PRINT` is never met. -/
theorem Appends.checked (hf : Appends maxlen f t) :
    Appends maxlen (fun p => f p >>= fun p =>
      if p.length = maxlen then .error (-etoosmall) else .ok p) t := by
  intro p hp
  dsimp only
  by_cases hfit : p.length + t.length < maxlen
  · refine ⟨fun _ => ?_, fun hle => by omega⟩
    rw [(hf p hp).1 hfit]
    have hne : (p ++ t).length ≠ maxlen := by
      rw [List.length_append]
      omega
    exact if_neg hne
  · obtain ⟨e, he, herr⟩ := (hf p hp).2 (Nat.le_of_not_lt hfit)
    refine ⟨fun hlt => absurd hlt hfit, fun _ => ⟨e, he, ?_⟩⟩
    rw [herr]
    rfl

/-! ### The functions on texts -/

variable {pj : PjSock}

/-- The text of a candidate line. -/
def candLineText (pj : PjSock) (cand : PjIceSessCand) : List Char :=
  candText pj cand ++ (cand.type.name ++ ['\n'])

/-- The candidates of a component, as pjnath enumerates them. -/
def compCands (icest : PjIceStrans) (compId : Nat) : List PjIceSessCand :=
  (icest.lcand.filter fun cand => decide (cand.compId.toNat = compId)).take maxCand

/-- The lines of a component. -/
def compText (pj : PjSock) (icest : PjIceStrans) (comp : Nat) : List Char :=
  defAddrText pj comp (icest.defCand (comp + 1)).addr ++
    (compCands icest (comp + 1)).flatMap (candLineText pj)

/-- The SDP text of a session. -/
def sdpText (pj : PjSock) (icest : PjIceStrans) : List Char :=
  headerText ++ (authText icest ++ (List.range icest.runningCompCnt).flatMap (compText pj icest))

/-- The text of a candidate is not empty. -/
theorem candText_ne_nil (pj : PjSock) (cand : PjIceSessCand) : candText pj cand ≠ [] :=
  List.append_ne_nil_of_right_ne_nil _ (by decide)

/-- The text of a default address is not empty. -/
theorem defAddrText_ne_nil (pj : PjSock) (comp : Nat) (addr : PjSockaddr) :
    defAddrText pj comp addr ≠ [] := by
  unfold defAddrText
  split
  · exact List.append_ne_nil_of_right_ne_nil _ (List.cons_ne_nil _ _)
  · split
    · exact List.append_ne_nil_of_right_ne_nil _ (List.cons_ne_nil _ _)
    · exact List.append_ne_nil_of_right_ne_nil _ (List.cons_ne_nil _ _)

/-- `PRINT` in the part of the buffer behind `p`. -/
theorem printText_part (maxlen : Nat) (p q t : List Char) :
    printText (maxlen - p.length) q t =
      if t.length = 0 ∨ cInt (maxlen - (p ++ q).length) ≤ t.length then .error (-etoosmall)
      else .ok (q ++ t) := by
  rw [printText, Nat.sub_sub, List.length_append]

/-- `print_cand` in its part of the buffer, as two `PRINT` in the whole buffer. -/
theorem encodeCand_eq (pj : PjSock) (p : List Char) (cand : PjIceSessCand)
    (hp : p.length ≤ maxlen) :
    encodeCand pj maxlen p cand =
      ((printText maxlen p (candText pj cand) >>= fun p =>
          printText maxlen p (cand.type.name ++ ['\n'])) >>= fun p =>
        if p.length = maxlen then .error (-etoosmall) else .ok p) := by
  generalize hc : candText pj cand = c
  generalize hn : cand.type.name ++ ['\n'] = n
  have hfull : (c ++ n).length = maxlen - p.length ↔ (p ++ c ++ n).length = maxlen := by
    simp only [List.length_append]
    omega
  have hfirst := printText_part maxlen p [] c
  rw [List.append_nil, List.nil_append] at hfirst
  have hsecond := printText_part maxlen p c n
  -- Both sides make the same tests: two `PRINT`, and the one for a full buffer.
  by_cases h₁ : c.length = 0 ∨ cInt (maxlen - p.length) ≤ c.length
  · have hwhole : printText maxlen p c = .error (-etoosmall) := if_pos h₁
    rw [if_pos h₁] at hfirst
    simp only [encodeCand, printCand, hc, hfirst, hwhole, bind, Except.bind]
  · have hwhole : printText maxlen p c = .ok (p ++ c) := if_neg h₁
    rw [if_neg h₁] at hfirst
    by_cases h₂ : n.length = 0 ∨ cInt (maxlen - (p ++ c).length) ≤ n.length
    · have hwhole' : printText maxlen (p ++ c) n = .error (-etoosmall) := if_pos h₂
      rw [if_pos h₂] at hsecond
      simp only [encodeCand, printCand, hc, hn, hfirst, hwhole, hsecond, hwhole', bind, Except.bind]
    · have hwhole' : printText maxlen (p ++ c) n = .ok (p ++ c ++ n) := if_neg h₂
      rw [if_neg h₂] at hsecond
      by_cases h₃ : (c ++ n).length = maxlen - p.length
      · simp only [encodeCand, printCand, hc, hn, hfirst, hwhole, hsecond, hwhole', bind,
          Except.bind, if_pos h₃, if_pos (hfull.mp h₃)]
      · simp only [encodeCand, printCand, hc, hn, hfirst, hwhole, hsecond, hwhole', bind,
          Except.bind, if_neg h₃, if_neg fun h => h₃ (hfull.mpr h)]
        rw [List.append_assoc]

/-- `encodeCand` appends the line of its candidate. -/
theorem appends_encodeCand (pj : PjSock) (hmax : maxlen < 2147483648) (cand : PjIceSessCand) :
    Appends maxlen (fun p => encodeCand pj maxlen p cand) (candLineText pj cand) := by
  have hname : cand.type.name ++ ['\n'] ≠ [] :=
    List.append_ne_nil_of_right_ne_nil _ (List.cons_ne_nil _ _)
  have htwo := ((appends_printText hmax (candText_ne_nil pj cand)).bind
    (appends_printText hmax hname)).checked
  intro p hp
  dsimp only
  rw [encodeCand_eq pj p cand (Nat.le_of_lt hp)]
  exact htwo p hp

variable {icest : PjIceStrans}

/-- The queries of pjnath succeed for a component that is there. -/
theorem encodeComp_eq {comp : Nat} (hcomp : comp + 1 ≤ icest.compCnt) (p : List Char) :
    encodeComp pj maxlen icest p comp =
      (printText maxlen p (defAddrText pj comp (icest.defCand (comp + 1)).addr) >>= fun p =>
        (compCands icest (comp + 1)).foldlM (encodeCand pj maxlen) p) := by
  have hdef : icest.getDefCand (comp + 1) = .ok (icest.defCand (comp + 1)) :=
    if_pos ⟨Nat.succ_pos comp, hcomp⟩
  have henum : icest.enumCands (comp + 1) maxCand = .ok (compCands icest (comp + 1)) :=
    if_pos ⟨Nat.succ_pos comp, hcomp⟩
  unfold encodeComp
  rw [hdef, henum]
  rfl

/-- `encodeComp` appends the lines of its component. -/
theorem appends_encodeComp (pj : PjSock) (hmax : maxlen < 2147483648) {comp : Nat}
    (hcomp : comp + 1 ≤ icest.compCnt) :
    Appends maxlen (fun p => encodeComp pj maxlen icest p comp) (compText pj icest comp) := by
  have hcands := Appends.foldlM (compCands icest (comp + 1)) fun cand _ =>
    appends_encodeCand pj hmax cand
  have hboth := (appends_printText hmax
    (defAddrText_ne_nil pj comp (icest.defCand (comp + 1)).addr)).bind hcands
  intro p hp
  dsimp only
  rw [encodeComp_eq hcomp p]
  exact hboth p hp

/-- The text of a session, when its size is an `int`. -/
theorem encodeSession_eq (pj : PjSock) (hmax : maxlen < 2147483648)
    (hq : icest.runningCompCnt ≤ icest.compCnt) :
    ((sdpText pj icest).length < maxlen →
        encodeSession pj maxlen (some icest) = .ok (sdpText pj icest)) ∧
      (maxlen ≤ (sdpText pj icest).length →
        ∃ e, e < 0 ∧ encodeSession pj maxlen (some icest) = .error e) := by
  have hheader : headerText ≠ [] := by decide
  have hauth : authText icest ≠ [] := List.append_ne_nil_of_right_ne_nil _ (List.cons_ne_nil _ _)
  have hcomps := Appends.foldlM (List.range icest.runningCompCnt) fun comp hcomp =>
    appends_encodeComp pj hmax
      (Nat.le_trans (Nat.succ_le_of_lt (List.mem_range.mp hcomp)) hq)
  have hall := (appends_printText hmax hheader).bind
    ((appends_printText hmax hauth).bind hcomps.checked)
  rcases Nat.eq_zero_or_pos maxlen with hzero | hpos
  · -- There is no room for anything.
    subst hzero
    exact ⟨fun hlt => absurd hlt (Nat.not_lt_zero _), fun _ => ⟨-etoosmall, by decide, rfl⟩⟩
  · have hstart := hall [] hpos
    rw [List.nil_append, List.length_nil, Nat.zero_add] at hstart
    exact hstart

/-- From 2^31 on the first `PRINT` gives up. -/
theorem encodeSession_of_large (pj : PjSock) (icest : PjIceStrans) (hmax : 2147483648 ≤ maxlen)
    (hlt : maxlen < 4294967296) :
    encodeSession pj maxlen (some icest) = .error (-etoosmall) := by
  -- The room is negative as an `int`, so any result of `snprintf` is too large.
  have hroom : cInt maxlen = (maxlen : Int) - 4294967296 := if_neg (by omega)
  have hcond : headerText.length = 0 ∨ cInt (maxlen - ([] : List Char).length) ≤
      headerText.length := by
    rw [List.length_nil, Nat.sub_zero, hroom]
    omega
  have hfirst : printText maxlen [] headerText = .error (-etoosmall) := if_pos hcond
  simp only [encodeSession, hfirst, bind, Except.bind]

end Text

/-! ### The buffer -/

namespace SdpBuf

variable {maxlen : Nat} {b b' : SdpBuf} {text s : List Char}

/-- The buffer starts with the text, and nothing was written behind its end. -/
structure Shows (maxlen : Nat) (b : SdpBuf) (text : List Char) : Prop where
  holds : ∀ i, i < text.length → b.mem i = text.getD i nul
  length_le : text.length ≤ maxlen
  top_le : b.top ≤ maxlen

/-- A text that ends inside the buffer is stored inside it. -/
theorem store_top_le (hb : b.top ≤ maxlen) {p : Nat} (hs : p + s.length ≤ maxlen) :
    (b.store p s).top ≤ maxlen := by
  show (if s = [] then b.top else max b.top (p + s.length)) ≤ maxlen
  split
  · exact hb
  · exact Nat.max_le.mpr ⟨hb, hs⟩

/-- What is written behind the text leaves it alone. -/
theorem Shows.store (h : b.Shows maxlen text) (hs : text.length + s.length ≤ maxlen) :
    (b.store text.length s).Shows maxlen text := by
  refine ⟨fun i hi => ?_, h.length_le, store_top_le h.top_le hs⟩
  show (if text.length ≤ i ∧ i < text.length + s.length then _ else b.mem i) = _
  rw [if_neg (by omega)]
  exact h.holds i hi

/-- A text is written behind the text, with something behind it. -/
theorem Shows.append (h : b.Shows maxlen text) {t : List Char} (hs : s = t ++ [nul])
    (hlen : text.length + t.length < maxlen) :
    (b.store text.length s).Shows maxlen (text ++ t) := by
  have hslen : s.length = t.length + 1 := by
    rw [hs, List.length_append]
    rfl
  refine ⟨fun i hi => ?_, ?_, store_top_le h.top_le (by omega)⟩
  · rw [List.length_append] at hi
    show (if text.length ≤ i ∧ i < text.length + s.length then s.getD (i - text.length) nul
      else b.mem i) = _
    -- A place behind the text is in the new part, another one was there before.
    by_cases hnew : text.length ≤ i
    · rw [if_pos ⟨hnew, by omega⟩, hs, List.getD_eq_getElem?_getD, List.getD_eq_getElem?_getD,
        List.getElem?_append_left (by omega), List.getElem?_append_right hnew]
    · rw [if_neg (fun hboth => hnew hboth.1), h.holds i (by omega), List.getD_eq_getElem?_getD,
        List.getD_eq_getElem?_getD, List.getElem?_append_left (by omega)]
  · rw [List.length_append]
    omega

end SdpBuf

namespace SdpWriter

variable {maxlen : Nat} {b b' : SdpBuf} {α β : Type}

/-- The second part of a writer runs behind the first, when that succeeds. -/
theorem run_bind_ok {x : SdpWriter α} {f : α → SdpWriter β} {a : α}
    (h : x.run b = (.ok a, b')) : (x >>= f).run b = (f a).run b' := by
  show (match x.run b with
    | (r, b) => (ExceptT.bindCont f r).run b : Id (Except Int β × SdpBuf)) = _
  rw [h]
  rfl

/-- A writer stops at the first part that fails. -/
theorem run_bind_error {x : SdpWriter α} {f : α → SdpWriter β} {e : Int}
    (h : x.run b = (.error e, b')) : (x >>= f).run b = (.error e, b') := by
  show (match x.run b with
    | (r, b) => (ExceptT.bindCont f r).run b : Id (Except Int β × SdpBuf)) = _
  rw [h]
  rfl

/-- The function writes what the function on texts says, and returns as it does. -/
structure Refines (maxlen : Nat) (x : SdpWriter Nat) (b : SdpBuf)
    (y : Except Int (List Char)) : Prop where
  ok : ∀ p, y = .ok p → ∃ b', x.run b = (.ok p.length, b') ∧ b'.Shows maxlen p
  error : ∀ e, y = .error e → ∃ b', x.run b = (.error e, b') ∧ b'.top ≤ maxlen

/-- One function behind another. -/
theorem Refines.bind {x : SdpWriter Nat} {y : Except Int (List Char)} {f : Nat → SdpWriter Nat}
    {g : List Char → Except Int (List Char)} (h : Refines maxlen x b y)
    (hf : ∀ b p, y = .ok p → b.Shows maxlen p → Refines maxlen (f p.length) b (g p)) :
    Refines maxlen (x >>= f) b (y >>= g) := by
  cases y with
  | error e =>
    obtain ⟨b', hrun, htop⟩ := h.error e rfl
    constructor
    · intro p hp
      cases hp
    · intro e' he
      cases he
      exact ⟨b', run_bind_error hrun, htop⟩
  | ok p =>
    obtain ⟨b', hrun, hshows⟩ := h.ok p rfl
    have hnext := hf b' p rfl hshows
    constructor
    · intro p' hp'
      obtain ⟨b'', hrun', hshows'⟩ := hnext.ok p' hp'
      exact ⟨b'', (run_bind_ok hrun).trans hrun', hshows'⟩
    · intro e he
      obtain ⟨b'', hrun', htop⟩ := hnext.error e he
      exact ⟨b'', (run_bind_ok hrun).trans hrun', htop⟩

/-- A loop. -/
theorem Refines.foldlM {f : Nat → α → SdpWriter Nat}
    {g : List Char → α → Except Int (List Char)} : ∀ (l : List α),
    (∀ a ∈ l, ∀ b p, b.Shows maxlen p → Refines maxlen (f p.length a) b (g p a)) →
    ∀ b p, b.Shows maxlen p → Refines maxlen (l.foldlM f p.length) b (l.foldlM g p)
  | [], _, b, p, hb =>
    ⟨fun p' hp' => by cases hp'; exact ⟨b, rfl, hb⟩, fun e he => nomatch he⟩
  | a :: l, hall, b, p, hb => by
    rw [List.foldlM_cons, List.foldlM_cons]
    refine (hall a List.mem_cons_self b p hb).bind fun b' p' _ hb' => ?_
    exact Refines.foldlM l (fun a' ha' => hall a' (List.mem_cons_of_mem _ ha')) b' p' hb'

/-! ### The functions on the buffer -/

variable {sn : Snprintf} {pj : PjSock}

/-- The tests of `PRINT` agree, and what passes them is written. -/
theorem conforms_print (hsn : sn.Conforms) (room : Nat) (hroom : room < 4294967296)
    (text : List Char) :
    ((sn.result room text ≤ 0 ∨ cInt room ≤ sn.result room text) ↔
        (text.length = 0 ∨ cInt room ≤ text.length)) ∧
      (¬ (text.length = 0 ∨ cInt room ≤ text.length) →
        text.length < room ∧ sn.written room text = text ++ [nul] ∧
          sn.result room text = text.length) := by
  by_cases hint : room < 2147483648
  · have hcast : cInt room = room := if_pos hint
    rw [hcast]
    by_cases hfit : text.length < room
    · obtain ⟨hwritten, hresult⟩ := hsn.fits room text hfit (by omega)
      rw [hresult]
      exact ⟨by omega, fun _ => ⟨hfit, hwritten, rfl⟩⟩
    · have hcut := hsn.cut room text (by omega)
      exact ⟨by omega, by omega⟩
  · -- The room is negative as an `int`, and no result is smaller.
    have hcast : cInt room = (room : Int) - 4294967296 := if_neg hint
    rw [hcast]
    exact ⟨by omega, by omega⟩

/-- `PRINT`. The room is the same for the part of the buffer that `print_cand` has. -/
theorem refines_print (hsn : sn.Conforms) (hmax : maxlen < 4294967296) {p : List Char}
    (hb : b.Shows maxlen p) (buffer m : Nat) (hroom : m - (p.length - buffer) = maxlen - p.length)
    (text : List Char) :
    Refines maxlen (print sn buffer m p.length text) b (printText maxlen p text) := by
  obtain ⟨hiff, hfits⟩ := conforms_print hsn (maxlen - p.length) (by omega) text
  have hle := hb.length_le
  have hwlen := hsn.length_written (maxlen - p.length) text
  have hrun : (print sn buffer m p.length text).run b =
      (if text.length = 0 ∨ cInt (maxlen - p.length) ≤ text.length then .error (-etoosmall)
        else .ok (p.length + (sn.result (maxlen - p.length) text).toNat),
        b.store p.length (sn.written (maxlen - p.length) text)) := by
    unfold print
    rw [hroom]
    refine (run_bind_ok rfl).trans ?_
    by_cases hc : text.length = 0 ∨ cInt (maxlen - p.length) ≤ text.length
    · rw [if_pos hc, if_pos (hiff.mpr hc)]
      rfl
    · rw [if_neg hc, if_neg fun h => hc (hiff.mp h)]
      rfl
  by_cases hc : text.length = 0 ∨ cInt (maxlen - p.length) ≤ text.length
  · have htext : printText maxlen p text = .error (-etoosmall) := if_pos hc
    rw [if_pos hc] at hrun
    rw [htext]
    refine ⟨fun p' hp' => (nomatch hp'), fun e he => ?_⟩
    cases he
    exact ⟨_, hrun, SdpBuf.store_top_le hb.top_le (by omega)⟩
  · obtain ⟨hlt, hwritten, hresult⟩ := hfits hc
    have htext : printText maxlen p text = .ok (p ++ text) := if_neg hc
    rw [if_neg hc, hresult, Int.toNat_natCast] at hrun
    rw [htext]
    refine ⟨fun p' hp' => ?_, fun e he => nomatch he⟩
    cases hp'
    refine ⟨_, ?_, hb.append hwritten (by omega)⟩
    rw [List.length_append]
    exact hrun

/-- A text that fits is appended. -/
theorem printText_eq_ok {p t q : List Char} (h : printText maxlen p t = .ok q) : q = p ++ t := by
  unfold printText at h
  split at h
  · cases h
  · exact (Except.ok.inj h).symm

/-- The only error is that the buffer is too small. -/
theorem printText_eq_error {p t : List Char} {e : Int} (h : printText maxlen p t = .error e) :
    e = -etoosmall := by
  unfold printText at h
  split at h
  · exact (Except.error.inj h).symm
  · cases h

/-- The NUL behind a text, unless the buffer is full. -/
theorem run_terminate {p : List Char} (hb : b.Shows maxlen p) {m : Nat} (hm : m = maxlen)
    (n : Nat) :
    ∃ b', (if p.length = m then throw (-etoosmall)
        else do
          put p.length [nul]
          pure n : SdpWriter Nat).run b =
        (if p.length = maxlen then .error (-etoosmall) else .ok n, b') ∧
      b'.Shows maxlen p ∧ (p.length ≠ maxlen → b'.mem p.length = nul) := by
  have hle := hb.length_le
  subst hm
  by_cases hfull : p.length = m
  · rw [if_pos hfull, if_pos hfull]
    exact ⟨b, rfl, hb, fun hne => absurd hfull hne⟩
  · rw [if_neg hfull, if_neg hfull]
    have hroom : p.length + [nul].length ≤ m := Nat.lt_of_le_of_ne hle hfull
    refine ⟨b.store p.length [nul], rfl, hb.store hroom, fun _ => ?_⟩
    have hin : p.length ≤ p.length ∧ p.length < p.length + [nul].length :=
      ⟨Nat.le_refl _, Nat.lt_succ_self _⟩
    show (if p.length ≤ p.length ∧ p.length < p.length + [nul].length then
      [nul].getD (p.length - p.length) nul else b.mem p.length) = nul
    rw [if_pos hin, Nat.sub_self]
    rfl

/-- A change of the error code keeps the buffer. -/
theorem run_adapt {x : SdpWriter Nat} {r : Except Int Nat} (g : Int → Int)
    (h : x.run b = (r, b')) : (ExceptT.adapt g x).run b = (r.mapError g, b') := by
  show (match x.run b with
    | (r, b) => (r.mapError g, b) : Id (Except Int Nat × SdpBuf)) = _
  rw [h]

/-- A candidate line. `print_cand` has the part of the buffer behind `p`. -/
theorem refines_encodeCand (hsn : sn.Conforms) (hmax : maxlen < 4294967296) {p : List Char}
    (hb : b.Shows maxlen p) (cand : PjIceSessCand) :
    Refines maxlen (encodeCand sn pj maxlen p.length cand) b
      (LibTrans.encodeCand pj maxlen p cand) := by
  have hle := hb.length_le
  -- The two prints of a candidate, before the test for a full buffer.
  have htwo : Refines maxlen
      (print sn p.length (maxlen - p.length) p.length (candText pj cand) >>= fun q =>
        print sn p.length (maxlen - p.length) q (cand.type.name ++ ['\n'])) b
      (printText maxlen p (candText pj cand) >>= fun p =>
        printText maxlen p (cand.type.name ++ ['\n'])) := by
    refine (refines_print hsn hmax hb p.length (maxlen - p.length) (by omega) _).bind
      fun b q hq hb' => refines_print hsn hmax hb' p.length (maxlen - p.length) ?_ _
    rw [printText_eq_ok hq, List.length_append]
    omega
  have hassoc : printCand sn pj p.length (maxlen - p.length) cand =
      ((print sn p.length (maxlen - p.length) p.length (candText pj cand) >>= fun q =>
          print sn p.length (maxlen - p.length) q (cand.type.name ++ ['\n'])) >>= fun q =>
        if q = p.length + (maxlen - p.length) then throw (-etoosmall)
        else do
          put q [nul]
          pure (q - p.length)) := by
    rw [bind_assoc]
    rfl
  rw [encodeCand_eq pj p cand hle]
  generalize hy : (printText maxlen p (candText pj cand) >>= fun p =>
    printText maxlen p (cand.type.name ++ ['\n'])) = y at htwo ⊢
  cases y with
  | error e =>
    -- Either print may have failed, and both give the same error.
    have he : e = -etoosmall := by
      cases hfirst : printText maxlen p (candText pj cand) with
      | error e' =>
        rw [hfirst] at hy
        cases hy
        exact printText_eq_error hfirst
      | ok q =>
        rw [hfirst] at hy
        exact printText_eq_error hy
    obtain ⟨b', hrun, htop⟩ := htwo.error e rfl
    have hprint : (printCand sn pj p.length (maxlen - p.length) cand).run b = (.error e, b') := by
      rw [hassoc]
      exact run_bind_error hrun
    have hcand := run_adapt (fun _ => -etoosmall) hprint
    constructor
    · intro q hq
      cases hq
    · intro e' he'
      cases he'
      rw [he]
      exact ⟨b', run_bind_error hcand, htop⟩
  | ok q =>
    -- The text has grown, so that the length that is returned is a difference.
    have hlen : p.length ≤ q.length := by
      cases hfirst : printText maxlen p (candText pj cand) with
      | error e =>
        rw [hfirst] at hy
        cases hy
      | ok q' =>
        rw [hfirst] at hy
        rw [printText_eq_ok hy, printText_eq_ok hfirst]
        simp only [List.length_append]
        omega
    obtain ⟨b₁, hrun, hshows⟩ := htwo.ok q rfl
    obtain ⟨b₂, hend, hshows', -⟩ := run_terminate hshows
      (m := p.length + (maxlen - p.length)) (by omega) (q.length - p.length)
    have hprint : (printCand sn pj p.length (maxlen - p.length) cand).run b =
        (if q.length = maxlen then .error (-etoosmall) else .ok (q.length - p.length), b₂) := by
      rw [hassoc, run_bind_ok hrun]
      exact hend
    have hcand := run_adapt (fun _ => -etoosmall) hprint
    have hcheck : ((.ok q : Except Int (List Char)) >>= fun p =>
        if p.length = maxlen then .error (-etoosmall) else .ok p) =
        if q.length = maxlen then .error (-etoosmall) else .ok q := rfl
    rw [hcheck]
    -- The test behind the prints: a text that fills the buffer has no room for the NUL.
    by_cases hfull : q.length = maxlen
    · rw [if_pos hfull] at hcand ⊢
      refine ⟨fun q' hq' => (nomatch hq'), fun e' he' => ?_⟩
      cases he'
      exact ⟨b₂, run_bind_error hcand, hshows'.top_le⟩
    · rw [if_neg hfull] at hcand ⊢
      refine ⟨fun q' hq' => ?_, fun e' he' => nomatch he'⟩
      cases hq'
      have hsum : p.length + (q.length - p.length) = q.length := Nat.add_sub_cancel' hlen
      refine ⟨b₂, (run_bind_ok hcand).trans ?_, hshows'⟩
      rw [hsum]
      rfl

variable {icest : PjIceStrans}

/-- The lines of a component, for which the queries of pjnath succeed. -/
theorem refines_encodeComp (hsn : sn.Conforms) (hmax : maxlen < 4294967296) {comp : Nat}
    (hcomp : comp + 1 ≤ icest.compCnt) {p : List Char} (hb : b.Shows maxlen p) :
    Refines maxlen (encodeComp sn pj maxlen icest p.length comp) b
      (LibTrans.encodeComp pj maxlen icest p comp) := by
  have hdef : icest.getDefCand (comp + 1) = .ok (icest.defCand (comp + 1)) :=
    if_pos ⟨Nat.succ_pos comp, hcomp⟩
  have henum : icest.enumCands (comp + 1) maxCand = .ok (compCands icest (comp + 1)) :=
    if_pos ⟨Nat.succ_pos comp, hcomp⟩
  have hwriter : encodeComp sn pj maxlen icest p.length comp =
      (print sn 0 maxlen p.length (defAddrText pj comp (icest.defCand (comp + 1)).addr) >>=
        fun p => (compCands icest (comp + 1)).foldlM (encodeCand sn pj maxlen) p) := by
    unfold encodeComp
    rw [hdef, henum]
    rfl
  rw [hwriter, encodeComp_eq hcomp p]
  exact (refines_print hsn hmax hb 0 maxlen rfl _).bind fun b q _ hb' =>
    Refines.foldlM _ (fun cand _ _ _ hshows => refines_encodeCand hsn hmax hshows cand) b q hb'

/-- The body returns as `encodeSession` on texts does, with the text and a NUL in the buffer. -/
theorem run_encodeBody (hsn : sn.Conforms) (hmax : maxlen < 4294967296)
    (hq : icest.runningCompCnt ≤ icest.compCnt) (hb : b.top ≤ maxlen) :
    (∀ t, encodeSession pj maxlen (some icest) = .ok t →
      ∃ b', (encodeBody sn pj maxlen icest).run b = (.ok t.length, b') ∧ b'.Shows maxlen t ∧
        b'.mem t.length = nul) ∧
    (∀ e, encodeSession pj maxlen (some icest) = .error e →
      ∃ b', (encodeBody sn pj maxlen icest).run b = (.error e, b') ∧ b'.top ≤ maxlen) := by
  have hstart : b.Shows maxlen [] :=
    ⟨fun i hi => absurd hi (Nat.not_lt_zero i), Nat.zero_le _, hb⟩
  -- Everything before the last test, on both sides.
  have hbody : Refines maxlen
      (print sn 0 maxlen 0 headerText >>= fun p => print sn 0 maxlen p (authText icest) >>=
        fun p => (List.range icest.runningCompCnt).foldlM (encodeComp sn pj maxlen icest) p) b
      (printText maxlen [] headerText >>= fun p => printText maxlen p (authText icest) >>=
        fun p => (List.range icest.runningCompCnt).foldlM (LibTrans.encodeComp pj maxlen icest)
          p) := by
    refine (refines_print hsn hmax hstart 0 maxlen rfl _).bind fun b₁ p₁ _ hb₁ => ?_
    refine (refines_print hsn hmax hb₁ 0 maxlen rfl _).bind fun b₂ p₂ _ hb₂ => ?_
    exact Refines.foldlM _ (fun comp hcomp _ _ hshows => refines_encodeComp hsn hmax
      (Nat.le_trans (Nat.succ_le_of_lt (List.mem_range.mp hcomp)) hq) hshows) b₂ p₂ hb₂
  -- Both programs are this part and the test, once the binds are put in order.
  have hwriter : encodeBody sn pj maxlen icest =
      ((print sn 0 maxlen 0 headerText >>= fun p => print sn 0 maxlen p (authText icest) >>=
        fun p => (List.range icest.runningCompCnt).foldlM (encodeComp sn pj maxlen icest) p) >>=
        fun p => if p = maxlen then throw (-etoosmall)
          else do
            put p [nul]
            pure p) := by
    rw [bind_assoc]
    simp only [bind_assoc]
    rfl
  have htext : encodeSession pj maxlen (some icest) =
      ((printText maxlen [] headerText >>= fun p => printText maxlen p (authText icest) >>=
        fun p => (List.range icest.runningCompCnt).foldlM (LibTrans.encodeComp pj maxlen icest)
          p) >>= fun p => if p.length = maxlen then .error (-etoosmall) else .ok p) := by
    simp only [bind_assoc]
    rfl
  rw [hwriter, htext]
  generalize (printText maxlen [] headerText >>= fun p => printText maxlen p (authText icest) >>=
    fun p => (List.range icest.runningCompCnt).foldlM (LibTrans.encodeComp pj maxlen icest)
      p) = y at hbody ⊢
  cases y with
  | error e =>
    obtain ⟨b', hrun, htop⟩ := hbody.error e rfl
    refine ⟨fun t ht => (nomatch ht), fun e' he' => ?_⟩
    cases he'
    exact ⟨b', run_bind_error hrun, htop⟩
  | ok t =>
    obtain ⟨b₁, hrun, hshows⟩ := hbody.ok t rfl
    obtain ⟨b₂, hend, hshows', hnul⟩ := run_terminate hshows rfl t.length
    have hcheck : ((.ok t : Except Int (List Char)) >>= fun p =>
        if p.length = maxlen then .error (-etoosmall) else .ok p) =
        if t.length = maxlen then .error (-etoosmall) else .ok t := rfl
    rw [hcheck, run_bind_ok hrun, hend]
    by_cases hfull : t.length = maxlen
    · rw [if_pos hfull, if_pos hfull]
      refine ⟨fun t' ht' => (nomatch ht'), fun e' he' => ?_⟩
      cases he'
      exact ⟨b₂, rfl, hshows'.top_le⟩
    · rw [if_neg hfull, if_neg hfull]
      refine ⟨fun t' ht' => ?_, fun e' he' => nomatch he'⟩
      cases ht'
      exact ⟨b₂, rfl, hshows', hnul hfull⟩

end SdpWriter

/-! ### Whole or nothing -/

/-- Nothing is written behind the end. A text with room for its NUL is in the buffer and its
length is returned; without that room the result is negative. -/
structure WrittenWhole (maxlen : Nat) (text : List Char) (r : Int × SdpBuf) : Prop where
  top_le : r.2.top ≤ maxlen
  whole : text.length < maxlen → r.1 = text.length ∧
    (∀ i, i < text.length → r.2.mem i = text.getD i nul) ∧ r.2.mem text.length = nul
  nothing : maxlen ≤ text.length → r.1 < 0

section Whole
variable {sn : Snprintf} {pj : PjSock} {maxlen : Nat} {icest : PjIceStrans} {b : SdpBuf}

/-- The result on a buffer, from the one on texts. -/
theorem encodeSessionBuf_of_ok (hsn : sn.Conforms) (hmax : maxlen < 2147483648)
    (hq : icest.runningCompCnt ≤ icest.compCnt) (hb : b.top ≤ maxlen) {t : List Char}
    (ht : encodeSession pj maxlen (some icest) = .ok t) :
    ∃ b', encodeSessionBuf sn pj maxlen (some icest) b = ((t.length : Int), b') ∧
      b'.Shows maxlen t ∧ b'.mem t.length = nul := by
  obtain ⟨b', hrun, hshows, hnul⟩ :=
    (SdpWriter.run_encodeBody hsn (by omega) hq hb).1 t ht
  have hlen := hshows.length_le
  have hint : cInt t.length = t.length := if_pos (by omega)
  refine ⟨b', ?_, hshows, hnul⟩
  simp only [encodeSessionBuf, hrun, hint]

/-- The error of the text is the error of the buffer. -/
theorem encodeSessionBuf_of_error (hsn : sn.Conforms) (hmax : maxlen < 4294967296)
    (hq : icest.runningCompCnt ≤ icest.compCnt) (hb : b.top ≤ maxlen) {e : Int}
    (he : encodeSession pj maxlen (some icest) = .error e) :
    ∃ b', encodeSessionBuf sn pj maxlen (some icest) b = (e, b') ∧ b'.top ≤ maxlen := by
  obtain ⟨b', hrun, htop⟩ := (SdpWriter.run_encodeBody hsn hmax hq hb).2 e he
  refine ⟨b', ?_, htop⟩
  simp only [encodeSessionBuf, hrun]

/-- Below 2^31 the whole text is written, or an error is returned. -/
theorem writtenWhole_of_int (hsn : sn.Conforms) (hmax : maxlen < 2147483648)
    (hq : icest.runningCompCnt ≤ icest.compCnt) (hb : b.top ≤ maxlen) :
    WrittenWhole maxlen (sdpText pj icest) (encodeSessionBuf sn pj maxlen (some icest) b) := by
  obtain ⟨hfits, hcut⟩ := encodeSession_eq pj hmax hq
  by_cases hlt : (sdpText pj icest).length < maxlen
  · obtain ⟨b', hrun, hshows, hnul⟩ := encodeSessionBuf_of_ok hsn hmax hq hb (hfits hlt)
    rw [hrun]
    exact ⟨hshows.top_le, fun _ => ⟨rfl, hshows.holds, hnul⟩, fun hle => by omega⟩
  · obtain ⟨e, hneg, herr⟩ := hcut (Nat.le_of_not_lt hlt)
    obtain ⟨b', hrun, htop⟩ := encodeSessionBuf_of_error hsn (by omega) hq hb herr
    rw [hrun]
    exact ⟨htop, fun h => absurd h hlt, fun _ => hneg⟩

/-! ### `localSdp` -/

/-- The line of a candidate has no null character. -/
theorem nul_notMem_candLineText (hprint : ∀ a, nul ∉ pj.print a) (cand : PjIceSessCand) :
    nul ∉ candLineText pj cand := by
  have hname : nul ∉ cand.type.name := by
    cases cand.type <;> decide +kernel
  have hparts : nul ∉ "a=candidate:".toList ∧ nul ∉ " UDP ".toList ∧ nul ∉ " typ ".toList ∧
      nul ≠ ' ' ∧ nul ≠ '\n' := by decide +kernel
  unfold candLineText candText
  -- The literals must not be unfolded.
  generalize "a=candidate:".toList = s₁ at hparts ⊢
  generalize " UDP ".toList = s₂ at hparts ⊢
  generalize " typ ".toList = s₃ at hparts ⊢
  simp only [List.mem_append, List.mem_cons, List.not_mem_nil, hparts, hname, hprint,
    cand.foundation.noNul, nul_notMem_printNat, or_self, not_false_eq_true]

/-- The line of a default address has no null character. -/
theorem nul_notMem_defAddrText (hprint : ∀ a, nul ∉ pj.print a) (comp : Nat)
    (addr : PjSockaddr) : nul ∉ defAddrText pj comp addr := by
  have hparts : nul ∉ "m=audio ".toList ∧ nul ∉ " RTP/AVP 0\nc=IN IP4 ".toList ∧
      nul ∉ "a=rtcp:".toList ∧ nul ∉ "a=Xice-defcand:".toList ∧ nul ∉ " IN IP4 ".toList := by
    decide +kernel
  have hline : ∀ s t : List Char, nul ∉ s → nul ∉ t →
      nul ∉ s ++ printNat addr.port.toNat ++ t ++ pj.print addr.addr ++ ['\n'] := by
    intro s t hs ht
    have hend : nul ≠ '\n' := by decide
    simp only [List.mem_append, List.mem_singleton, hs, ht, hend, hprint, nul_notMem_printNat,
      or_self, not_false_eq_true]
  unfold defAddrText
  split
  · exact hline _ _ hparts.1 hparts.2.1
  · split
    · exact hline _ _ hparts.2.2.1 hparts.2.2.2.2
    · exact hline _ _ hparts.2.2.2.1 hparts.2.2.2.2

/-- The lines of the credentials have no null character. -/
theorem nul_notMem_authText (icest : PjIceStrans) : nul ∉ authText icest := by
  have hparts : nul ∉ "a=ice-ufrag:".toList ∧ nul ∉ "\na=ice-pwd:".toList ∧ nul ≠ '\n' := by
    decide +kernel
  unfold authText
  generalize "a=ice-ufrag:".toList = s₁ at hparts ⊢
  generalize "\na=ice-pwd:".toList = s₂ at hparts ⊢
  simp only [List.mem_append, List.mem_singleton, hparts, icest.ufrag.noNul, icest.pwd.noNul,
    or_self, not_false_eq_true]

/-- The text of a session has no null character, so reading the buffer as a C string returns all
of it. -/
theorem nul_notMem_sdpText (hprint : ∀ a, nul ∉ pj.print a) : nul ∉ sdpText pj icest := by
  have hheader : nul ∉ headerText := by decide +kernel
  intro hmem
  rcases List.mem_append.mp hmem with hmem | hmem
  · exact hheader hmem
  rcases List.mem_append.mp hmem with hmem | hmem
  · exact nul_notMem_authText icest hmem
  obtain ⟨comp, -, hmem⟩ := List.mem_flatMap.mp hmem
  rcases List.mem_append.mp hmem with hmem | hmem
  · exact nul_notMem_defAddrText hprint comp _ hmem
  · obtain ⟨cand, -, hmem⟩ := List.mem_flatMap.mp hmem
    exact nul_notMem_candLineText hprint cand hmem

/-- A text with a NUL behind it, as a string. -/
theorem SdpBuf.str_of_shows {t : List Char} (hb : b.Shows maxlen t) (hlt : t.length < maxlen)
    (hnul : b.mem t.length = nul) (hnot : nul ∉ t) : (b.str maxlen).chars = t := by
  have hsplit : (List.range maxlen).map b.mem =
      t ++ nul :: ((List.range (maxlen - t.length - 1)).map fun i => b.mem (t.length + 1 + i)) := by
    apply List.ext_getElem
    · simp only [List.length_map, List.length_range, List.length_append, List.length_cons]
      omega
    · intro i hi hi'
      simp only [List.getElem_map, List.getElem_range]
      by_cases hfirst : i < t.length
      · rw [List.getElem_append_left hfirst, hb.holds i hfirst, List.getD_eq_getElem?_getD,
          List.getElem?_eq_getElem hfirst]
        rfl
      · rw [List.getElem_append_right (Nat.le_of_not_lt hfirst), List.getElem_cons]
        split
        · rw [show i = t.length by omega, hnul]
        · simp only [List.getElem_map, List.getElem_range]
          congr 1
          omega
  have htake : ∀ c ∈ t, decide (c ≠ nul) = true := fun c hc =>
    decide_eq_true fun h => hnot (h ▸ hc)
  show ((List.range maxlen).map b.mem).takeWhile _ = t
  rw [hsplit, List.takeWhile_append_of_pos htake, List.takeWhile_cons_of_neg (by simp),
    List.append_nil]

/-- The text that `localSdp` hands on is whole or empty: its buffer has 4096 bytes. -/
theorem localSdpText_whole (hsn : sn.Conforms) (hprint : ∀ a, nul ∉ pj.print a)
    (hq : icest.runningCompCnt ≤ icest.compCnt) (sInit : Bool) :
    localSdpText sn pj sInit (some icest) = sdpText pj icest ∨
      localSdpText sn pj sInit (some icest) = [] := by
  have hint : 4096 < 2147483648 := by decide
  cases sInit with
  | false => exact Or.inr rfl
  | true =>
    have hzero : ({ mem := fun _ => nul, top := 0 } : SdpBuf).top ≤ 4096 := Nat.zero_le _
    unfold localSdpText
    rw [if_pos rfl]
    by_cases hlt : (sdpText pj icest).length < 4096
    · obtain ⟨b', hrun, hshows, hnul⟩ := encodeSessionBuf_of_ok hsn hint hq hzero
        ((encodeSession_eq pj hint hq).1 hlt)
      have hstr := SdpBuf.str_of_shows hshows hlt hnul (nul_notMem_sdpText hprint)
      simp only [hrun, hstr]
      split
      · exact Or.inl rfl
      · exact Or.inr rfl
    · obtain ⟨e, hneg, herr⟩ := (encodeSession_eq pj hint hq).2 (Nat.le_of_not_lt hlt)
      obtain ⟨b', hrun, -⟩ := encodeSessionBuf_of_error hsn (by omega) hq hzero herr
      refine Or.inr ?_
      simp only [hrun]
      exact if_neg (by omega)

/-- The session is written whole or not at all exactly when the size of the buffer is an `int`, or
the text has no room in it. -/
theorem encodeSession_whole_iff (sn : Snprintf) (hsn : sn.Conforms) (pj : PjSock)
    (hprint : ∀ a, nul ∉ pj.print a) (icest : PjIceStrans)
    (hq : icest.runningCompCnt ≤ icest.compCnt) (maxlen : UInt32) (mem : Nat → Char) :
    (WrittenWhole maxlen.toNat (sdpText pj icest)
        (encodeSessionBuf sn pj maxlen.toNat (some icest) { mem, top := 0 }) ∧
      ∀ sInit, localSdpText sn pj sInit (some icest) = sdpText pj icest ∨
        localSdpText sn pj sInit (some icest) = []) ↔
    (maxlen.toNat < 2147483648 ∨ maxlen.toNat ≤ (sdpText pj icest).length) := by
  have hlt : maxlen.toNat < 4294967296 := maxlen.toNat_lt
  constructor
  · rintro ⟨hwhole, -⟩
    by_contra hnot
    have hlarge : encodeSession pj maxlen.toNat (some icest) = .error (-etoosmall) :=
      encodeSession_of_large pj icest (by omega) hlt
    obtain ⟨b', hrun, -⟩ := encodeSessionBuf_of_error (b := { mem, top := 0 }) hsn hlt hq
      (Nat.zero_le _) hlarge
    -- The text would fit, but the length is negative as an `int`, and the call fails.
    have hlen := (hwhole.whole (by omega)).1
    rw [hrun] at hlen
    have hneg : -etoosmall < 0 := by decide
    dsimp only at hlen
    omega
  · intro hcond
    refine ⟨?_, localSdpText_whole hsn hprint hq⟩
    by_cases hint : maxlen.toNat < 2147483648
    · exact writtenWhole_of_int hsn hint hq (Nat.zero_le _)
    · have hlarge : encodeSession pj maxlen.toNat (some icest) = .error (-etoosmall) :=
        encodeSession_of_large pj icest (by omega) hlt
      obtain ⟨b', hrun, htop⟩ := encodeSessionBuf_of_error (b := { mem, top := 0 }) hsn hlt hq
        (Nat.zero_le _) hlarge
      have hneg : -etoosmall < 0 := by decide
      rw [hrun]
      exact ⟨htop, fun h => by omega, fun _ => hneg⟩

end Whole

/-! ### On a session -/

/-- The `snprintf` of C99, which returns the length that there would have been. -/
def c99Snprintf : Snprintf where
  written n text := if n = 0 then [] else text.take (n - 1) ++ [nul]
  result _ text := text.length

/-- The `snprintf` of C99 does what is assumed of it. -/
theorem conforms_c99Snprintf : c99Snprintf.Conforms where
  length_written n text := by
    show (if n = 0 then [] else text.take (n - 1) ++ [nul]).length ≤ n
    split
    · exact Nat.zero_le n
    · rw [List.length_append, List.length_take, List.length_singleton]
      omega
  fits n text hlt _ := by
    refine ⟨?_, rfl⟩
    show (if n = 0 then [] else text.take (n - 1) ++ [nul]) = text ++ [nul]
    rw [if_neg (by omega), List.take_of_length_le (by omega)]
  cut _ _ _ := Or.inr rfl

/-- A printed IPv4 address has no null character. -/
theorem nul_notMem_inetSock (a : InAddr) : nul ∉ inetSock.print a := by
  cases a with
  | ipv4 a b c d => exact Inet.notMem_dotted a b c d (by decide) (by decide)
  | ipv6 bytes => exact List.not_mem_nil

/-- The session in the buffer of `localSdp`. -/
theorem encodeSession_whole_twoCand :
    WrittenWhole 4096 (sdpText inetSock twoCandSession)
      (encodeSessionBuf c99Snprintf inetSock 4096 (some twoCandSession)
        { mem := fun _ => nul, top := 0 }) ∧
    ∀ sInit, localSdpText c99Snprintf inetSock sInit (some twoCandSession) =
        sdpText inetSock twoCandSession ∨
      localSdpText c99Snprintf inetSock sInit (some twoCandSession) = [] :=
  (encodeSession_whole_iff c99Snprintf conforms_c99Snprintf inetSock nul_notMem_inetSock
    twoCandSession (by decide) 4096 fun _ => nul).mpr (Or.inl (by decide))

/-- A buffer of 2^31 characters has room for the session, and the result is `-PJ_ETOOSMALL`. -/
theorem encodeSession_large_twoCand :
    (sdpText inetSock twoCandSession).length < 2147483648 ∧
    (encodeSessionBuf c99Snprintf inetSock 2147483648 (some twoCandSession)
      { mem := fun _ => nul, top := 0 }).1 = -70019 ∧
    ¬ WrittenWhole 2147483648 (sdpText inetSock twoCandSession)
      (encodeSessionBuf c99Snprintf inetSock 2147483648 (some twoCandSession)
        { mem := fun _ => nul, top := 0 }) := by
  have hshort : (sdpText inetSock twoCandSession).length < 1024 := by decide +kernel
  have hlt : (sdpText inetSock twoCandSession).length < 2147483648 := by omega
  have hlarge : encodeSession inetSock 2147483648 (some twoCandSession) = .error (-etoosmall) :=
    encodeSession_of_large inetSock twoCandSession (by omega) (by omega)
  obtain ⟨b', hrun, -⟩ := encodeSessionBuf_of_error (b := { mem := fun _ => nul, top := 0 })
    conforms_c99Snprintf (by omega) (by decide) (Nat.zero_le _) hlarge
  rw [hrun]
  refine ⟨hlt, rfl, fun hwhole => ?_⟩
  have hlen : -etoosmall = ((sdpText inetSock twoCandSession).length : Int) := (hwhole.whole hlt).1
  have hneg : -etoosmall < 0 := by decide
  omega

end EChannel.LibTrans
