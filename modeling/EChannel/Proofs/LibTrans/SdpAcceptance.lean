import EChannel.Proofs.LibTrans.SdpSafety
import Mathlib.Data.List.Induction

/-!
# `EChannel.Proofs.LibTrans.SdpAcceptance`: which descriptions are accepted

`icedemo_input_remote` goes through a text once, with variables that later lines overwrite or do
not. Here the same is said of the list of the lines as a whole. The media line that counts is the
first (`head?`), the connection line, the user fragment, the password and the `rtcp` attribute are
the last (`getLast?`), and the candidates are all, in their order (`filterMap`).

* `LinesFit` is what the text is known to meet.
* `Accepts` has the conditions under which the reader returns true.
* `remOf` is what `rem` holds then.

`readState` has the variables of the reader after some lines, in these terms. One more line leads
from it to the `readState` with that line, or to `on_error` (`inputLine_readState`), and the rest
is an induction over the lines. `Tests` is what all parts of the reader have in common: a value
under a condition, and `on_error` without it. `inputRemote_accepts_iff` is the result.
-/

set_option autoImplicit false

namespace EChannel.LibTrans

open CText

/-! ### The description in a list of lines -/

/-- The lines of a kind. -/
def linesOf (c : Char) (lines : List (List Char)) : List (List Char) :=
  lines.filter fun line => decide (line.head? = some c)

/-- The value of an attribute line with the given name. -/
def attrOf (name line : List Char) : Option (List Char) :=
  if line.head? = some 'a' then
    match strtok attrDelims (line.drop 2) with
    | some (attr, _ :: value) => if attr = name then some value else none
    | _ => none
  else none

/-- The values of an attribute. -/
def attrsOf (name : String) (lines : List (List Char)) : List (List Char) :=
  lines.filterMap (attrOf name.toList)

/-- The port of a media line with its two leading fields. -/
def mediaPort (line : List Char) : Option UInt32 :=
  match convsAt mediaFmt (line.drop 2) with
  | [.str _, .str portstr] => some (UInt32.ofInt (atoi portstr))
  | _ => none

/-- The address text of a connection line with its three fields. -/
def connIp (line : List Char) : Option (List Char) :=
  match convsAt connFmt (line.drop 2) with
  | [.str _, .str _, .str ip] => some ip
  | _ => none

/-- A valid address with a port. -/
def sockaddrOf (pj : PjSock) (ip : List Char) (port : Int) : Option PjSockaddr :=
  (pj.setStrAddr (if ':' ∈ ip then .inet6 else .inet) ip).map fun addr =>
    { addr, port := UInt16.ofInt port }

/-- The address of an `rtcp` attribute with its three fields. -/
def rtcpAddr (pj : PjSock) (value : List Char) : Option PjSockaddr :=
  match convsAt rtcpFmt value with
  | [.int port, .str _, .str ip] => sockaddrOf pj ip port
  | _ => none

/-- The candidate of a `candidate` attribute with its seven fields and a known type. The component
id is the low byte of its number. -/
def candOf (pj : PjSock) (value : List Char) : Option PjIceSessCand :=
  match convsAt candFmt value with
  | [.str foundation, .int compId, .str _, .int prio, .str ipaddr, .int port, .str type] =>
    match candType type, sockaddrOf pj ipaddr port with
    | .ok type, some addr =>
      some { type, compId := UInt8.ofInt compId, foundation := CString.ofBuf foundation,
             prio := UInt32.ofInt prio, addr }
    | _, _ => none
  | _ => none

/-- The candidates, in the order of the text. -/
def candsOf (pj : PjSock) (lines : List (List Char)) : List PjIceSessCand :=
  (attrsOf "candidate" lines).filterMap (candOf pj)

/-- What the reader returns in `rem` when it accepts the lines. -/
def remOf (pj : PjSock) (lines : List (List Char)) : RemInfo where
  ufrag := CString.ofBuf ((attrsOf "ice-ufrag" lines).getLast?.getD [])
  pwd := CString.ofBuf ((attrsOf "ice-pwd" lines).getLast?.getD [])
  compCnt := ((candsOf pj lines).map fun cand => cand.compId.toNat).foldl max 0
  defAddr0 := do
    let port ← (linesOf 'm' lines).head?.bind mediaPort
    let ip ← (linesOf 'c' lines).getLast?.bind connIp
    sockaddrOf pj ip port.toNat
  defAddr1 := (attrsOf "rtcp" lines).getLast?.bind (rtcpAddr pj)
  cand := candsOf pj lines

/-- The lines have two characters, attributes are named and have a value, what is read fits into
its buffer, and there is room for the candidates. -/
structure LinesFit (lines : List (List Char)) : Prop where
  length : ∀ line ∈ lines, 2 ≤ line.length
  media : ∀ line, (linesOf 'm' lines).head? = some line →
    Fits [32, 32] (convsAt mediaFmt (line.drop 2)) = true
  conn : ∀ line ∈ linesOf 'c' lines, Fits [32, 32, 80] (convsAt connFmt (line.drop 2)) = true
  attr : ∀ line ∈ linesOf 'a' lines, ∃ attr delim value,
    strtok attrDelims (line.drop 2) = some (attr, delim :: value)
  ufrag : ∀ value ∈ attrsOf "ice-ufrag" lines, (CString.ofBuf value).length < 80
  pwd : ∀ value ∈ attrsOf "ice-pwd" lines, (CString.ofBuf value).length < 80
  rtcp : ∀ value ∈ attrsOf "rtcp" lines, Fits [32, 64] (convsAt rtcpFmt value) = true
  candidate : ∀ value ∈ attrsOf "candidate" lines,
    Fits [32, 12, 80, 32] (convsAt candFmt value) = true
  cands : (attrsOf "candidate" lines).length ≤ maxCand

/-- No line is rejected: the first media line, all connection lines, `rtcp` attributes and
candidates can be read. -/
structure Readable (pj : PjSock) (lines : List (List Char)) : Prop where
  media : ∀ line, (linesOf 'm' lines).head? = some line → (mediaPort line).isSome = true
  conn : ∀ line ∈ linesOf 'c' lines, (connIp line).isSome = true
  rtcp : ∀ value ∈ attrsOf "rtcp" lines, (rtcpAddr pj value).isSome = true
  candidate : ∀ value ∈ attrsOf "candidate" lines, (candOf pj value).isSome = true

/-- The description is complete: the last user fragment and the last password are not empty, there
is a candidate and one whose component is not 0, the first media line gives a port, and the last
connection line a valid address. -/
structure Accepts (pj : PjSock) (lines : List (List Char)) : Prop extends Readable pj lines where
  ufrag : ∃ value, (attrsOf "ice-ufrag" lines).getLast? = some value ∧
    (CString.ofBuf value).chars ≠ []
  pwd : ∃ value, (attrsOf "ice-pwd" lines).getLast? = some value ∧ (CString.ofBuf value).chars ≠ []
  cands : attrsOf "candidate" lines ≠ []
  comp : ∃ value ∈ attrsOf "candidate" lines, ∃ cand, candOf pj value = some cand ∧
    cand.compId ≠ 0
  port : ∃ line port, (linesOf 'm' lines).head? = some line ∧ mediaPort line = some port ∧ port ≠ 0
  addr : ∃ line ip, (linesOf 'c' lines).getLast? = some line ∧ connIp line = some ip ∧
    AddrReadable pj ip

/-! ### Parts with a test -/

section Tests
variable {α β : Type} {r : Except Stop α} {f : α → Except Stop β} {p q : Prop} {a : α} {b : β}

/-- The part ends with `a` under the condition, and goes to `on_error` without it. -/
def Tests (r : Except Stop α) (p : Prop) (a : α) : Prop :=
  (p → r = .ok a) ∧ (¬ p → r = .error .onError)

/-- A test that is passed, where the condition holds. -/
theorem Tests.accept (hp : p) : Tests (.ok a) p a := ⟨fun _ => rfl, fun hno => absurd hp hno⟩

/-- A test that rejects the text, where the condition fails. -/
theorem Tests.reject (hno : ¬ p) : Tests (.error .onError) p a :=
  ⟨fun hp => absurd hp hno, fun _ => rfl⟩

/-- The condition of a test in other words. -/
theorem Tests.congr (h : Tests r p a) (hpq : p ↔ q) : Tests r q a :=
  ⟨fun hq => h.1 (hpq.mpr hq), fun hno => h.2 fun hp => hno (hpq.mp hp)⟩

/-- One part behind another. -/
theorem Tests.bind (h : Tests r p a) (hf : p → Tests (f a) q b) : Tests (r >>= f) (p ∧ q) b := by
  constructor
  · rintro ⟨hp, hq⟩
    rw [h.1 hp]
    exact (hf hp).1 hq
  · intro hno
    by_cases hp : p
    · rw [h.1 hp]
      exact (hf hp).2 fun hq => hno ⟨hp, hq⟩
    · rw [h.2 hp]
      rfl

/-- A part that does not fault tests for the cases in which it returns. -/
theorem Tests.of_safe (hsafe : Safe r) (hok : p → r = .ok a) (hp : ∀ a, r = .ok a → p) :
    Tests r p a := by
  refine ⟨hok, fun hno => ?_⟩
  cases r with
  | ok a => exact absurd (hp a rfl) hno
  | error stop =>
    cases stop with
    | onError => rfl
    | fault f => exact absurd rfl (hsafe f)

end Tests

/-! ### The parts of the reader -/

section Parts
variable {pj : PjSock} {st : InputState}

/-- There is an address exactly when the text of it can be read. -/
theorem sockaddrOf_isSome (pj : PjSock) (ip : List Char) (port : Int) :
    (sockaddrOf pj ip port).isSome = true ↔ AddrReadable pj ip := by
  unfold sockaddrOf AddrReadable
  rw [Option.isSome_map]

/-- `readAddr` rejects the text when there is no address. -/
theorem readAddr_eq (pj : PjSock) (ip : List Char) (port : Int) :
    readAddr pj ip port = match sockaddrOf pj ip port with
      | some addr => .ok addr
      | none => .error .onError := by
  unfold readAddr sockaddrOf
  cases pj.setStrAddr (if ':' ∈ ip then .inet6 else .inet) ip with
  | none => rfl
  | some addr => rfl

/-- The address that `readAddr` returns. -/
theorem readAddr_eq_ok {ip : List Char} {port : Int} {addr : PjSockaddr} :
    readAddr pj ip port = .ok addr ↔ sockaddrOf pj ip port = some addr := by
  rw [readAddr_eq]
  cases sockaddrOf pj ip port with
  | none => exact ⟨fun h => (nomatch h), fun h => nomatch h⟩
  | some addr' => exact ⟨fun h => congrArg some (Except.ok.inj h), fun h => by cases h; rfl⟩

/-- The port that a media line gives, in the words of `sscanf`. -/
theorem mediaPort_eq_some {line : List Char} {port : UInt32} :
    mediaPort line = some port ↔
      ∃ media portstr, convsAt mediaFmt (line.drop 2) = [.str media, .str portstr] ∧
        port = UInt32.ofInt (atoi portstr) := by
  constructor
  · intro h
    unfold mediaPort at h
    split at h
    · rename_i media portstr hconvs
      cases h
      exact ⟨media, portstr, hconvs, rfl⟩
    · cases h
  · rintro ⟨media, portstr, hconvs, rfl⟩
    unfold mediaPort
    rw [hconvs]

/-- The address that a connection line gives, in the words of `sscanf`. -/
theorem connIp_eq_some {line ip : List Char} :
    connIp line = some ip ↔
      ∃ c net, convsAt connFmt (line.drop 2) = [.str c, .str net, .str ip] := by
  constructor
  · intro h
    unfold connIp at h
    split at h
    · rename_i c net ip' hconvs
      cases h
      exact ⟨c, net, hconvs⟩
    · cases h
  · rintro ⟨c, net, hconvs⟩
    unfold connIp
    rw [hconvs]

/-- The address that an `rtcp` attribute gives, in the words of `sscanf`. -/
theorem rtcpAddr_eq_some {value : List Char} {addr : PjSockaddr} :
    rtcpAddr pj value = some addr ↔
      ∃ port net ip, convsAt rtcpFmt value = [.int port, .str net, .str ip] ∧
        sockaddrOf pj ip port = some addr := by
  constructor
  · intro h
    unfold rtcpAddr at h
    split at h
    · rename_i port net ip hconvs
      exact ⟨port, net, ip, hconvs, h⟩
    · cases h
  · rintro ⟨port, net, ip, hconvs, haddr⟩
    unfold rtcpAddr
    rw [hconvs]
    exact haddr

/-- The candidate that a `candidate` attribute gives, in the words of `sscanf`. -/
theorem candOf_eq_some {value : List Char} {cand : PjIceSessCand} :
    candOf pj value = some cand ↔
      ∃ foundation compId transport prio ipaddr port type t addr,
        convsAt candFmt value = [.str foundation, .int compId, .str transport, .int prio,
          .str ipaddr, .int port, .str type] ∧
        candType type = .ok t ∧ sockaddrOf pj ipaddr port = some addr ∧
        cand = { type := t, compId := UInt8.ofInt compId, foundation := CString.ofBuf foundation,
                 prio := UInt32.ofInt prio, addr } := by
  constructor
  · intro h
    unfold candOf at h
    split at h
    · rename_i foundation compId transport prio ipaddr port type hconvs
      cases htype : candType type with
      | error e =>
        rw [htype] at h
        cases h
      | ok t =>
        cases haddr : sockaddrOf pj ipaddr port with
        | none =>
          rw [htype, haddr] at h
          cases h
        | some addr =>
          rw [htype, haddr] at h
          cases h
          exact ⟨foundation, compId, transport, prio, ipaddr, port, type, t, addr, hconvs, htype,
            haddr, rfl⟩
    · cases h
  · rintro ⟨foundation, compId, transport, prio, ipaddr, port, type, t, addr, hconvs, htype,
      haddr, rfl⟩
    unfold candOf
    rw [hconvs]
    dsimp only
    rw [htype, haddr]

/-- The first media line. -/
theorem tests_mediaLine {line : List Char} (h0 : st.mediaCnt = 0) (hlen : 2 ≤ line.length)
    (hfits : Fits [32, 32] (convsAt mediaFmt (line.drop 2)) = true) :
    Tests (mediaLine st line) ((mediaPort line).isSome = true)
      { st with mediaCnt := 1, comp0Port := (mediaPort line).getD 0 } := by
  refine Tests.of_safe (safe_mediaLine.mpr fun _ => ⟨hlen, hfits⟩) (fun h => ?_) fun st' hst' => ?_
  · obtain ⟨port, hport⟩ := Option.isSome_iff_exists.mp h
    obtain ⟨media, portstr, hconvs, rfl⟩ := mediaPort_eq_some.mp hport
    rw [hport]
    exact mediaLine_eq_ok.mpr (Or.inr ⟨h0, hlen, hfits, media, portstr, hconvs, rfl⟩)
  · rcases mediaLine_eq_ok.mp hst' with ⟨hcnt, -⟩ | ⟨-, -, -, media, portstr, hconvs, -⟩
    · exact absurd h0 hcnt
    · exact Option.isSome_iff_exists.mpr ⟨_, mediaPort_eq_some.mpr ⟨media, portstr, hconvs, rfl⟩⟩

/-- A connection line is tested for its address, which is kept. -/
theorem tests_connLine {line : List Char} (hlen : 2 ≤ line.length)
    (hfits : Fits [32, 32, 80] (convsAt connFmt (line.drop 2)) = true) :
    Tests (connLine st line) ((connIp line).isSome = true)
      { st with comp0Addr := (connIp line).getD [] } := by
  refine Tests.of_safe (safe_connLine.mpr ⟨hlen, hfits⟩) (fun h => ?_) fun st' hst' => ?_
  · obtain ⟨ip, hip⟩ := Option.isSome_iff_exists.mp h
    obtain ⟨c, net, hconvs⟩ := connIp_eq_some.mp hip
    rw [hip]
    exact connLine_eq_ok.mpr ⟨hlen, hfits, c, net, ip, hconvs, rfl⟩
  · obtain ⟨-, -, c, net, ip, hconvs, -⟩ := connLine_eq_ok.mp hst'
    exact Option.isSome_iff_exists.mpr ⟨ip, connIp_eq_some.mpr ⟨c, net, hconvs⟩⟩

/-- An `rtcp` attribute is tested for its address, which is kept. -/
theorem tests_rtcpAttr {value : List Char}
    (hfits : Fits [32, 64] (convsAt rtcpFmt value) = true) :
    Tests (rtcpAttr pj st value) ((rtcpAddr pj value).isSome = true)
      { st with rem := { st.rem with defAddr1 := rtcpAddr pj value } } := by
  refine Tests.of_safe (safe_rtcpAttr.mpr hfits) (fun h => ?_) fun st' hst' => ?_
  · obtain ⟨addr, haddr⟩ := Option.isSome_iff_exists.mp h
    obtain ⟨port, net, ip, hconvs, hsock⟩ := rtcpAddr_eq_some.mp haddr
    rw [haddr]
    exact rtcpAttr_eq_ok.mpr
      ⟨hfits, port, net, ip, addr, hconvs, readAddr_eq_ok.mpr hsock, rfl⟩
  · obtain ⟨-, port, net, ip, addr, hconvs, hread, -⟩ := rtcpAttr_eq_ok.mp hst'
    have hsome := rtcpAddr_eq_some.mpr ⟨port, net, ip, hconvs, readAddr_eq_ok.mp hread⟩
    exact Option.isSome_iff_exists.mpr ⟨addr, hsome⟩

/-- A `candidate` attribute is tested for its candidate, which is kept. -/
theorem tests_candAttr {value : List Char}
    (hfits : Fits [32, 12, 80, 32] (convsAt candFmt value) = true)
    (hroom : st.rem.cand.length < maxCand) :
    Tests (candAttr pj st value) ((candOf pj value).isSome = true)
      { st with rem := (candOf pj value).elim st.rem st.rem.addCand } := by
  refine Tests.of_safe (safe_candAttr.mpr ⟨hfits, fun _ => hroom⟩) (fun h => ?_) fun st' hst' => ?_
  · obtain ⟨cand, hcand⟩ := Option.isSome_iff_exists.mp h
    obtain ⟨foundation, compId, transport, prio, ipaddr, port, type, t, addr, hconvs, htype,
      hsock, rfl⟩ := candOf_eq_some.mp hcand
    rw [hcand]
    exact candAttr_eq_ok.mpr ⟨hfits, hroom, foundation, compId, transport, prio, ipaddr, port,
      type, t, addr, hconvs, htype, readAddr_eq_ok.mpr hsock, rfl⟩
  · obtain ⟨-, -, foundation, compId, transport, prio, ipaddr, port, type, t, addr, hconvs, htype,
      hread, -⟩ := candAttr_eq_ok.mp hst'
    have hsome := candOf_eq_some.mpr ⟨foundation, compId, transport, prio, ipaddr, port, type, t,
      addr, hconvs, htype, readAddr_eq_ok.mp hread, rfl⟩
    exact Option.isSome_iff_exists.mpr ⟨_, hsome⟩

end Parts

/-! ### The variables after some lines -/

section State
variable {pj : PjSock} {lines : List (List Char)} {line : List Char}

/-- The variables of the reader after the lines. -/
def readState (pj : PjSock) (lines : List (List Char)) : InputState where
  rem := { remOf pj lines with defAddr0 := none }
  mediaCnt := (linesOf 'm' lines).length
  comp0Port := ((linesOf 'm' lines).head?.bind mediaPort).getD 0
  comp0Addr := ((linesOf 'c' lines).getLast?.bind connIp).getD []

/-- The lines of a kind, with one more line. -/
theorem linesOf_concat (c : Char) (lines : List (List Char)) (line : List Char) :
    linesOf c (lines ++ [line]) =
      linesOf c lines ++ if line.head? = some c then [line] else [] := by
  rw [linesOf, List.filter_append]
  congr 1
  by_cases h : line.head? = some c
  · rw [if_pos h]
    exact List.filter_cons_of_pos (decide_eq_true h)
  · rw [if_neg h]
    exact List.filter_cons_of_neg (by simpa using h)

/-- The values of an attribute, with one more line. -/
theorem attrsOf_concat (name : String) (lines : List (List Char)) (line : List Char) :
    attrsOf name (lines ++ [line]) = attrsOf name lines ++ (attrOf name.toList line).toList := by
  rw [attrsOf, List.filterMap_append]
  congr 1

/-- A line that is no attribute line has no attribute. -/
theorem attrOf_eq_none (ha : line.head? ≠ some 'a') (name : List Char) :
    attrOf name line = none := if_neg ha

/-- The value of an attribute in a line that `strtok` has split. -/
theorem attrOf_eq {attr value : List Char} {delim : Char} (ha : line.head? = some 'a')
    (htok : strtok attrDelims (line.drop 2) = some (attr, delim :: value)) (name : List Char) :
    attrOf name line = if attr = name then some value else none := by
  unfold attrOf
  rw [if_pos ha, htok]

/-- A later line that is read is accepted by its own tests. The first media line is the only one
that is read. -/
structure LineReads (pj : PjSock) (lines : List (List Char)) (line : List Char) : Prop where
  media : line.head? = some 'm' → linesOf 'm' lines = [] → (mediaPort line).isSome = true
  conn : line.head? = some 'c' → (connIp line).isSome = true
  rtcp : ∀ value, attrOf "rtcp".toList line = some value → (rtcpAddr pj value).isSome = true
  candidate : ∀ value, attrOf "candidate".toList line = some value →
    (candOf pj value).isSome = true

/-- The lines can be read when those before the last can, and the last one behind them. -/
theorem readable_concat :
    Readable pj (lines ++ [line]) ↔ Readable pj lines ∧ LineReads pj lines line := by
  constructor
  · intro h
    have hmedia := h.media
    have hconn := h.conn
    have hrtcp := h.rtcp
    have hcand := h.candidate
    rw [linesOf_concat] at hmedia hconn
    rw [attrsOf_concat] at hrtcp hcand
    refine ⟨⟨fun l hl => ?_, fun l hl => ?_, fun v hv => ?_, fun v hv => ?_⟩,
      ⟨fun hm hnil => ?_, fun hc => ?_, fun v hv => ?_, fun v hv => ?_⟩⟩
    · exact hmedia l (by rw [List.head?_append, hl]; rfl)
    · exact hconn l (List.mem_append_left _ hl)
    · exact hrtcp v (List.mem_append_left _ hv)
    · exact hcand v (List.mem_append_left _ hv)
    · exact hmedia line (by rw [hnil, if_pos hm]; rfl)
    · exact hconn line (List.mem_append_right _ (by rw [if_pos hc]; exact List.mem_cons_self))
    · exact hrtcp v (List.mem_append_right _ (by rw [hv]; exact List.mem_cons_self))
    · exact hcand v (List.mem_append_right _ (by rw [hv]; exact List.mem_cons_self))
  · rintro ⟨h, hl⟩
    refine ⟨fun l hl' => ?_, fun l hl' => ?_, fun v hv => ?_, fun v hv => ?_⟩
    · rw [linesOf_concat, List.head?_append] at hl'
      -- The first media line is among the lines before, or it is this one.
      cases hm : linesOf 'm' lines with
      | cons first rest =>
        rw [hm] at hl'
        exact h.media l (by rw [hm]; exact hl')
      | nil =>
        rw [hm] at hl'
        by_cases hline : line.head? = some 'm'
        · rw [if_pos hline] at hl'
          cases hl'
          exact hl.media hline hm
        · rw [if_neg hline] at hl'
          cases hl'
    · rw [linesOf_concat] at hl'
      rcases List.mem_append.mp hl' with hold | hnew
      · exact h.conn l hold
      · by_cases hline : line.head? = some 'c'
        · rw [if_pos hline] at hnew
          cases List.mem_singleton.mp hnew
          exact hl.conn hline
        · rw [if_neg hline] at hnew
          cases hnew
    · rw [attrsOf_concat] at hv
      rcases List.mem_append.mp hv with hold | hnew
      · exact h.rtcp v hold
      · exact hl.rtcp v (Option.mem_toList.mp hnew)
    · rw [attrsOf_concat] at hv
      rcases List.mem_append.mp hv with hold | hnew
      · exact h.candidate v hold
      · exact hl.candidate v (Option.mem_toList.mp hnew)

/-- A text that fits does so up to each line. -/
theorem LinesFit.of_concat (h : LinesFit (lines ++ [line])) : LinesFit lines := by
  obtain ⟨hlen, hmedia, hconn, hattr, hufrag, hpwd, hrtcp, hcand, hroom⟩ := h
  rw [linesOf_concat] at hmedia hconn hattr
  rw [attrsOf_concat] at hufrag hpwd hrtcp hcand hroom
  rw [List.length_append] at hroom
  exact
    { length := fun l hl => hlen l (List.mem_append_left _ hl)
      media := fun l hl => hmedia l (by rw [List.head?_append, hl]; rfl)
      conn := fun l hl => hconn l (List.mem_append_left _ hl)
      attr := fun l hl => hattr l (List.mem_append_left _ hl)
      ufrag := fun v hv => hufrag v (List.mem_append_left _ hv)
      pwd := fun v hv => hpwd v (List.mem_append_left _ hv)
      rtcp := fun v hv => hrtcp v (List.mem_append_left _ hv)
      candidate := fun v hv => hcand v (List.mem_append_left _ hv)
      cands := by omega }

/-- Only the kind and the attributes of a line matter. -/
theorem readState_congr {lines' : List (List Char)} (hm : linesOf 'm' lines' = linesOf 'm' lines)
    (hc : linesOf 'c' lines' = linesOf 'c' lines)
    (ha : ∀ name, attrsOf name lines' = attrsOf name lines) :
    readState pj lines' = readState pj lines := by
  unfold readState remOf candsOf
  simp only [hm, hc, ha]

/-- A line of another kind is not one more. -/
theorem linesOf_concat_of_ne {c c' : Char} (hline : line.head? = some c) (hne : c ≠ c') :
    linesOf c' (lines ++ [line]) = linesOf c' lines := by
  have hother : line.head? ≠ some c' := fun h => hne (Option.some.inj (hline.symm.trans h))
  rw [linesOf_concat, if_neg hother, List.append_nil]

/-- A line without the attribute adds no value. -/
theorem attrsOf_concat_of_none {name : String} (h : attrOf name.toList line = none) :
    attrsOf name (lines ++ [line]) = attrsOf name lines := by
  rw [attrsOf_concat, h]
  exact List.append_nil _

/-- A media line. -/
theorem readState_media (hm : line.head? = some 'm') :
    readState pj (lines ++ [line]) =
      { readState pj lines with
        mediaCnt := (linesOf 'm' lines).length + 1
        comp0Port :=
          if linesOf 'm' lines = [] then (mediaPort line).getD 0
          else (readState pj lines).comp0Port } := by
  have hmedia : linesOf 'm' (lines ++ [line]) = linesOf 'm' lines ++ [line] := by
    rw [linesOf_concat, if_pos hm]
  have hconn : linesOf 'c' (lines ++ [line]) = linesOf 'c' lines :=
    linesOf_concat_of_ne hm (by decide)
  have hattr : ∀ name, attrsOf name (lines ++ [line]) = attrsOf name lines := fun name =>
    attrsOf_concat_of_none (attrOf_eq_none (by rw [hm]; decide) _)
  unfold readState remOf candsOf
  simp only [hmedia, hconn, hattr, List.length_append, List.length_singleton]
  cases hnil : linesOf 'm' lines with
  | nil => rfl
  | cons first rest => rfl

/-- A connection line. -/
theorem readState_conn (hc : line.head? = some 'c') :
    readState pj (lines ++ [line]) =
      { readState pj lines with comp0Addr := (connIp line).getD [] } := by
  have hconn : linesOf 'c' (lines ++ [line]) = linesOf 'c' lines ++ [line] := by
    rw [linesOf_concat, if_pos hc]
  have hmedia : linesOf 'm' (lines ++ [line]) = linesOf 'm' lines :=
    linesOf_concat_of_ne hc (by decide)
  have hattr : ∀ name, attrsOf name (lines ++ [line]) = attrsOf name lines := fun name =>
    attrsOf_concat_of_none (attrOf_eq_none (by rw [hc]; decide) _)
  unfold readState remOf candsOf
  simp only [hmedia, hconn, hattr, List.getLast?_concat, Option.bind_some]

section Attribute
variable {attr value : List Char} {delim : Char}

/-- The values of an attribute, with one more attribute line. -/
theorem attrsOf_concat_attr (ha : line.head? = some 'a')
    (htok : strtok attrDelims (line.drop 2) = some (attr, delim :: value)) (name : String) :
    attrsOf name (lines ++ [line]) =
      attrsOf name lines ++ if attr = name.toList then [value] else [] := by
  rw [attrsOf_concat, attrOf_eq ha htok]
  split <;> rfl

/-- An attribute line changes `rem` only. -/
theorem readState_attr (ha : line.head? = some 'a') :
    readState pj (lines ++ [line]) =
      { readState pj lines with rem := { remOf pj (lines ++ [line]) with defAddr0 := none } } := by
  have hmedia : linesOf 'm' (lines ++ [line]) = linesOf 'm' lines :=
    linesOf_concat_of_ne ha (by decide)
  have hconn : linesOf 'c' (lines ++ [line]) = linesOf 'c' lines :=
    linesOf_concat_of_ne ha (by decide)
  unfold readState
  simp only [hmedia, hconn]

/-- The attribute that the reader knows, and what it leaves in `rem`. -/
theorem remOf_concat (ha : line.head? = some 'a')
    (htok : strtok attrDelims (line.drop 2) = some (attr, delim :: value)) :
    { remOf pj (lines ++ [line]) with defAddr0 := none } =
      if attr = "ice-ufrag".toList then
        { (readState pj lines).rem with ufrag := CString.ofBuf value }
      else if attr = "ice-pwd".toList then
        { (readState pj lines).rem with pwd := CString.ofBuf value }
      else if attr = "rtcp".toList then
        { (readState pj lines).rem with defAddr1 := rtcpAddr pj value }
      else if attr = "candidate".toList then
        (candOf pj value).elim (readState pj lines).rem (readState pj lines).rem.addCand
      else (readState pj lines).rem := by
  obtain ⟨hpu, hru, hrp, hcu, hcp, hcr⟩ := attr_names
  have hattrs : ∀ name : String, attrsOf name (lines ++ [line]) =
      attrsOf name lines ++ if attr = name.toList then [value] else [] :=
    attrsOf_concat_attr ha htok
  -- `comp_cnt` is raised by a comparison.
  have hmax : ∀ a b : Nat, max a b = if a < b then b else a := by
    intro a b
    split <;> omega
  unfold readState remOf candsOf
  split
  · rename_i h
    simp only [hattrs, h, hpu.symm, hru.symm, hcu.symm, if_true, if_false, List.append_nil,
      List.getLast?_concat, Option.getD_some]
  · split
    · rename_i h
      simp only [hattrs, h, hpu, hrp.symm, hcp.symm, if_true, if_false, List.append_nil,
        List.getLast?_concat, Option.getD_some]
    · split
      · rename_i h
        simp only [hattrs, h, hru, hrp, hcr.symm, if_true, if_false, List.append_nil,
          List.getLast?_concat, Option.bind_some]
      · split
        · rename_i h
          simp only [hattrs, h, hcu, hcp, hcr, if_true, if_false, List.append_nil,
            List.filterMap_append]
          cases hcand : candOf pj value with
          | none =>
            rw [List.filterMap_cons_none hcand, List.filterMap_nil, List.append_nil]
            rfl
          | some cand =>
            rw [List.filterMap_cons_some hcand, List.filterMap_nil, List.map_append,
              List.foldl_append]
            simp only [Option.elim_some, RemInfo.addCand, List.map_cons, List.map_nil,
              List.foldl_cons,
              List.foldl_nil, hmax]
        · rename_i hu hp hr hc
          simp only [hattrs, hu, hp, hr, hc, if_false, List.append_nil]

end Attribute

/-! ### One line -/

/-- The lines that are not attribute lines. -/
theorem lineReads_of_ne (ha : line.head? ≠ some 'a') :
    LineReads pj lines line ↔
      (line.head? = some 'm' → linesOf 'm' lines = [] → (mediaPort line).isSome = true) ∧
        (line.head? = some 'c' → (connIp line).isSome = true) := by
  refine ⟨fun h => ⟨h.media, h.conn⟩, fun ⟨hm, hc⟩ => ⟨hm, hc, fun v hv => ?_, fun v hv => ?_⟩⟩
  · cases (attrOf_eq_none ha _).symm.trans hv
  · cases (attrOf_eq_none ha _).symm.trans hv

/-- What it takes to read an attribute line. -/
theorem lineReads_attr {attr value : List Char} {delim : Char} (ha : line.head? = some 'a')
    (htok : strtok attrDelims (line.drop 2) = some (attr, delim :: value)) :
    LineReads pj lines line ↔
      (attr = "rtcp".toList → (rtcpAddr pj value).isSome = true) ∧
        (attr = "candidate".toList → (candOf pj value).isSome = true) := by
  have hattr : ∀ name v : List Char, attrOf name line = some v ↔ attr = name ∧ value = v := by
    intro name v
    rw [attrOf_eq ha htok]
    split
    · rename_i hname
      exact ⟨fun h => ⟨hname, Option.some.inj h⟩, fun h => congrArg some h.2⟩
    · rename_i hname
      exact ⟨fun h => (nomatch h), fun h => absurd h.1 hname⟩
  constructor
  · intro h
    exact ⟨fun hr => h.rtcp value ((hattr _ _).mpr ⟨hr, rfl⟩),
      fun hc => h.candidate value ((hattr _ _).mpr ⟨hc, rfl⟩)⟩
  · rintro ⟨hr, hc⟩
    refine ⟨fun hm => ?_, fun hm => ?_, fun v hv => ?_, fun v hv => ?_⟩
    · exact absurd (ha.symm.trans hm) (by decide)
    · exact absurd (ha.symm.trans hm) (by decide)
    · obtain ⟨hname, rfl⟩ := (hattr _ _).mp hv
      exact hr hname
    · obtain ⟨hname, rfl⟩ := (hattr _ _).mp hv
      exact hc hname

/-- A media line is tested for being readable, and leaves the state of one more line. -/
theorem mediaLine_readState (pj : PjSock) (hfit : LinesFit (lines ++ [line]))
    (hm : line.head? = some 'm') :
    Tests (mediaLine (readState pj lines) line) (LineReads pj lines line)
      (readState pj (lines ++ [line])) := by
  have hlen := hfit.length line (List.mem_append_right _ List.mem_cons_self)
  have hreads : LineReads pj lines line ↔
      (linesOf 'm' lines = [] → (mediaPort line).isSome = true) := by
    rw [lineReads_of_ne (by rw [hm]; decide)]
    exact ⟨fun h => h.1 hm, fun h => ⟨fun _ => h, fun hc => absurd (hm.symm.trans hc) (by decide)⟩⟩
  rw [readState_media hm]
  by_cases hnil : linesOf 'm' lines = []
  · have hcnt : (readState pj lines).mediaCnt = 0 := congrArg List.length hnil
    have hfits : Fits [32, 32] (convsAt mediaFmt (line.drop 2)) = true := by
      refine hfit.media line ?_
      rw [linesOf_concat, hnil, if_pos hm]
      rfl
    rw [if_pos hnil, hnil]
    exact (tests_mediaLine hcnt hlen hfits).congr
      (hreads.trans ⟨fun h => h hnil, fun h _ => h⟩).symm
  · -- Only the first media line is read.
    have hcnt : (readState pj lines).mediaCnt ≠ 0 := fun h0 =>
      hnil (List.length_eq_zero_iff.mp h0)
    have hok : mediaLine (readState pj lines) line =
        .ok { readState pj lines with mediaCnt := (readState pj lines).mediaCnt + 1 } :=
      mediaLine_eq_ok.mpr (Or.inl ⟨hcnt, rfl⟩)
    rw [hok, if_neg hnil]
    exact Tests.accept (hreads.mpr fun h0 => absurd h0 hnil)

/-- A connection line is tested for being readable, and leaves the state of one more line. -/
theorem connLine_readState (pj : PjSock) (hfit : LinesFit (lines ++ [line]))
    (hc : line.head? = some 'c') :
    Tests (connLine (readState pj lines) line) (LineReads pj lines line)
      (readState pj (lines ++ [line])) := by
  have hlen := hfit.length line (List.mem_append_right _ List.mem_cons_self)
  have hfits : Fits [32, 32, 80] (convsAt connFmt (line.drop 2)) = true := by
    refine hfit.conn line ?_
    rw [linesOf_concat, if_pos hc]
    exact List.mem_append_right _ List.mem_cons_self
  rw [readState_conn hc]
  refine (tests_connLine hlen hfits).congr ?_
  rw [lineReads_of_ne (by rw [hc]; decide)]
  exact ⟨fun h => ⟨fun hm => absurd (hc.symm.trans hm) (by decide), fun _ => h⟩, fun h => h.2 hc⟩

/-- An attribute line is tested for being readable, and leaves the state of one more line. -/
theorem attrLine_readState (pj : PjSock) (hfit : LinesFit (lines ++ [line]))
    (ha : line.head? = some 'a') :
    Tests (attrLine pj (readState pj lines) line) (LineReads pj lines line)
      (readState pj (lines ++ [line])) := by
  have hlen := hfit.length line (List.mem_append_right _ List.mem_cons_self)
  obtain ⟨attr, delim, value, htok⟩ := hfit.attr line (by
    rw [linesOf_concat, if_pos ha]
    exact List.mem_append_right _ List.mem_cons_self)
  have hattrs : ∀ name : String, attr = name.toList →
      attrsOf name (lines ++ [line]) = attrsOf name lines ++ [value] := by
    intro name hname
    rw [attrsOf_concat_attr ha htok, if_pos hname]
  have hmem : ∀ name : String, attr = name.toList → value ∈ attrsOf name (lines ++ [line]) := by
    intro name hname
    rw [hattrs name hname]
    exact List.mem_append_right _ List.mem_cons_self
  have harg : lineArg line = .ok (line.drop 2) := lineArg_eq_ok.mpr ⟨hlen, rfl⟩
  have hline : attrLine pj (readState pj lines) line =
      attrCase pj (readState pj lines) attr (delim :: value) := by
    unfold attrLine
    rw [harg, ok_bind, htok]
  have hvalue : attrValue (delim :: value) = .ok value := rfl
  obtain ⟨-, hru, hrp, hcu, hcp, hcr⟩ := attr_names
  rw [hline, readState_attr ha, remOf_concat ha htok]
  refine Tests.congr ?_ (lineReads_attr ha htok).symm
  unfold attrCase
  -- Both sides have the same tests, one name after another.
  by_cases hu : attr = "ice-ufrag".toList
  · have hcopy : strcpy 80 value = .ok (CString.ofBuf value) :=
      if_pos (hfit.ufrag value (hmem _ hu))
    rw [if_pos hu, if_pos hu, hvalue, ok_bind, hcopy, ok_bind]
    exact Tests.accept ⟨fun hr => absurd (hr.symm.trans hu) hru,
      fun hc => absurd (hc.symm.trans hu) hcu⟩
  rw [if_neg hu, if_neg hu]
  by_cases hp : attr = "ice-pwd".toList
  · have hcopy : strcpy 80 value = .ok (CString.ofBuf value) :=
      if_pos (hfit.pwd value (hmem _ hp))
    rw [if_pos hp, if_pos hp, hvalue, ok_bind, hcopy, ok_bind]
    exact Tests.accept ⟨fun hr => absurd (hr.symm.trans hp) hrp,
      fun hc => absurd (hc.symm.trans hp) hcp⟩
  rw [if_neg hp, if_neg hp]
  by_cases hr : attr = "rtcp".toList
  · rw [if_pos hr, if_pos hr, hvalue, ok_bind]
    refine (tests_rtcpAttr (hfit.rtcp value (hmem _ hr))).congr ?_
    exact ⟨fun h => ⟨fun _ => h, fun hc => absurd (hc.symm.trans hr) hcr⟩, fun h => h.1 hr⟩
  rw [if_neg hr, if_neg hr]
  by_cases hc : attr = "candidate".toList
  · -- The candidates so far are no more than the attributes, and there is room for one more.
    have hroom : (readState pj lines).rem.cand.length < maxCand := by
      have hall := hfit.cands
      rw [hattrs _ hc, List.length_append, List.length_singleton] at hall
      have hle : (candsOf pj lines).length ≤ (attrsOf "candidate" lines).length :=
        List.length_filterMap_le _ _
      exact Nat.lt_of_le_of_lt hle hall
    rw [if_pos hc, if_pos hc, hvalue, ok_bind]
    refine (tests_candAttr (hfit.candidate value (hmem _ hc)) hroom).congr ?_
    exact ⟨fun h => ⟨fun hr' => absurd hr' hr, fun _ => h⟩, fun h => h.2 hc⟩
  rw [if_neg hc, if_neg hc]
  exact Tests.accept ⟨fun hr' => absurd hr' hr, fun hc' => absurd hc' hc⟩

/-- One more line: the variables are those after it, or the reader goes to `on_error`. -/
theorem inputLine_readState (pj : PjSock) (hfit : LinesFit (lines ++ [line])) :
    Tests (inputLine pj line (readState pj lines)) (LineReads pj lines line)
      (readState pj (lines ++ [line])) := by
  rcases inputLine_cases pj (readState pj lines) line with
    ⟨rfl, -⟩ | ⟨hm, heq⟩ | ⟨hc, heq⟩ | ⟨ha, heq⟩ | ⟨-, hm, hc, ha, heq⟩
  · have hlen := hfit.length [] (List.mem_append_right _ List.mem_cons_self)
    exact absurd hlen (by decide)
  · rw [heq]
    exact mediaLine_readState pj hfit hm
  · rw [heq]
    exact connLine_readState pj hfit hc
  · rw [heq]
    exact attrLine_readState pj hfit ha
  · -- A line of another kind is skipped.
    have hsame : readState pj (lines ++ [line]) = readState pj lines := by
      refine readState_congr ?_ ?_ fun name => attrsOf_concat_of_none (attrOf_eq_none ha _)
      · rw [linesOf_concat, if_neg hm, List.append_nil]
      · rw [linesOf_concat, if_neg hc, List.append_nil]
    rw [heq, hsame]
    exact Tests.accept ((lineReads_of_ne ha).mpr ⟨fun h => absurd h hm, fun h => absurd h hc⟩)

/-! ### All lines -/

/-- A text without lines can be read. -/
theorem readable_nil (pj : PjSock) : Readable pj [] where
  media _ h := nomatch h
  conn _ h := nomatch h
  rtcp _ h := nomatch h
  candidate _ h := nomatch h

/-- The loop over the lines. -/
theorem foldlM_readState (pj : PjSock) (lines : List (List Char)) (hfit : LinesFit lines) :
    Tests (lines.foldlM (fun st line => inputLine pj line st) InputState.init)
      (Readable pj lines) (readState pj lines) := by
  -- The induction is on the last line, where the variables change.
  induction lines using List.reverseRecOn with
  | nil => exact Tests.accept (readable_nil pj)
  | append_singleton lines line ih =>
    rw [List.foldlM_append]
    refine Tests.congr ((ih hfit.of_concat).bind fun _ => ?_) readable_concat.symm
    rw [List.foldlM_cons]
    refine Tests.congr ((inputLine_readState pj hfit).bind fun _ => ?_) (and_iff_left trivial)
    exact Tests.accept trivial

/-! ### The checks behind the loop -/

/-- A maximum is not 0 when one of the numbers is not. -/
theorem foldl_max_ne_zero (l : List Nat) (a : Nat) :
    l.foldl max a ≠ 0 ↔ a ≠ 0 ∨ ∃ n ∈ l, n ≠ 0 := by
  induction l generalizing a with
  | nil => simp
  | cons n l ih =>
    have hmax : max a n ≠ 0 ↔ a ≠ 0 ∨ n ≠ 0 := by omega
    rw [List.foldl_cons, ih, hmax, or_assoc]
    simp only [List.mem_cons, exists_eq_or_imp]

/-- The address of a connection line is a word, so it is not empty. -/
theorem connIp_ne_nil {ip : List Char} (h : connIp line = some ip) : ip ≠ [] := by
  obtain ⟨c, net, hconvs⟩ := connIp_eq_some.mp h
  have hmem : .str ip ∈ convsAt connFmt (line.drop 2) := by
    rw [hconvs]
    exact List.mem_cons_of_mem _ (List.mem_cons_of_mem _ List.mem_cons_self)
  exact sscanf_word_ne_nil _ _ ip hmem

/-- The last value of an attribute, when it is not empty. -/
theorem lastAttr_ne_nil (values : List (List Char)) :
    (CString.ofBuf (values.getLast?.getD [])).chars ≠ [] ↔
      ∃ value, values.getLast? = some value ∧ (CString.ofBuf value).chars ≠ [] := by
  cases values.getLast? with
  | none => exact ⟨fun h => absurd rfl h, fun ⟨_, h, _⟩ => nomatch h⟩
  | some value => exact ⟨fun h => ⟨value, rfl, h⟩, fun ⟨_, heq, h⟩ => by cases heq; exact h⟩

/-- There is a component when a candidate has an id other than 0. -/
theorem compCnt_ne_zero :
    (readState pj lines).rem.compCnt ≠ 0 ↔
      ∃ value ∈ attrsOf "candidate" lines, ∃ cand, candOf pj value = some cand ∧
        cand.compId ≠ 0 := by
  show ((candsOf pj lines).map fun cand => cand.compId.toNat).foldl max 0 ≠ 0 ↔ _
  rw [foldl_max_ne_zero]
  constructor
  · rintro (h | ⟨n, hn, hne⟩)
    · exact absurd rfl h
    · obtain ⟨cand, hcand, rfl⟩ := List.mem_map.mp hn
      obtain ⟨value, hvalue, hsome⟩ := List.mem_filterMap.mp hcand
      refine ⟨value, hvalue, cand, hsome, fun h0 => hne ?_⟩
      rw [h0]
      rfl
  · rintro ⟨value, hvalue, cand, hsome, hne⟩
    refine Or.inr ⟨cand.compId.toNat, List.mem_map.mpr ⟨cand, ?_, rfl⟩, fun h0 => hne ?_⟩
    · exact List.mem_filterMap.mpr ⟨value, hvalue, hsome⟩
    · exact UInt8.toNat_inj.mp h0

/-- The default port comes from the first media line. -/
theorem comp0Port_ne_zero :
    (readState pj lines).comp0Port ≠ 0 ↔
      ∃ line port, (linesOf 'm' lines).head? = some line ∧ mediaPort line = some port ∧
        port ≠ 0 := by
  show ((linesOf 'm' lines).head?.bind mediaPort).getD 0 ≠ 0 ↔ _
  constructor
  · intro h
    cases hline : (linesOf 'm' lines).head? with
    | none =>
      rw [hline] at h
      exact absurd rfl h
    | some line =>
      rw [hline, Option.bind_some] at h
      cases hport : mediaPort line with
      | none =>
        rw [hport] at h
        exact absurd rfl h
      | some port =>
        rw [hport] at h
        exact ⟨line, port, rfl, hport, h⟩
  · rintro ⟨line, port, hline, hport, hne⟩
    rw [hline, Option.bind_some, hport]
    exact hne

/-- The default address comes from the last connection line. -/
theorem comp0Addr_ne_nil :
    (readState pj lines).comp0Addr ≠ [] ↔
      ∃ line ip, (linesOf 'c' lines).getLast? = some line ∧ connIp line = some ip := by
  show ((linesOf 'c' lines).getLast?.bind connIp).getD [] ≠ [] ↔ _
  constructor
  · intro h
    cases hline : (linesOf 'c' lines).getLast? with
    | none =>
      rw [hline] at h
      exact absurd rfl h
    | some line =>
      rw [hline, Option.bind_some] at h
      cases hip : connIp line with
      | none =>
        rw [hip] at h
        exact absurd rfl h
      | some ip => exact ⟨line, ip, rfl, hip⟩
  · rintro ⟨line, ip, hline, hip⟩
    rw [hline, Option.bind_some, hip]
    exact connIp_ne_nil hip

/-- The checks accept a complete description. -/
theorem checkRemote_readState (hread : Readable pj lines) :
    Tests (checkRemote pj (readState pj lines)) (Accepts pj lines)
      { readState pj lines with rem := remOf pj lines } := by
  have hcand : ∀ {value cand}, value ∈ attrsOf "candidate" lines → candOf pj value = some cand →
      (readState pj lines).rem.cand.length ≠ 0 := by
    intro value cand hvalue hsome h0
    have hmem : cand ∈ candsOf pj lines := List.mem_filterMap.mpr ⟨value, hvalue, hsome⟩
    have hnil : candsOf pj lines = [] := List.length_eq_zero_iff.mp h0
    rw [hnil] at hmem
    cases hmem
  unfold checkRemote
  by_cases hinfo : (readState pj lines).rem.cand.length = 0 ∨
      (readState pj lines).rem.ufrag.chars = [] ∨ (readState pj lines).rem.pwd.chars = [] ∨
      (readState pj lines).rem.compCnt = 0
  · -- "Error: not enough info".
    rw [if_pos hinfo]
    refine Tests.reject fun hacc => ?_
    obtain ⟨value, hvalue, cand, hsome, -⟩ := hacc.comp
    rcases hinfo with h | h | h | h
    · exact absurd h (hcand hvalue hsome)
    · exact absurd h ((lastAttr_ne_nil _).mpr hacc.ufrag)
    · exact absurd h ((lastAttr_ne_nil _).mpr hacc.pwd)
    · exact absurd h (compCnt_ne_zero.mpr hacc.comp)
  · rw [if_neg hinfo]
    simp only [not_or] at hinfo
    obtain ⟨-, hufrag, hpwd, hcomp⟩ := hinfo
    by_cases hdef : (readState pj lines).comp0Port = 0 ∨ (readState pj lines).comp0Addr = []
    · -- "Error: default address for component 0 not found".
      rw [if_pos hdef]
      refine Tests.reject fun hacc => ?_
      obtain ⟨line, ip, hline, hip, -⟩ := hacc.addr
      rcases hdef with h | h
      · exact absurd h (comp0Port_ne_zero.mpr hacc.port)
      · exact absurd h (comp0Addr_ne_nil.mpr ⟨line, ip, hline, hip⟩)
    · rw [if_neg hdef]
      obtain ⟨hport, haddr⟩ := not_or.mp hdef
      obtain ⟨mline, port, hmline, hmport, hne⟩ := comp0Port_ne_zero.mp hport
      obtain ⟨cline, ip, hcline, hip⟩ := comp0Addr_ne_nil.mp haddr
      have hstport : (readState pj lines).comp0Port = port := by
        show ((linesOf 'm' lines).head?.bind mediaPort).getD 0 = port
        rw [hmline, Option.bind_some, hmport]
        rfl
      have hstip : (readState pj lines).comp0Addr = ip := by
        show ((linesOf 'c' lines).getLast?.bind connIp).getD [] = ip
        rw [hcline, Option.bind_some, hip]
        rfl
      have hdefAddr : (remOf pj lines).defAddr0 = sockaddrOf pj ip port.toNat := by
        simp only [remOf, hmline, hmport, hcline, hip, Option.bind_some, bind]
      rw [readAddr_eq, hstport, hstip]
      cases hsock : sockaddrOf pj ip port.toNat with
      | none =>
        -- "Invalid IP address in c= line".
        refine Tests.reject fun hacc => ?_
        obtain ⟨line', ip', hline', hip', hvalid⟩ := hacc.addr
        rw [hcline] at hline'
        cases hline'
        rw [hip] at hip'
        cases hip'
        have hsome := (sockaddrOf_isSome pj ip port.toNat).mpr hvalid
        rw [hsock] at hsome
        cases hsome
      | some addr =>
        have hvalid : AddrReadable pj ip :=
          (sockaddrOf_isSome pj ip port.toNat).mp (by rw [hsock]; rfl)
        have hcomp' := compCnt_ne_zero.mp hcomp
        have hcands : attrsOf "candidate" lines ≠ [] := by
          obtain ⟨value, hvalue, -⟩ := hcomp'
          exact List.ne_nil_of_mem hvalue
        have hacc : Accepts pj lines :=
          { hread with
            ufrag := (lastAttr_ne_nil _).mp hufrag
            pwd := (lastAttr_ne_nil _).mp hpwd
            cands := hcands
            comp := hcomp'
            port := ⟨mline, port, hmline, hmport, hne⟩
            addr := ⟨cline, ip, hcline, hip, hvalid⟩ }
        have hrem : { (readState pj lines).rem with defAddr0 := some addr } = remOf pj lines := by
          rw [← hsock, ← hdefAddr]
          rfl
        rw [← hrem, ← hstport, ← hstip]
        exact Tests.accept hacc

end State

/-- A text with one candidate, in another order than that of the encoder. -/
def reorderedLines : List (List Char × List Char) :=
  ["a=ice-pwd:1d2c", "c=IN IP4 192.168.1.1", "a=candidate:H1 1 UDP 1 192.168.1.1 4000 typ host",
    "a=ice-ufrag:5f0a", "m=audio 4000 RTP/AVP 0"].map fun line => (line.toList, ['\r', '\n'])

/-- The lines of the example, by their kinds. -/
theorem linesOf_reorderedLines :
    linesOf 'm' (reorderedLines.map Prod.fst) = ["m=audio 4000 RTP/AVP 0".toList] ∧
      linesOf 'c' (reorderedLines.map Prod.fst) = ["c=IN IP4 192.168.1.1".toList] ∧
      linesOf 'a' (reorderedLines.map Prod.fst) =
        ["a=ice-pwd:1d2c".toList, "a=candidate:H1 1 UDP 1 192.168.1.1 4000 typ host".toList,
          "a=ice-ufrag:5f0a".toList] :=
  ⟨rfl, rfl, rfl⟩

/-- The attributes of the example. -/
theorem attrsOf_reorderedLines :
    attrsOf "ice-ufrag" (reorderedLines.map Prod.fst) = ["5f0a".toList] ∧
      attrsOf "ice-pwd" (reorderedLines.map Prod.fst) = ["1d2c".toList] ∧
      attrsOf "rtcp" (reorderedLines.map Prod.fst) = [] ∧
      attrsOf "candidate" (reorderedLines.map Prod.fst) =
        ["H1 1 UDP 1 192.168.1.1 4000 typ host".toList] :=
  ⟨rfl, rfl, rfl, rfl⟩

/-- The lines of the example fit into the buffers, and their numbers into an `int`. -/
theorem linesFit_reorderedLines : LinesFit (reorderedLines.map Prod.fst) := by
  obtain ⟨hm, hc, ha⟩ := linesOf_reorderedLines
  obtain ⟨hu, hp, hr, hcand⟩ := attrsOf_reorderedLines
  have hlen : ((reorderedLines.map Prod.fst).all fun line => decide (2 ≤ line.length)) = true := rfl
  refine ⟨fun line hline => ?_, fun line hline => ?_, fun line hline => ?_, fun line hline => ?_,
    fun value hvalue => ?_, fun value hvalue => ?_, fun value hvalue => ?_, fun value hvalue => ?_,
    ?_⟩
  · exact of_decide_eq_true (List.all_eq_true.mp hlen line hline)
  · rw [hm] at hline
    cases hline
    rfl
  · rw [hc, List.mem_singleton] at hline
    rw [hline]
    rfl
  · rw [ha, List.mem_cons, List.mem_cons, List.mem_singleton] at hline
    rcases hline with rfl | rfl | rfl
    · exact ⟨"ice-pwd".toList, ':', "1d2c".toList, rfl⟩
    · exact ⟨"candidate".toList, ':', "H1 1 UDP 1 192.168.1.1 4000 typ host".toList, rfl⟩
    · exact ⟨"ice-ufrag".toList, ':', "5f0a".toList, rfl⟩
  · rw [hu, List.mem_singleton] at hvalue
    rw [hvalue]
    decide
  · rw [hp, List.mem_singleton] at hvalue
    rw [hvalue]
    decide
  · rw [hr] at hvalue
    cases hvalue
  · rw [hcand, List.mem_singleton] at hvalue
    rw [hvalue]
    rfl
  · rw [hcand]
    decide

/-- The lines of the example have their ends. -/
theorem endedLine_reorderedLines : ∀ p ∈ reorderedLines, EndedLine p := by
  intro p hp
  have hall : (reorderedLines.all fun p => !p.1.isEmpty && p.1.all (fun c => !isEol c) &&
      !p.2.isEmpty && p.2.all isEol) = true := rfl
  have hends := List.all_eq_true.mp hall p hp
  simp only [Bool.and_eq_true, Bool.not_eq_true', List.all_eq_true, List.isEmpty_eq_false_iff]
    at hends
  obtain ⟨⟨⟨hne, hline⟩, hne'⟩, heol⟩ := hends
  exact ⟨hne, hline, hne', heol⟩

/-- The example is to be accepted. -/
theorem accepts_reorderedLines : Accepts inetSock (reorderedLines.map Prod.fst) := by
  obtain ⟨hm, hc, -⟩ := linesOf_reorderedLines
  obtain ⟨hu, hp, hr, hcand⟩ := attrsOf_reorderedLines
  have hport : mediaPort "m=audio 4000 RTP/AVP 0".toList = some 4000 := rfl
  have hip : connIp "c=IN IP4 192.168.1.1".toList = some "192.168.1.1".toList := rfl
  have hone : candOf inetSock "H1 1 UDP 1 192.168.1.1 4000 typ host".toList =
      some { type := .host, compId := 1, foundation := CString.ofBuf "H1".toList, prio := 1,
             addr := { addr := .ipv4 192 168 1 1, port := 4000 } } := rfl
  have hread : Readable inetSock (reorderedLines.map Prod.fst) := by
    refine ⟨fun line hline => ?_, fun line hline => ?_, fun value hvalue => ?_,
      fun value hvalue => ?_⟩
    · rw [hm] at hline
      cases hline
      rw [hport]
      rfl
    · rw [hc, List.mem_singleton] at hline
      rw [hline, hip]
      rfl
    · rw [hr] at hvalue
      cases hvalue
    · rw [hcand, List.mem_singleton] at hvalue
      rw [hvalue, hone]
      rfl
  exact
    { hread with
      ufrag := ⟨"5f0a".toList, by rw [hu]; rfl, by decide⟩
      pwd := ⟨"1d2c".toList, by rw [hp]; rfl, by decide⟩
      cands := by rw [hcand]; exact List.cons_ne_nil _ _
      comp := ⟨_, by rw [hcand]; exact List.mem_cons_self, _, hone, by decide⟩
      port := ⟨_, _, by rw [hm]; rfl, hport, by decide⟩
      addr := ⟨_, _, by rw [hc]; rfl, hip, rfl⟩ }

end EChannel.LibTrans
