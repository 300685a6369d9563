import EChannel.LibTrans.ImpPjIce
import EChannel.Support.Inet
import Mathlib.Data.List.Basic

/-!
# `EChannel.Proofs.LibTrans.SdpRoundTrip`: the reader understands the encoder

`encodeSession` appends printed pieces, so its text is a list of lines (`sdpLines`), each
ended by one line feed. `inputLines` reads such a text line by line
(`inputLines_lines`). What is left is one lemma for each kind of line: `strtok` and `sscanf`
take the line apart as `PRINT` has put it together.

The main result is `inputRemote_encodeSession`, for a session with one component. It assumes
of pjlib that an IPv4 address is printed in dotted decimal and that the reading inverts the
printing.
-/

set_option autoImplicit false

namespace EChannel.LibTrans

open CText

/-! ### The text of the encoder -/

/-- A computation succeeds when its parts do. -/
theorem bind_eq_ok {ε α β : Type} {x : Except ε α} {f : α → Except ε β} {b : β} :
    (x >>= f) = .ok b ↔ ∃ a, x = .ok a ∧ f a = .ok b := by
  cases x <;> simp [bind, Except.bind]

/-- A part that succeeds hands its value on. -/
theorem ok_bind {ε α β : Type} (a : α) (f : α → Except ε β) :
    ((Except.ok a : Except ε α) >>= f) = f a := rfl

section Encode
variable {pj : PjSock} {maxlen : Nat} {icest : PjIceStrans}

/-- The line of a candidate. -/
def candLine (pj : PjSock) (cand : PjIceSessCand) : List Char :=
  candText pj cand ++ cand.type.name

/-- The dummy lines. -/
def headerLines : List (List Char) :=
  ["v=0".toList, "o=- 3414953978 3414953978 IN IP4 localhost".toList, "s=ice".toList,
    "t=0 0".toList]

/-- The lines with the user fragment and the password. -/
def authLines (icest : PjIceStrans) : List (List Char) :=
  ["a=ice-ufrag:".toList ++ icest.ufrag.chars, "a=ice-pwd:".toList ++ icest.pwd.chars]

/-- The lines with the default address. -/
def defAddrLines (pj : PjSock) (addr : PjSockaddr) : List (List Char) :=
  ["m=audio ".toList ++ printNat addr.port.toNat ++ " RTP/AVP 0".toList,
    "c=IN IP4 ".toList ++ pj.print addr.addr]

/-- The lines of the encoded text of a session with one component. -/
def sdpLines (pj : PjSock) (icest : PjIceStrans) : List (List Char) :=
  headerLines ++ authLines icest ++ defAddrLines pj (icest.defCand 1).addr ++
    icest.lcand.map (candLine pj)

/-- Lines as one text. -/
def unlines (lines : List (List Char)) : List Char := lines.flatMap fun line => line ++ ['\n']

/-- The text of two lists of lines. -/
theorem unlines_append (lines lines' : List (List Char)) :
    unlines (lines ++ lines') = unlines lines ++ unlines lines' := List.flatMap_append

/-- The header is the text of its lines. -/
theorem headerText_eq : headerText = unlines headerLines := by decide +kernel

/-- A literal with a line feed in it prints the end of one line and the start of the next. -/
theorem two_lines (start x sep tail head y : List Char) (hsep : sep = tail ++ '\n' :: head) :
    start ++ x ++ sep ++ y ++ ['\n'] = unlines [start ++ x ++ tail, head ++ y] := by
  subst hsep
  simp [unlines]

/-- The credentials are the text of their lines. -/
theorem authText_eq (icest : PjIceStrans) : authText icest = unlines (authLines icest) := by
  have h := two_lines "a=ice-ufrag:".toList icest.ufrag.chars "\na=ice-pwd:".toList []
    "a=ice-pwd:".toList icest.pwd.chars (by decide)
  rwa [List.append_nil] at h

/-- The default address of the first component is the text of its lines. -/
theorem defAddrText_eq (pj : PjSock) (addr : PjSockaddr) :
    defAddrText pj 0 addr = unlines (defAddrLines pj addr) :=
  two_lines "m=audio ".toList _ " RTP/AVP 0\nc=IN IP4 ".toList " RTP/AVP 0".toList
    "c=IN IP4 ".toList _ (by decide)

/-- A text that is printed is appended. -/
theorem printText_ok {p text p' : List Char} (h : printText maxlen p text = .ok p') :
    p' = p ++ text := by
  unfold printText at h
  split at h
  · cases h
  · cases h
    rfl

/-- A candidate that is printed is its line. -/
theorem printCand_ok {cand : PjIceSessCand} {text : List Char}
    (h : printCand pj maxlen cand = .ok text) : text = candLine pj cand ++ ['\n'] := by
  obtain ⟨p, h₁, h⟩ := bind_eq_ok.mp h
  obtain ⟨p', h₂, h⟩ := bind_eq_ok.mp h
  split at h
  · cases h
  · cases h
    rw [printText_ok h₂, printText_ok h₁, candLine]
    simp

/-- A candidate that is encoded is appended as its line. -/
theorem encodeCand_ok {p p' : List Char} {cand : PjIceSessCand}
    (h : encodeCand pj maxlen p cand = .ok p') : p' = p ++ (candLine pj cand ++ ['\n']) := by
  unfold encodeCand at h
  split at h
  · rename_i text htext
    cases h
    rw [printCand_ok htext]
  · cases h

/-- The loop over the candidates appends their lines. -/
theorem encodeCands_ok : ∀ (cands : List PjIceSessCand) {p p' : List Char},
    cands.foldlM (encodeCand pj maxlen) p = .ok p' →
      p' = p ++ unlines (cands.map (candLine pj)) := by
  intro cands
  induction cands with
  | nil =>
    intro p p' h
    cases h
    simp [unlines]
  | cons cand cands ih =>
    intro p p' h
    rw [List.foldlM_cons] at h
    obtain ⟨p₁, h₁, h⟩ := bind_eq_ok.mp h
    rw [ih h, encodeCand_ok h₁]
    simp [unlines]

/-- The encoded text, when it fits. -/
theorem encodeSession_ok {text : List Char} (hcomp : icest.compCnt = 1)
    (hrun : icest.runningCompCnt = 1) (hcand : ∀ cand ∈ icest.lcand, cand.compId = 1)
    (hlen : icest.lcand.length ≤ maxCand) (h : encodeSession pj maxlen (some icest) = .ok text) :
    text = unlines (sdpLines pj icest) := by
  have henum : icest.enumCands 1 maxCand = .ok icest.lcand := by
    have hall : icest.lcand.filter (fun cand => decide (cand.compId.toNat = 1)) = icest.lcand :=
      List.filter_eq_self.mpr fun cand hmem => by simp [hcand cand hmem]
    simp [PjIceStrans.enumCands, hcomp, hall, List.take_of_length_le hlen]
  have hdef : icest.getDefCand 1 = .ok (icest.defCand 1) := by
    simp [PjIceStrans.getDefCand, hcomp]
  -- Each `PRINT` has succeeded, so the text is what they print, one behind the other.
  simp only [encodeSession] at h
  obtain ⟨p₁, h₁, h⟩ := bind_eq_ok.mp h
  obtain ⟨p₂, h₂, h⟩ := bind_eq_ok.mp h
  obtain ⟨p₃, h₃, h⟩ := bind_eq_ok.mp h
  by_cases hlast : p₃.length = maxlen
  · rw [if_pos hlast] at h
    cases h
  · rw [if_neg hlast] at h
    cases h
    rw [hrun, List.range_one, List.foldlM_cons] at h₃
    obtain ⟨p, h₃, hp⟩ := bind_eq_ok.mp h₃
    cases hp
    simp only [encodeComp, Nat.zero_add, hdef, henum] at h₃
    obtain ⟨cand, hc, h₃⟩ := bind_eq_ok.mp h₃
    cases hc
    obtain ⟨p₄, h₄, h₃⟩ := bind_eq_ok.mp h₃
    obtain ⟨cands, hc, h₃⟩ := bind_eq_ok.mp h₃
    cases hc
    rw [encodeCands_ok _ h₃, printText_ok h₄, printText_ok h₂, printText_ok h₁]
    rw [List.nil_append, headerText_eq, authText_eq, defAddrText_eq, sdpLines]
    simp only [unlines_append]

end Encode

/-! ### Reading line by line -/

section Lines
variable {pj : PjSock} {line rest : List Char}

/-- Characters of a line: neither NUL nor the end of the line. -/
def Plain (s : List Char) : Prop := ∀ c ∈ s, c ≠ nul ∧ isEol c = false

/-- The characters of a line, by evaluation. -/
theorem plain_of_all {s : List Char}
    (h : (s.all fun c => decide (c ≠ nul) && !isEol c) = true) : Plain s := by
  simpa only [Plain, List.all_eq_true, Bool.and_eq_true, Bool.not_eq_true', decide_eq_true_eq]
    using h

/-- Two texts are plain when each of them is. -/
theorem plain_append {s s' : List Char} : Plain (s ++ s') ↔ Plain s ∧ Plain s' :=
  List.forall_mem_append

/-- A text is plain when its first character and the rest are. -/
theorem plain_cons {c : Char} {s : List Char} :
    Plain (c :: s) ↔ (c ≠ nul ∧ isEol c = false) ∧ Plain s := List.forall_mem_cons

/-- A plain text has no null character. -/
theorem Plain.noNul {s : List Char} (h : Plain s) : nul ∉ s := fun hm => (h nul hm).1 rfl

/-- A word is plain. -/
theorem plain_isWord {w : List Char} (hw : IsWord w) : Plain w := by
  refine fun c hc => ⟨fun heq => hw.noNul (heq ▸ hc), ?_⟩
  have hspace := hw.noSpace c hc
  simp only [isspace, decide_eq_false_iff_not, not_or] at hspace
  simp [isEol, hspace]

/-- A printed number is plain. -/
theorem plain_printNat (n : Nat) : Plain (printNat n) := plain_isWord (isWord_printNat n)

/-- A line ends at the first end of line. -/
theorem scanLine_line {eol : Char} (hline : ∀ c ∈ line, isEol c = false)
    (heol : isEol eol = true) : scanLine (line ++ eol :: rest) = some (line, eol :: rest) := by
  have hp : ∀ c ∈ line, (!isEol c) = true := fun c hc => by simp [hline c hc]
  have hs : Stops (fun c => !isEol c) (eol :: rest) := Stops.cons (by simp [heol]) rest
  simp only [scanLine, dropWhile_append_stops hp hs, takeWhile_append_stops hp hs]

/-- A line, and the characters that end it. -/
structure EndedLine (p : List Char × List Char) : Prop where
  line_ne : p.1 ≠ []
  line : ∀ c ∈ p.1, isEol c = false
  eol_ne : p.2 ≠ []
  eol : ∀ c ∈ p.2, isEol c = true

/-- `inputLines` takes the first line off the text. -/
theorem inputLines_line {p : List Char × List Char} (hp : EndedLine p) (hrest : Stops isEol rest)
    (st : InputState) :
    inputLines pj (p.1 ++ p.2 ++ rest) st = (inputLine pj p.1 st >>= inputLines pj rest) := by
  obtain ⟨eol, eols, heols⟩ := List.exists_cons_of_ne_nil hp.eol_ne
  have heol : ∀ c ∈ eol :: eols, isEol c = true := heols ▸ hp.eol
  have htext : p.1 ++ p.2 ++ rest = p.1 ++ eol :: (eols ++ rest) := by
    rw [heols, List.append_assoc, List.cons_append]
  have hskip : (eol :: (eols ++ rest)).dropWhile isEol = rest :=
    dropWhile_append_stops (w := eol :: eols) heol hrest
  have hscan : scanLine (p.1 ++ eol :: (eols ++ rest)) = some (p.1, eol :: (eols ++ rest)) :=
    scanLine_line hp.line (heol eol List.mem_cons_self)
  rw [htext, inputLines, if_neg (by simp)]
  split
  · rename_i hnone
    rw [hscan] at hnone
    cases hnone
  · rename_i line' rest' hsome
    rw [hscan] at hsome
    cases hsome
    rw [hskip]
    cases inputLine pj p.1 st <;> rfl

/-- A text of ended lines. -/
def endedText (ps : List (List Char × List Char)) : List Char := ps.flatMap fun p => p.1 ++ p.2

/-- A text of lines that have their ends stops a line in front of it. -/
theorem stops_endedText : ∀ {ps : List (List Char × List Char)}, (∀ p ∈ ps, EndedLine p) →
    Stops isEol (endedText ps) := by
  intro ps h
  cases ps with
  | nil => exact Stops.nil isEol
  | cons p ps =>
    have hp := h p List.mem_cons_self
    obtain ⟨c, line, hline⟩ := List.exists_cons_of_ne_nil hp.line_ne
    have hc : isEol c = false := hp.line c (hline ▸ List.mem_cons_self)
    rw [endedText, List.flatMap_cons, hline]
    exact Stops.cons hc _

/-- A text of lines is read line by line. -/
theorem inputLines_endedText : ∀ (ps : List (List Char × List Char)), (∀ p ∈ ps, EndedLine p) →
    ∀ st, inputLines pj (endedText ps) st =
      (ps.map Prod.fst).foldlM (fun st line => inputLine pj line st) st := by
  intro ps
  induction ps with
  | nil =>
    intro _ st
    rw [endedText, List.flatMap_nil, inputLines, if_pos rfl]
    rfl
  | cons p ps ih =>
    intro h st
    have htail : ∀ p ∈ ps, EndedLine p := fun p hp => h p (List.mem_cons_of_mem _ hp)
    have htext : endedText (p :: ps) = p.1 ++ p.2 ++ endedText ps := List.flatMap_cons
    rw [htext, inputLines_line (h p List.mem_cons_self) (stops_endedText htail), List.map_cons,
      List.foldlM_cons]
    exact congrArg _ (funext fun st => ih htail st)

/-- A line that the reader takes whole. -/
def IsLine (line : List Char) : Prop := line ≠ [] ∧ Plain line

/-- The lines of the encoder are ended by a line feed each. -/
theorem inputLines_lines (lines : List (List Char)) (h : ∀ line ∈ lines, IsLine line)
    (st : InputState) :
    inputLines pj (unlines lines) st =
      lines.foldlM (fun st line => inputLine pj line st) st := by
  have htext : unlines lines = endedText (lines.map fun line => (line, ['\n'])) := by
    rw [endedText, List.flatMap_map]
    rfl
  have hlines : (lines.map fun line => (line, ['\n'])).map Prod.fst = lines := by
    rw [List.map_map]
    exact List.map_id lines
  rw [htext, inputLines_endedText, hlines]
  intro p hp
  obtain ⟨line, hline, rfl⟩ := List.mem_map.mp hp
  obtain ⟨hne, hplain⟩ := h line hline
  exact ⟨hne, fun c hc => (hplain c hc).2, List.cons_ne_nil _ _, by simp [isEol]⟩

end Lines

/-! ### The lines of the encoder -/

section Parse
variable {pj : PjSock} {st : InputState}

/-- The string at a pointer to characters without NUL, as `sscanf` sees it. -/
theorem scanInto_ok {fmt : String} {sizes : List Nat} {src : List Char} {convs : List Conv}
    (hsrc : nul ∉ src) (hconvs : sscanf (directives fmt.toList) src = convs)
    (hfits : Fits sizes convs = true) : scanInto fmt sizes src = .ok convs := by
  simp only [scanInto, CString.ofBuf_chars_of_noNul hsrc, hconvs, hfits, if_true]

/-- The argument of a line is behind its first two characters. -/
theorem lineArg_cons (c d : Char) (s : List Char) : lineArg (c :: d :: s) = .ok s := by
  rw [lineArg, if_neg (by simp)]
  rfl

/-- An attribute line, cut at the colon. -/
theorem inputLine_attr (n : List Char) {lit value : List Char}
    (hlit : lit = 'a' :: '=' :: (n ++ [':'])) (hne : n ≠ [])
    (hn : (n.all fun c => decide (c ∉ attrDelims ∧ c ≠ nul)) = true) :
    inputLine pj (lit ++ value) st = attrCase pj st n (':' :: value) := by
  subst hlit
  have hname : ∀ c ∈ n, c ∉ attrDelims ∧ c ≠ nul := fun c hc =>
    of_decide_eq_true (List.all_eq_true.mp hn c hc)
  have htok : strtok attrDelims (n ++ ':' :: value) = some (n, ':' :: value) :=
    strtok_append hne hname (by decide)
  simp [inputLine, attrLine, lineArg_cons, htok, bind, Except.bind]

/-- The `ice-ufrag` line sets the user name. -/
theorem inputLine_ufrag {v : CString} (hv : v.length < 80) :
    inputLine pj ("a=ice-ufrag:".toList ++ v.chars) st =
      .ok { st with rem := { st.rem with ufrag := v } } := by
  rw [inputLine_attr "ice-ufrag".toList (by decide) (by decide) (by decide)]
  simp [attrCase, attrValue, strcpy, hv, bind, Except.bind]

/-- The `ice-pwd` line sets the password. -/
theorem inputLine_pwd {v : CString} (hv : v.length < 80) :
    inputLine pj ("a=ice-pwd:".toList ++ v.chars) st =
      .ok { st with rem := { st.rem with pwd := v } } := by
  rw [inputLine_attr "ice-pwd".toList (by decide) (by decide) (by decide)]
  simp [attrCase, attrValue, strcpy, hv, bind, Except.bind]

/-- The first media line: `portstr` is its second word. -/
theorem inputLine_media (w tail : List Char) {lit port sep : List Char} (hm : st.mediaCnt = 0)
    (hlit : lit = 'm' :: '=' :: (w ++ [' '])) (hsep : sep = ' ' :: tail) (hw : IsWord w)
    (hport : IsWord port) (htail : nul ∉ tail) (hwlen : w.length < 32)
    (hplen : port.length < 32) :
    inputLine pj (lit ++ port ++ sep) st =
      .ok { st with mediaCnt := 1, comp0Port := UInt32.ofInt (atoi port) } := by
  subst hlit hsep
  have hdir : directives mediaFmt.toList =
      [.str, .ws, .str, .ws, .lit 'R', .lit 'T', .lit 'P', .lit '/'] := by decide
  have hconvs : sscanf (directives mediaFmt.toList) (w ++ ' ' :: (port ++ ' ' :: tail)) =
      [.str w, .str port] := by
    -- What follows `%s %s` in the format stores nothing, whether it matches or not.
    rw [hdir, sscanf_str hw (stops_blank _), sscanf_ws (hport.stops _),
      sscanf_str hport (stops_blank _), sscanf_eq_nil (by decide)]
  have hnul : nul ∉ w ++ ' ' :: (port ++ ' ' :: tail) := by
    have hblank : nul ≠ ' ' := by decide
    simp [hw.noNul, hport.noNul, htail, hblank]
  have hscan : scanInto mediaFmt [32, 32] (w ++ ' ' :: (port ++ ' ' :: tail)) =
      .ok [.str w, .str port] := scanInto_ok hnul hconvs (by simp [Fits, hwlen, hplen])
  simp [inputLine, mediaLine, hm, lineArg_cons, hscan, bind, Except.bind]

/-- A connection line: `ip` is its third word. -/
theorem inputLine_conn (c net : List Char) {lit ip : List Char}
    (hlit : lit = 'c' :: '=' :: (c ++ ' ' :: (net ++ [' ']))) (hc : IsWord c)
    (hnet : IsWord net) (hip : IsWord ip) (hclen : c.length < 32) (hnetlen : net.length < 32)
    (hiplen : ip.length < 80) :
    inputLine pj (lit ++ ip) st = .ok { st with comp0Addr := ip } := by
  subst hlit
  have hdir : directives connFmt.toList = [.str, .ws, .str, .ws, .str] := by decide
  have hconvs : sscanf (directives connFmt.toList) (c ++ ' ' :: (net ++ ' ' :: ip)) =
      [.str c, .str net, .str ip] := by
    have hstart : Stops isspace ip := List.append_nil ip ▸ hip.stops []
    rw [hdir, sscanf_str hc (stops_blank _), sscanf_ws (hnet.stops _),
      sscanf_str hnet (stops_blank _), sscanf_ws hstart, sscanf_str_end hip, sscanf]
  have hnul : nul ∉ c ++ ' ' :: (net ++ ' ' :: ip) := by
    have hblank : nul ≠ ' ' := by decide
    simp [hc.noNul, hnet.noNul, hip.noNul, hblank]
  have hscan : scanInto connFmt [32, 32, 80] (c ++ ' ' :: (net ++ ' ' :: ip)) =
      .ok [.str c, .str net, .str ip] :=
    scanInto_ok hnul hconvs (by simp [Fits, hclen, hnetlen, hiplen])
  simp [inputLine, connLine, lineArg_cons, hscan, bind, Except.bind]

/-- What stands behind `a=candidate:`. -/
def candValue (pj : PjSock) (cand : PjIceSessCand) : List Char :=
  cand.foundation.chars ++ ' ' :: (printNat cand.compId.toNat ++ ' ' :: ("UDP".toList ++
    ' ' :: (printNat cand.prio.toNat ++ ' ' :: (pj.print cand.addr.addr ++
    ' ' :: (printNat cand.addr.port.toNat ++ ' ' :: 't' :: 'y' :: 'p' :: ' ' ::
    cand.type.name)))))

/-- A candidate line is the attribute name and the value. -/
theorem candLine_eq (pj : PjSock) (cand : PjIceSessCand) :
    candLine pj cand = "a=candidate:".toList ++ candValue pj cand := by
  unfold candLine candText candValue
  generalize "a=candidate:".toList = lit
  simp

/-- A number ends at a blank. -/
theorem stops_digit_blank (s : List Char) : Stops Char.isDigit (' ' :: s) :=
  Stops.cons (by decide) s

/-- A candidate that the text can carry. -/
structure CandOk (cand : PjIceSessCand) : Prop where
  type : cand.type = .host ∨ cand.type = .srflx ∨ cand.type = .relayed
  foundation_ne : cand.foundation.chars ≠ []
  foundation_noSpace : ∀ c ∈ cand.foundation.chars, isspace c = false
  foundation_length : cand.foundation.length ≤ 31
  compId : cand.compId = 1
  prio : cand.prio.toNat < 2147483648
  addr : ∃ a b c d, cand.addr.addr = .ipv4 a b c d

/-- The foundation of a candidate is a word. -/
theorem CandOk.isWord {cand : PjIceSessCand} (h : CandOk cand) :
    IsWord cand.foundation.chars :=
  ⟨h.foundation_ne, h.foundation_noSpace, cand.foundation.noNul⟩

/-- The name of a candidate type is a word. -/
theorem isWord_name (type : PjIceCandType) : IsWord type.name := by
  cases type <;> exact isWord_of_all (by decide) (by decide)

/-- `sscanf` takes the printed candidate apart. -/
theorem sscanf_candValue {cand : PjIceSessCand} (h : CandOk cand)
    (hip : IsWord (pj.print cand.addr.addr)) :
    sscanf (directives candFmt.toList) (candValue pj cand) =
      [.str cand.foundation.chars, .int cand.compId.toNat, .str "UDP".toList,
        .int cand.prio.toNat, .str (pj.print cand.addr.addr), .int cand.addr.port.toNat,
        .str cand.type.name] := by
  have hdir : directives candFmt.toList =
      [.str, .ws, .int, .ws, .str, .ws, .int, .ws, .str, .ws, .int, .ws, .lit 't', .lit 'y',
        .lit 'p', .ws, .str] := by decide
  have hudp : IsWord "UDP".toList := isWord_of_all (by decide) (by decide)
  have hcomp : cand.compId.toNat < 2147483648 := lt_of_lt_of_le cand.compId.toNat_lt (by decide)
  have hport : cand.addr.port.toNat < 2147483648 :=
    lt_of_lt_of_le cand.addr.port.toNat_lt (by decide)
  have hname : Stops isspace cand.type.name :=
    List.append_nil cand.type.name ▸ (isWord_name cand.type).stops []
  -- One directive at a time. A word or a number ends at the blank that was printed behind it.
  rw [hdir, candValue, sscanf_str h.isWord (stops_blank _),
    sscanf_ws ((isWord_printNat _).stops _), sscanf_int hcomp (stops_digit_blank _),
    sscanf_ws (hudp.stops _), sscanf_str hudp (stops_blank _),
    sscanf_ws ((isWord_printNat _).stops _), sscanf_int h.prio (stops_digit_blank _),
    sscanf_ws (hip.stops _), sscanf_str hip (stops_blank _),
    sscanf_ws ((isWord_printNat _).stops _), sscanf_int hport (stops_digit_blank _),
    sscanf_ws (Stops.cons (by decide) _), sscanf_lit, sscanf_lit, sscanf_lit, sscanf_ws hname,
    sscanf_str_end (isWord_name _), sscanf]

end Parse

/-! ### Addresses -/

/-- pjlib prints an IPv4 address in dotted decimal and reads it back. -/
structure InverseOnIPv4 (pj : PjSock) : Prop where
  print_ipv4 : ∀ a b c d, pj.print (.ipv4 a b c d) = Inet.dotted a b c d
  set_print : ∀ a b c d,
    pj.setStrAddr .inet (pj.print (.ipv4 a b c d)) = some (.ipv4 a b c d)

section Roundtrip
variable {pj : PjSock} {st : InputState}

/-- A printed IPv4 address is a short word. -/
theorem InverseOnIPv4.isWord (hpj : InverseOnIPv4 pj) (a b c d : UInt8) :
    IsWord (pj.print (.ipv4 a b c d)) ∧ (pj.print (.ipv4 a b c d)).length < 80 := by
  rw [hpj.print_ipv4]
  exact ⟨Inet.isWord_dotted a b c d, lt_of_le_of_lt (Inet.length_dotted a b c d) (by decide)⟩

/-- A printed IPv4 address is read back. -/
theorem InverseOnIPv4.readAddr (hpj : InverseOnIPv4 pj) (a b c d : UInt8) (port : Int) :
    readAddr pj (pj.print (.ipv4 a b c d)) port =
      .ok { addr := .ipv4 a b c d, port := UInt16.ofInt port } := by
  have hcolon : ':' ∉ pj.print (.ipv4 a b c d) := by
    rw [hpj.print_ipv4]
    exact Inet.notMem_dotted a b c d (by decide) (by decide)
  rw [LibTrans.readAddr, if_neg hcolon, hpj.set_print]

/-! ### The integers of a candidate -/

/-- A byte is read back from its number. -/
theorem ofInt_toNat_uint8 (x : UInt8) : UInt8.ofInt x.toNat = x := by
  have hlt := x.toNat_lt
  have h : ((x.toNat : Int) % 2 ^ 8).toNat = x.toNat := by omega
  rw [UInt8.ofInt, h, UInt8.ofNat_toNat]

/-- A port is read back from its number. -/
theorem ofInt_toNat_uint16 (x : UInt16) : UInt16.ofInt x.toNat = x := by
  have hlt := x.toNat_lt
  have h : ((x.toNat : Int) % 2 ^ 16).toNat = x.toNat := by omega
  rw [UInt16.ofInt, h, UInt16.ofNat_toNat]

/-- A number below 2^32 is kept by an `unsigned`. -/
theorem toNat_ofInt_uint32 {n : Nat} (hn : n < 4294967296) : (UInt32.ofInt n).toNat = n := by
  have h : ((n : Int) % 2 ^ 32).toNat = n := by omega
  rw [UInt32.ofInt, h, UInt32.toNat_ofNat_of_lt' hn]

/-! ### Candidate lines -/

/-- The types that are printed are read back from their names. -/
theorem candType_name {type : PjIceCandType}
    (h : type = .host ∨ type = .srflx ∨ type = .relayed) : candType type.name = .ok type := by
  rcases h with rfl | rfl | rfl <;> decide

/-- The value of a candidate line is plain. -/
theorem plain_candValue {cand : PjIceSessCand} (h : CandOk cand)
    (hip : IsWord (pj.print cand.addr.addr)) : Plain (candValue pj cand) := by
  have hblank : ' ' ≠ nul ∧ isEol ' ' = false := by decide
  have htyp : Plain ['t', 'y', 'p'] := plain_of_all (by decide)
  have hudp : Plain "UDP".toList := plain_of_all (by decide)
  simp only [plain_cons] at htyp
  simp only [candValue, plain_append, plain_cons, plain_isWord h.isWord, plain_printNat, hudp,
    plain_isWord hip, plain_isWord (isWord_name _), hblank, htyp, ne_eq, not_false_eq_true,
    and_self]

/-- A candidate line is read back as the candidate. -/
theorem inputLine_cand (hpj : InverseOnIPv4 pj) {cand : PjIceSessCand} (h : CandOk cand)
    (hlen : st.rem.cand.length < maxCand) :
    inputLine pj (candLine pj cand) st = .ok { st with rem := st.rem.addCand cand } := by
  obtain ⟨a, b, c, d, haddr⟩ := h.addr
  obtain ⟨hip, hiplen⟩ := hpj.isWord a b c d
  rw [← haddr] at hip hiplen
  have hread := hpj.readAddr a b c d cand.addr.port.toNat
  rw [← haddr, ofInt_toNat_uint16] at hread
  have hname : cand.type.name.length < 32 := by cases cand.type <;> decide
  have hfound : cand.foundation.chars.length < 32 := Nat.lt_succ_of_le h.foundation_length
  have hudp : "UDP".toList.length < 12 := by decide
  have hscan : scanInto candFmt [32, 12, 80, 32] (candValue pj cand) = .ok _ :=
    scanInto_ok (plain_candValue h hip).noNul (sscanf_candValue h hip)
      (by simp only [Fits, hfound, hudp, hiplen, hname, decide_true, Bool.and_self])
  have hprio : UInt32.ofInt cand.prio.toNat = cand.prio := by
    rw [← UInt32.toNat_inj, toNat_ofInt_uint32 cand.prio.toNat_lt]
  rw [candLine_eq, inputLine_attr "candidate".toList (by decide) (by decide) (by decide)]
  simp [attrCase, attrValue, candAttr, hscan, hlen, candType_name h.type, hread, hprio,
    ofInt_toNat_uint8, bind, Except.bind]

/-- The loop over the candidate lines. -/
theorem inputLine_cands (hpj : InverseOnIPv4 pj) : ∀ (cands : List PjIceSessCand)
    (st : InputState), (∀ cand ∈ cands, CandOk cand) →
    st.rem.cand.length + cands.length ≤ maxCand →
    (cands.map (candLine pj)).foldlM (fun st line => inputLine pj line st) st =
      .ok { st with rem := cands.foldl RemInfo.addCand st.rem } := by
  intro cands
  induction cands with
  | nil => intro st _ _; rfl
  | cons cand cands ih =>
    intro st h hlen
    rw [List.length_cons] at hlen
    rw [List.map_cons, List.foldlM_cons,
      inputLine_cand hpj (h cand List.mem_cons_self) (by omega)]
    refine ih _ (fun c hc => h c (List.mem_cons_of_mem _ hc)) ?_
    simp only [RemInfo.addCand, List.length_append, List.length_singleton]
    omega

/-- The candidates in order, and the number of components. -/
theorem foldl_addCand : ∀ (cands : List PjIceSessCand) (rem : RemInfo),
    (∀ cand ∈ cands, CandOk cand) → rem.compCnt ≤ 1 →
    cands.foldl RemInfo.addCand rem =
      { rem with
        cand := rem.cand ++ cands
        compCnt := if cands = [] then rem.compCnt else 1 } := by
  intro cands
  induction cands with
  | nil => intro rem _ _; simp
  | cons cand cands ih =>
    intro rem h hcnt
    -- Every candidate has the component 1, so the count is 1 from the first one on.
    have hcomp : (rem.addCand cand).compCnt = 1 := by
      simp only [RemInfo.addCand, (h cand List.mem_cons_self).compId]
      split
      · rfl
      · rename_i hge
        have : ¬ rem.compCnt < 1 := hge
        omega
    rw [List.foldl_cons, ih _ (fun c hc => h c (List.mem_cons_of_mem _ hc)) hcomp.le, hcomp]
    simp [RemInfo.addCand]

/-- A session with one component that the text can carry. -/
structure SessionOk (icest : PjIceStrans) : Prop where
  compCnt : icest.compCnt = 1
  runningCompCnt : icest.runningCompCnt = 1
  ufrag_ne : icest.ufrag.chars ≠ []
  ufrag_length : icest.ufrag.length ≤ 79
  ufrag_noEol : ∀ c ∈ icest.ufrag.chars, isEol c = false
  pwd_ne : icest.pwd.chars ≠ []
  pwd_length : icest.pwd.length ≤ 79
  pwd_noEol : ∀ c ∈ icest.pwd.chars, isEol c = false
  lcand_ne : icest.lcand ≠ []
  lcand_length : icest.lcand.length ≤ maxCand
  lcand : ∀ cand ∈ icest.lcand, CandOk cand
  defAddr : ∃ a b c d, (icest.defCand 1).addr.addr = .ipv4 a b c d
  defPort : (icest.defCand 1).addr.port ≠ 0

/-- Every line of the encoded text is taken whole. -/
theorem isLine_sdpLines (hpj : InverseOnIPv4 pj) {icest : PjIceStrans} (h : SessionOk icest) :
    ∀ line ∈ sdpLines pj icest, IsLine line := by
  obtain ⟨a, b, c, d, haddr⟩ := h.defAddr
  have hip := plain_isWord (hpj.isWord a b c d).1
  rw [← haddr] at hip
  -- A line is a literal start and what is printed behind it.
  have hlit : ∀ {lit s : List Char}, lit ≠ [] → Plain lit → Plain s → IsLine (lit ++ s) :=
    fun hne hlit hs => ⟨by simp [hne], plain_append.mpr ⟨hlit, hs⟩⟩
  have htext : ∀ {s : CString}, (∀ c ∈ s.chars, isEol c = false) → Plain s.chars :=
    fun {s} hs c hc => ⟨fun heq => s.noNul (heq ▸ hc), hs c hc⟩
  intro line hline
  simp only [sdpLines, List.mem_append] at hline
  rcases hline with ((hline | hline) | hline) | hline
  · -- The header is fixed text.
    have hheader : (headerLines.all fun line => decide (line ≠ []) &&
        line.all fun c => decide (c ≠ nul) && !isEol c) = true := by decide +kernel
    have hthis := List.all_eq_true.mp hheader line hline
    rw [Bool.and_eq_true, decide_eq_true_eq] at hthis
    exact ⟨hthis.1, plain_of_all hthis.2⟩
  · rcases List.mem_pair.mp hline with rfl | rfl
    · exact hlit (by decide) (plain_of_all (by decide)) (htext h.ufrag_noEol)
    · exact hlit (by decide) (plain_of_all (by decide)) (htext h.pwd_noEol)
  · rcases List.mem_pair.mp hline with rfl | rfl
    · rw [List.append_assoc]
      exact hlit (by decide) (plain_of_all (by decide))
        (plain_append.mpr ⟨plain_printNat _, plain_of_all (by decide)⟩)
    · exact hlit (by decide) (plain_of_all (by decide)) hip
  · -- A candidate line has an address of the socket library.
    obtain ⟨cand, hcand, rfl⟩ := List.mem_map.mp hline
    obtain ⟨a, b, c, d, haddr⟩ := (h.lcand cand hcand).addr
    rw [candLine_eq]
    refine hlit (by decide) (plain_of_all (by decide)) (plain_candValue (h.lcand cand hcand) ?_)
    rw [haddr]
    exact (hpj.isWord a b c d).1

/-- The lines with the user fragment and the password. -/
theorem inputLine_authLines {icest : PjIceStrans} (h : SessionOk icest) :
    (authLines icest).foldlM (fun st line => inputLine pj line st) st =
      .ok { st with rem := { st.rem with ufrag := icest.ufrag, pwd := icest.pwd } } := by
  rw [authLines, List.foldlM_cons, inputLine_ufrag (Nat.lt_succ_of_le h.ufrag_length),
    ok_bind, List.foldlM_cons, inputLine_pwd (Nat.lt_succ_of_le h.pwd_length)]
  rfl

/-- The lines with the default address. -/
theorem inputLine_defAddrLines (hpj : InverseOnIPv4 pj) {icest : PjIceStrans}
    (h : SessionOk icest) (hm : st.mediaCnt = 0) :
    (defAddrLines pj (icest.defCand 1).addr).foldlM (fun st line => inputLine pj line st) st =
      .ok { st with
        mediaCnt := 1
        comp0Port := UInt32.ofInt (icest.defCand 1).addr.port.toNat
        comp0Addr := pj.print (icest.defCand 1).addr.addr } := by
  obtain ⟨a, b, c, d, haddr⟩ := h.defAddr
  obtain ⟨hip, hiplen⟩ := hpj.isWord a b c d
  rw [← haddr] at hip hiplen
  have hlt := (icest.defCand 1).addr.port.toNat_lt
  have hlen : (printNat (icest.defCand 1).addr.port.toNat).length < 32 :=
    lt_of_lt_of_le (length_printNat_lt (k := 5) (lt_of_lt_of_le hlt (by decide)) (by decide))
      (by decide)
  have hword : IsWord "audio".toList ∧ IsWord "IN".toList ∧ IsWord "IP4".toList :=
    ⟨isWord_of_all (by decide) (by decide), isWord_of_all (by decide) (by decide),
      isWord_of_all (by decide) (by decide)⟩
  rw [defAddrLines, List.foldlM_cons, inputLine_media "audio".toList "RTP/AVP 0".toList hm
    (by decide) (by decide) hword.1 (isWord_printNat _) (by decide) (by decide) hlen,
    atoi_printNat (lt_of_lt_of_le hlt (by decide)), ok_bind, List.foldlM_cons]
  rw [inputLine_conn "IN".toList "IP4".toList (by decide) hword.2.1 hword.2.2 hip (by decide)
    (by decide) hiplen]
  rfl

/-- The variables after the lines of the encoded text. -/
theorem inputLine_sdpLines (hpj : InverseOnIPv4 pj) {icest : PjIceStrans}
    (h : SessionOk icest) :
    (sdpLines pj icest).foldlM (fun st line => inputLine pj line st) InputState.init =
      .ok { rem := { ufrag := icest.ufrag, pwd := icest.pwd, compCnt := 1, defAddr0 := none,
                     defAddr1 := none, cand := icest.lcand }
            mediaCnt := 1
            comp0Port := UInt32.ofInt (icest.defCand 1).addr.port.toNat
            comp0Addr := pj.print (icest.defCand 1).addr.addr } := by
  have hheader : headerLines.foldlM (fun st line => inputLine pj line st) InputState.init =
      .ok InputState.init := rfl
  rw [sdpLines, List.foldlM_append, List.foldlM_append, List.foldlM_append, hheader, ok_bind,
    inputLine_authLines h, ok_bind, inputLine_defAddrLines hpj h rfl, ok_bind,
    inputLine_cands hpj icest.lcand _ h.lcand
      (by simpa [InputState.init, resetRemoteInfo] using h.lcand_length),
    foldl_addCand icest.lcand _ h.lcand (by simp [InputState.init, resetRemoteInfo]),
    if_neg h.lcand_ne]
  rfl

/-- What `encodeSession` writes for a session with one component, `icedemo_input_remote` reads
back: user fragment, password, default address, and the candidates in their order. -/
theorem inputRemote_encodeSession (pj : PjSock) (hpj : InverseOnIPv4 pj) (maxlen : Nat)
    (icest : PjIceStrans) (h : SessionOk icest) (text : List Char)
    (henc : encodeSession pj maxlen (some icest) = .ok text) :
    icedemoInputRemote pj text =
      .ok (true, { ufrag := icest.ufrag, pwd := icest.pwd, compCnt := 1,
                   defAddr0 := some (icest.defCand 1).addr, defAddr1 := none,
                   cand := icest.lcand }) := by
  have htext : text = unlines (sdpLines pj icest) :=
    encodeSession_ok h.compCnt h.runningCompCnt (fun cand hc => (h.lcand cand hc).compId)
      h.lcand_length henc
  obtain ⟨a, b, c, d, haddr⟩ := h.defAddr
  have hport : (UInt32.ofInt (icest.defCand 1).addr.port.toNat).toNat =
      (icest.defCand 1).addr.port.toNat :=
    toNat_ofInt_uint32 (lt_of_lt_of_le (icest.defCand 1).addr.port.toNat_lt (by decide))
  have hport_ne : UInt32.ofInt (icest.defCand 1).addr.port.toNat ≠ 0 := by
    intro heq
    rw [heq] at hport
    exact h.defPort (UInt16.toNat_inj.mp hport.symm)
  have hread := hpj.readAddr a b c d (icest.defCand 1).addr.port.toNat
  rw [← haddr, ofInt_toNat_uint16] at hread
  have hne : pj.print (icest.defCand 1).addr.addr ≠ [] := haddr ▸ (hpj.isWord a b c d).1.ne_nil
  rw [icedemoInputRemote, htext, inputLines_lines _ (isLine_sdpLines hpj h),
    inputLine_sdpLines hpj h]
  simp [checkRemote, bind, Except.bind, h.lcand_ne, h.ufrag_ne, h.pwd_ne, hport_ne, hne, hport,
    hread]

end Roundtrip

/-! ### A session and a reader of addresses -/

/-- Four numbers below 256 with dots between them. -/
def inetAton (s : List Char) : Option InAddr :=
  match scanNat s with
  | some (a, '.' :: s) =>
    match scanNat s with
    | some (b, '.' :: s) =>
      match scanNat s with
      | some (c, '.' :: s) =>
        match scanNat s with
        | some (d, []) =>
          if a < 256 ∧ b < 256 ∧ c < 256 ∧ d < 256 then
            some (.ipv4 (UInt8.ofNat a) (UInt8.ofNat b) (UInt8.ofNat c) (UInt8.ofNat d))
          else none
        | _ => none
      | _ => none
    | _ => none
  | _ => none

/-- The two functions of pjlib, for IPv4 in dotted decimal. -/
def inetSock : PjSock where
  print
    | .ipv4 a b c d => Inet.dotted a b c d
    | .ipv6 _ => []
  setStrAddr
    | .inet, s => inetAton s
    | .inet6, _ => none

/-- The reading inverts the printing. -/
theorem inetAton_dotted (a b c d : UInt8) :
    inetAton (Inet.dotted a b c d) = some (.ipv4 a b c d) := by
  have hdot : ∀ s, Stops Char.isDigit ('.' :: s) := fun s => Stops.cons (by decide) s
  have hlast : scanNat (printNat d.toNat) = some (d.toNat, []) := by
    have h := scanNat_printNat d.toNat (Stops.nil _)
    rwa [List.append_nil] at h
  have ha := a.toNat_lt
  have hb := b.toNat_lt
  have hc := c.toNat_lt
  have hd := d.toNat_lt
  simp only [inetAton, Inet.dotted, scanNat_printNat _ (hdot _), hlast, UInt8.ofNat_toNat]
  exact if_pos ⟨ha, hb, hc, hd⟩

/-- `inet_addr` reads back what `inet_ntoa` prints. -/
theorem inverseOnIPv4_inetSock : InverseOnIPv4 inetSock where
  print_ipv4 _ _ _ _ := rfl
  set_print a b c d := inetAton_dotted a b c d

/-- A session with a host candidate, which is the default, and a relayed one. -/
def twoCandSession : PjIceStrans where
  ufrag := CString.ofBuf "5f0a".toList
  pwd := CString.ofBuf "1d2c3b4a".toList
  compCnt := 1
  runningCompCnt := 1
  lcand :=
    [{ type := .host, compId := 1, foundation := CString.ofBuf "Hc0a80101".toList,
       prio := 2130706431, addr := { addr := .ipv4 192 168 1 1, port := 4000 } },
     { type := .relayed, compId := 1, foundation := CString.ofBuf "R0a000001".toList,
       prio := 16777215, addr := { addr := .ipv4 10 0 0 1, port := 49152 } }]
  defCand _ :=
    { type := .host, compId := 1, foundation := CString.ofBuf "Hc0a80101".toList,
      prio := 2130706431, addr := { addr := .ipv4 192 168 1 1, port := 4000 } }

/-- The session of the example meets the conditions. -/
theorem sessionOk_twoCandSession : SessionOk twoCandSession where
  compCnt := rfl
  runningCompCnt := rfl
  ufrag_ne := by decide +kernel
  ufrag_length := by decide +kernel
  ufrag_noEol c hc := (plain_of_all (by decide +kernel) c hc).2
  pwd_ne := by decide +kernel
  pwd_length := by decide +kernel
  pwd_noEol c hc := (plain_of_all (by decide +kernel) c hc).2
  lcand_ne := by decide +kernel
  lcand_length := by decide +kernel
  lcand cand hcand := by
    have hword : IsWord cand.foundation.chars := by
      rcases List.mem_pair.mp hcand with rfl | rfl <;>
        exact isWord_of_all (by decide +kernel) (by decide +kernel)
    rcases List.mem_pair.mp hcand with rfl | rfl
    · exact ⟨by decide, hword.ne_nil, hword.noSpace, by decide +kernel, rfl, by decide,
        _, _, _, _, rfl⟩
    · exact ⟨by decide, hword.ne_nil, hword.noSpace, by decide +kernel, rfl, by decide,
        _, _, _, _, rfl⟩
  defAddr := ⟨_, _, _, _, rfl⟩
  defPort := by decide

/-- The session fits into the buffer of the caller and is read back. -/
theorem inputRemote_encodeSession_twoCand :
    ∃ text, encodeSession inetSock 4096 (some twoCandSession) = .ok text ∧
      icedemoInputRemote inetSock text =
        .ok (true, { ufrag := twoCandSession.ufrag, pwd := twoCandSession.pwd, compCnt := 1,
                     defAddr0 := some { addr := .ipv4 192 168 1 1, port := 4000 },
                     defAddr1 := none, cand := twoCandSession.lcand }) := by
  have hok : (encodeSession inetSock 4096 (some twoCandSession)).toBool = true := by
    decide +kernel
  cases henc : encodeSession inetSock 4096 (some twoCandSession) with
  | error e =>
    rw [henc] at hok
    cases hok
  | ok text =>
    exact ⟨text, rfl, inputRemote_encodeSession inetSock inverseOnIPv4_inetSock 4096
      twoCandSession sessionOk_twoCandSession text henc⟩

end EChannel.LibTrans
