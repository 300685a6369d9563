import EChannel.Proofs.LibTrans.SdpRoundTrip

/-!
# `EChannel.Proofs.LibTrans.SdpSafety`: which texts the reader survives

The text of the peer is not trusted, and `icedemo_input_remote` checks little of what it relies
on. `SafeText` says which texts it handles: the text is empty or starts with a line, and each
line up to the first one that is rejected is ended and safe (`LineSafe`). A line is rejected by
the tests that the code does make (`LineAccepted`). After a rejected line the reader returns,
so the rest of the text does not matter.

`inputRemote_ok_iff` is the equivalence. It follows from three facts about one line: when it
faults, when it is accepted, and what it adds to the two counters that later lines depend on.
-/

set_option autoImplicit false

namespace EChannel.LibTrans

open CText

/-! ### Safe texts -/

/-- The conversions of a format on the string at a pointer. -/
def convsAt (fmt : String) (src : List Char) : List Conv :=
  sscanf (directives fmt.toList) (CString.ofBuf src).chars

/-- All seven conversions of a candidate. -/
def IsCandConvs (convs : List Conv) : Prop :=
  ∃ foundation compId transport prio ipaddr port type, convs =
    [.str foundation, .int compId, .str transport, .int prio, .str ipaddr, .int port, .str type]

/-- The attributes that use their value have one, behind a delimiter, and it fits. A candidate
also finds room in `rem.cand`, where there are `cands` already. -/
structure AttrSafe (cands : Nat) (attr rest : List Char) : Prop where
  auth : attr = "ice-ufrag".toList ∨ attr = "ice-pwd".toList →
    ∃ delim value, rest = delim :: value ∧ (CString.ofBuf value).length < 80
  rtcp : attr = "rtcp".toList →
    ∃ delim value, rest = delim :: value ∧ Fits [32, 64] (convsAt rtcpFmt value) = true
  candidate : attr = "candidate".toList →
    ∃ delim value, rest = delim :: value ∧
      Fits [32, 12, 80, 32] (convsAt candFmt value) = true ∧
      (IsCandConvs (convsAt candFmt value) → cands < maxCand)

/-- The line is not empty, and if the code looks at its content, the line reaches as far, its
words fit, and an attribute has a name. `medias` and `cands` count the media lines and the
candidates before. -/
structure LineSafe (medias cands : Nat) (line : List Char) : Prop where
  nonempty : line ≠ []
  media : line.head? = some 'm' → medias = 0 →
    2 ≤ line.length ∧ Fits [32, 32] (convsAt mediaFmt (line.drop 2)) = true
  conn : line.head? = some 'c' →
    2 ≤ line.length ∧ Fits [32, 32, 80] (convsAt connFmt (line.drop 2)) = true
  attr : line.head? = some 'a' →
    2 ≤ line.length ∧ ∃ attr rest, strtok attrDelims (line.drop 2) = some (attr, rest) ∧
      AttrSafe cands attr rest

/-- pjlib can read the address. -/
def AddrReadable (pj : PjSock) (ip : List Char) : Prop :=
  (pj.setStrAddr (if ':' ∈ ip then .inet6 else .inet) ip).isSome = true

/-- The tests of an attribute with the given value. -/
structure AttrAccepted (pj : PjSock) (attr value : List Char) : Prop where
  rtcp : attr = "rtcp".toList →
    ∃ port net ip, convsAt rtcpFmt value = [.int port, .str net, .str ip] ∧ AddrReadable pj ip
  candidate : attr = "candidate".toList →
    ∃ foundation compId transport prio ipaddr port type, convsAt candFmt value =
        [.str foundation, .int compId, .str transport, .int prio, .str ipaddr, .int port,
          .str type] ∧
      (type = "host".toList ∨ type = "srflx".toList ∨ type = "relay".toList) ∧
      AddrReadable pj ipaddr

/-- The tests of a line. -/
structure LineAccepted (pj : PjSock) (medias : Nat) (line : List Char) : Prop where
  media : line.head? = some 'm' → medias = 0 →
    ∃ media portstr, convsAt mediaFmt (line.drop 2) = [.str media, .str portstr]
  conn : line.head? = some 'c' →
    ∃ c net ip, convsAt connFmt (line.drop 2) = [.str c, .str net, .str ip]
  attr : line.head? = some 'a' → ∀ attr delim value,
    strtok attrDelims (line.drop 2) = some (attr, delim :: value) → AttrAccepted pj attr value

/-- The number of media lines that a line is. -/
def lineMedias (line : List Char) : Nat := if line.head? = some 'm' then 1 else 0

/-- The number of candidates in an accepted line. -/
def lineCands (line : List Char) : Nat :=
  if line.head? = some 'a' ∧
    (strtok attrDelims (line.drop 2)).map Prod.fst = some "candidate".toList then 1 else 0

/-- The texts that the reader handles, after `medias` media lines and `cands` candidates. -/
inductive SafeText (pj : PjSock) : Nat → Nat → List Char → Prop
  | nil (medias cands : Nat) : SafeText pj medias cands []
  | rejected (medias cands : Nat) (line rest : List Char) (eol : Char)
    (hline : ∀ c ∈ line, isEol c = false) (heol : isEol eol = true)
    (hsafe : LineSafe medias cands line) (hrej : ¬ LineAccepted pj medias line) :
    SafeText pj medias cands (line ++ eol :: rest)
  | accepted (medias cands : Nat) (line rest : List Char) (eol : Char)
    (hline : ∀ c ∈ line, isEol c = false) (heol : isEol eol = true)
    (hsafe : LineSafe medias cands line) (hacc : LineAccepted pj medias line)
    (hrest : SafeText pj (medias + lineMedias line) (cands + lineCands line)
      (rest.dropWhile isEol)) :
    SafeText pj medias cands (line ++ eol :: rest)

/-! ### Results without a fault -/

/-- The computation does not end in a fault. -/
def Safe {α : Type} (r : Except Stop α) : Prop := ∀ f, r ≠ .error (.fault f)

section Safe
variable {α β : Type}

/-- A result is safe. -/
@[simp] theorem safe_ok (a : α) : Safe (.ok a : Except Stop α) := fun f h => by cases h

/-- A text that is refused is safe. -/
@[simp] theorem safe_onError : Safe (.error .onError : Except Stop α) := fun f h => by cases h

/-- A fault is not safe. -/
@[simp] theorem not_safe_fault (f : Fault) : ¬ Safe (.error (.fault f) : Except Stop α) :=
  fun h => h f rfl

/-- A computation is safe when its parts are. -/
theorem safe_bind {x : Except Stop α} {f : α → Except Stop β} :
    Safe (x >>= f) ↔ Safe x ∧ ∀ a, x = .ok a → Safe (f a) := by
  cases x with
  | ok a => simp [bind, Except.bind]
  | error stop =>
    cases stop with
    | fault f => simp [bind, Except.bind]
    | onError => simp [bind, Except.bind]

end Safe

section Parts
variable {pj : PjSock} {st : InputState}

/-- The argument of a line can be read when the line has two characters. -/
theorem safe_lineArg {line : List Char} : Safe (lineArg line) ↔ 2 ≤ line.length := by
  unfold lineArg
  split
  · rename_i hlt
    exact ⟨fun h => absurd h (not_safe_fault _), fun h => absurd h (by omega)⟩
  · rename_i hge
    exact ⟨fun _ => by omega, fun _ => safe_ok _⟩

/-- The argument that is read. -/
theorem lineArg_eq_ok {line arg : List Char} :
    lineArg line = .ok arg ↔ 2 ≤ line.length ∧ arg = line.drop 2 := by
  unfold lineArg
  split
  · rename_i hlt
    exact ⟨fun h => (by cases h), fun h => absurd h.1 (by omega)⟩
  · rename_i hge
    exact ⟨fun h => ⟨by omega, (Except.ok.inj h).symm⟩, fun h => by rw [h.2]⟩

/-- The value of an attribute can be read when there is a delimiter in front of it. -/
theorem safe_attrValue {rest : List Char} :
    Safe (attrValue rest) ↔ ∃ delim value, rest = delim :: value := by
  cases rest <;> simp [attrValue]

/-- A copy is safe when the string and its end fit. -/
theorem safe_strcpy {size : Nat} {src : List Char} :
    Safe (strcpy size src) ↔ (CString.ofBuf src).length < size := by
  unfold strcpy
  split <;> simp [*]

/-- A scan is safe when each word fits into its buffer. -/
theorem safe_scanInto {fmt : String} {sizes : List Nat} {src : List Char} :
    Safe (scanInto fmt sizes src) ↔ Fits sizes (convsAt fmt src) = true := by
  unfold scanInto convsAt
  dsimp only
  split <;> simp [*]

/-- What a scan returns. -/
theorem scanInto_eq_ok {fmt : String} {sizes : List Nat} {src : List Char}
    {convs : List Conv} :
    scanInto fmt sizes src = .ok convs ↔
      Fits sizes (convsAt fmt src) = true ∧ convs = convsAt fmt src := by
  unfold scanInto convsAt
  dsimp only
  split <;> simp [*, eq_comm]

/-- Reading an address has no fault. -/
theorem safe_readAddr {ip : List Char} {port : Int} : Safe (readAddr pj ip port) := by
  unfold readAddr
  split <;> simp

/-- When an address is read. -/
theorem readAddr_ok_iff {ip : List Char} {port : Int} :
    (∃ addr, readAddr pj ip port = .ok addr) ↔ AddrReadable pj ip := by
  unfold readAddr AddrReadable
  split <;> simp [*]

/-- Reading a candidate type has no fault. -/
theorem safe_candType {type : List Char} : Safe (candType type) := by
  unfold candType
  split
  · simp
  · split
    · simp
    · split <;> simp

/-- The three types that are read. -/
theorem candType_ok_iff {type : List Char} :
    (∃ t, candType type = .ok t) ↔
      type = "host".toList ∨ type = "srflx".toList ∨ type = "relay".toList := by
  unfold candType
  split
  · rename_i h
    exact ⟨fun _ => Or.inl h, fun _ => ⟨_, rfl⟩⟩
  · split
    · rename_i h
      exact ⟨fun _ => Or.inr (Or.inl h), fun _ => ⟨_, rfl⟩⟩
    · split
      · rename_i h
        exact ⟨fun _ => Or.inr (Or.inr h), fun _ => ⟨_, rfl⟩⟩
      · rename_i h₁ h₂ h₃
        constructor
        · rintro ⟨t, ht⟩
          cases ht
        · rintro (h | h | h)
          · exact absurd h h₁
          · exact absurd h h₂
          · exact absurd h h₃

/-! ### Attributes -/

/-- When an `rtcp` attribute is safe. -/
theorem safe_rtcpAttr {value : List Char} :
    Safe (rtcpAttr pj st value) ↔ Fits [32, 64] (convsAt rtcpFmt value) = true := by
  rw [rtcpAttr, safe_bind, safe_scanInto]
  refine ⟨fun h => h.1, fun h => ⟨h, fun convs _ => ?_⟩⟩
  split
  · exact safe_bind.mpr ⟨safe_readAddr, fun _ _ => safe_ok _⟩
  · exact safe_onError

/-- An accepted `rtcp` attribute, and what it changes. -/
theorem rtcpAttr_eq_ok {value : List Char} {st' : InputState} :
    rtcpAttr pj st value = .ok st' ↔
      Fits [32, 64] (convsAt rtcpFmt value) = true ∧
      ∃ port net ip addr, convsAt rtcpFmt value = [.int port, .str net, .str ip] ∧
        readAddr pj ip port = .ok addr ∧
        st' = { st with rem := { st.rem with defAddr1 := some addr } } := by
  rw [rtcpAttr, bind_eq_ok]
  constructor
  · rintro ⟨convs, hscan, h⟩
    obtain ⟨hfits, rfl⟩ := scanInto_eq_ok.mp hscan
    refine ⟨hfits, ?_⟩
    split at h
    · rename_i port net ip hconvs
      obtain ⟨addr, haddr, h⟩ := bind_eq_ok.mp h
      exact ⟨port, net, ip, addr, hconvs, haddr, (Except.ok.inj h).symm⟩
    · cases h
  · rintro ⟨hfits, port, net, ip, addr, hconvs, haddr, rfl⟩
    refine ⟨_, scanInto_eq_ok.mpr ⟨hfits, rfl⟩, ?_⟩
    rw [hconvs]
    exact bind_eq_ok.mpr ⟨addr, haddr, rfl⟩

/-- When a `candidate` attribute is safe: its words fit, and there is room for the candidate. -/
theorem safe_candAttr {value : List Char} :
    Safe (candAttr pj st value) ↔ Fits [32, 12, 80, 32] (convsAt candFmt value) = true ∧
      (IsCandConvs (convsAt candFmt value) → st.rem.cand.length < maxCand) := by
  rw [candAttr, safe_bind, safe_scanInto]
  refine and_congr_right fun hfits => ?_
  constructor
  · rintro h ⟨foundation, compId, transport, prio, ipaddr, port, type, hconvs⟩
    have hsafe := h _ (scanInto_eq_ok.mpr ⟨hfits, rfl⟩)
    rw [hconvs] at hsafe
    -- With eight candidates stored, the ninth complete one is written behind the array.
    by_contra hlen
    simp [hlen] at hsafe
  · intro h convs hscan
    obtain ⟨-, rfl⟩ := scanInto_eq_ok.mp hscan
    split
    · rename_i hconvs
      rw [if_pos (h ⟨_, _, _, _, _, _, _, hconvs⟩)]
      refine safe_bind.mpr ⟨safe_candType, fun _ _ => ?_⟩
      exact safe_bind.mpr ⟨safe_readAddr, fun _ _ => safe_ok _⟩
    · exact safe_onError

/-- An accepted candidate, and what it changes. -/
theorem candAttr_eq_ok {value : List Char} {st' : InputState} :
    candAttr pj st value = .ok st' ↔
      Fits [32, 12, 80, 32] (convsAt candFmt value) = true ∧ st.rem.cand.length < maxCand ∧
      ∃ foundation compId transport prio ipaddr port type t addr,
        convsAt candFmt value = [.str foundation, .int compId, .str transport, .int prio,
          .str ipaddr, .int port, .str type] ∧
        candType type = .ok t ∧ readAddr pj ipaddr port = .ok addr ∧
        st' = { st with rem := st.rem.addCand ⟨t, UInt8.ofInt compId, CString.ofBuf foundation,
          UInt32.ofInt prio, addr⟩ } := by
  rw [candAttr, bind_eq_ok]
  constructor
  · rintro ⟨convs, hscan, h⟩
    obtain ⟨hfits, rfl⟩ := scanInto_eq_ok.mp hscan
    -- A line with other conversions, or one candidate too many, is an error.
    split at h
    · rename_i foundation compId transport prio ipaddr port type hconvs
      split at h
      · rename_i hlen
        obtain ⟨t, ht, h⟩ := bind_eq_ok.mp h
        obtain ⟨addr, haddr, h⟩ := bind_eq_ok.mp h
        exact ⟨hfits, hlen, foundation, compId, transport, prio, ipaddr, port, type, t, addr,
          hconvs, ht, haddr, (Except.ok.inj h).symm⟩
      · cases h
    · cases h
  · rintro ⟨hfits, hlen, foundation, compId, transport, prio, ipaddr, port, type, t, addr,
      hconvs, ht, haddr, rfl⟩
    refine ⟨_, scanInto_eq_ok.mpr ⟨hfits, rfl⟩, ?_⟩
    rw [hconvs]
    dsimp only
    rw [if_pos hlen]
    exact bind_eq_ok.mpr ⟨t, ht, bind_eq_ok.mpr ⟨addr, haddr, rfl⟩⟩

/-- The names of the attributes differ. -/
theorem attr_names : "ice-pwd".toList ≠ "ice-ufrag".toList ∧
    "rtcp".toList ≠ "ice-ufrag".toList ∧ "rtcp".toList ≠ "ice-pwd".toList ∧
    "candidate".toList ≠ "ice-ufrag".toList ∧ "candidate".toList ≠ "ice-pwd".toList ∧
    "candidate".toList ≠ "rtcp".toList := by
  decide

/-- The cases of an attribute, by its name. -/
theorem attrCase_cases (pj : PjSock) (st : InputState) (attr rest : List Char) :
    ((attr = "ice-ufrag".toList ∨ attr = "ice-pwd".toList) ∧ attr ≠ "rtcp".toList ∧
      attr ≠ "candidate".toList ∧ ∃ set : CString → InputState → InputState,
        (∀ s, (set s st).mediaCnt = st.mediaCnt ∧ (set s st).rem.cand = st.rem.cand) ∧
        attrCase pj st attr rest =
          (attrValue rest >>= fun value => strcpy 80 value >>= fun s => .ok (set s st))) ∨
    (attr = "rtcp".toList ∧
      attrCase pj st attr rest = (attrValue rest >>= fun value => rtcpAttr pj st value)) ∨
    (attr = "candidate".toList ∧
      attrCase pj st attr rest = (attrValue rest >>= fun value => candAttr pj st value)) ∨
    ((attr ≠ "ice-ufrag".toList ∧ attr ≠ "ice-pwd".toList ∧ attr ≠ "rtcp".toList ∧
      attr ≠ "candidate".toList) ∧ attrCase pj st attr rest = .ok st) := by
  obtain ⟨-, hru, hrp, hcu, hcp, -⟩ := attr_names
  -- The tests come in the order of the source; the names are distinct.
  unfold attrCase
  split
  · rename_i h
    exact Or.inl ⟨Or.inl h, fun ha => hru (ha.symm.trans h),
      fun ha => hcu (ha.symm.trans h),
      fun s st => { st with rem := { st.rem with ufrag := s } }, fun _ => ⟨rfl, rfl⟩, rfl⟩
  · split
    · rename_i h
      exact Or.inl ⟨Or.inr h, fun ha => hrp (ha.symm.trans h),
        fun ha => hcp (ha.symm.trans h),
        fun s st => { st with rem := { st.rem with pwd := s } }, fun _ => ⟨rfl, rfl⟩, rfl⟩
    · split
      · rename_i h
        exact Or.inr (Or.inl ⟨h, rfl⟩)
      · split
        · rename_i h
          exact Or.inr (Or.inr (Or.inl ⟨h, rfl⟩))
        · rename_i h₁ h₂ h₃ h₄
          exact Or.inr (Or.inr (Or.inr ⟨⟨h₁, h₂, h₃, h₄⟩, rfl⟩))

/-- When an attribute is safe, for all names. -/
theorem safe_attrCase (attr rest : List Char) :
    Safe (attrCase pj st attr rest) ↔ AttrSafe st.rem.cand.length attr rest := by
  obtain ⟨hpu, hru, hrp, hcu, hcp, hcr⟩ := attr_names
  rcases attrCase_cases pj st attr rest with
    ⟨hattr, hr, hc, set, -, heq⟩ | ⟨rfl, heq⟩ | ⟨rfl, heq⟩ | ⟨⟨hu, hp, hr, hc⟩, heq⟩
  · -- A fragment or a password: the value is copied into an array of 80 bytes.
    have hsafe : Safe (attrCase pj st attr rest) ↔
        ∃ delim value, rest = delim :: value ∧ (CString.ofBuf value).length < 80 := by
      rw [heq, safe_bind, safe_attrValue]
      constructor
      · rintro ⟨⟨delim, value, rfl⟩, h⟩
        exact ⟨delim, value, rfl, safe_strcpy.mp (safe_bind.mp (h value rfl)).1⟩
      · rintro ⟨delim, value, rfl, hlen⟩
        refine ⟨⟨delim, value, rfl⟩, fun value' hvalue => ?_⟩
        cases hvalue
        exact safe_bind.mpr ⟨safe_strcpy.mpr hlen, fun _ _ => safe_ok _⟩
    rw [hsafe]
    exact ⟨fun h => ⟨fun _ => h, fun ha => absurd ha hr, fun ha => absurd ha hc⟩,
      fun h => h.auth hattr⟩
  · rw [heq, safe_bind, safe_attrValue]
    constructor
    · rintro ⟨⟨delim, value, rfl⟩, h⟩
      exact ⟨fun ha => (ha.elim hru hrp).elim,
        fun _ => ⟨delim, value, rfl, safe_rtcpAttr.mp (h value rfl)⟩, fun hc => absurd hc hcr.symm⟩
    · intro h
      obtain ⟨delim, value, rfl, hfits⟩ := h.rtcp rfl
      refine ⟨⟨delim, value, rfl⟩, fun value' hvalue => ?_⟩
      cases hvalue
      exact safe_rtcpAttr.mpr hfits
  · rw [heq, safe_bind, safe_attrValue]
    constructor
    · rintro ⟨⟨delim, value, rfl⟩, h⟩
      exact ⟨fun ha => (ha.elim hcu hcp).elim, fun hr => absurd hr hcr,
        fun _ => ⟨delim, value, rfl, safe_candAttr.mp (h value rfl)⟩⟩
    · intro h
      obtain ⟨delim, value, rfl, hfits⟩ := h.candidate rfl
      refine ⟨⟨delim, value, rfl⟩, fun value' hvalue => ?_⟩
      cases hvalue
      exact safe_candAttr.mpr hfits
  · rw [heq]
    exact ⟨fun _ => ⟨fun ha => (ha.elim hu hp).elim, fun ha => absurd ha hr,
      fun ha => absurd ha hc⟩, fun _ => safe_ok _⟩

/-- A safe attribute is accepted when its tests succeed. -/
theorem attrCase_ok_iff {attr rest : List Char} (h : AttrSafe st.rem.cand.length attr rest) :
    (∃ st', attrCase pj st attr rest = .ok st') ↔
      ∀ delim value, rest = delim :: value → AttrAccepted pj attr value := by
  obtain ⟨hpu, hru, hrp, hcu, hcp, hcr⟩ := attr_names
  rcases attrCase_cases pj st attr rest with
    ⟨hattr, hr, hc, set, -, heq⟩ | ⟨rfl, heq⟩ | ⟨rfl, heq⟩ | ⟨⟨hu, hp, hr, hc⟩, heq⟩
  · -- A fragment or a password is always accepted.
    obtain ⟨delim, value, rfl, hlen⟩ := h.auth hattr
    refine ⟨fun _ _ _ _ => ⟨fun ha => absurd ha hr, fun ha => absurd ha hc⟩, fun _ => ?_⟩
    refine ⟨set (CString.ofBuf value) st, ?_⟩
    rw [heq, attrValue, ok_bind, strcpy, if_pos hlen, ok_bind]
  · obtain ⟨delim, value, rfl, hfits⟩ := h.rtcp rfl
    rw [heq, attrValue, ok_bind]
    constructor
    · rintro ⟨st', hst'⟩ delim' value' hrest
      cases hrest
      obtain ⟨-, port, net, ip, addr, hconvs, haddr, -⟩ := rtcpAttr_eq_ok.mp hst'
      exact ⟨fun _ => ⟨port, net, ip, hconvs, readAddr_ok_iff.mp ⟨addr, haddr⟩⟩,
        fun hc => absurd hc hcr.symm⟩
    · intro hacc
      obtain ⟨port, net, ip, hconvs, hread⟩ := (hacc delim value rfl).rtcp rfl
      obtain ⟨addr, haddr⟩ := readAddr_ok_iff.mpr hread
      exact ⟨_, rtcpAttr_eq_ok.mpr ⟨hfits, port, net, ip, addr, hconvs, haddr, rfl⟩⟩
  · obtain ⟨delim, value, rfl, hfits, hlen⟩ := h.candidate rfl
    rw [heq, attrValue, ok_bind]
    constructor
    · rintro ⟨st', hst'⟩ delim' value' hrest
      cases hrest
      obtain ⟨-, -, foundation, compId, transport, prio, ipaddr, port, type, t, addr, hconvs, ht,
        haddr, -⟩ := candAttr_eq_ok.mp hst'
      exact ⟨fun hr => absurd hr hcr, fun _ => ⟨foundation, compId, transport, prio, ipaddr,
        port, type, hconvs, candType_ok_iff.mp ⟨t, ht⟩, readAddr_ok_iff.mp ⟨addr, haddr⟩⟩⟩
    · intro hacc
      obtain ⟨foundation, compId, transport, prio, ipaddr, port, type, hconvs, htype, hread⟩ :=
        (hacc delim value rfl).candidate rfl
      obtain ⟨t, ht⟩ := candType_ok_iff.mpr htype
      obtain ⟨addr, haddr⟩ := readAddr_ok_iff.mpr hread
      exact ⟨_, candAttr_eq_ok.mpr ⟨hfits, hlen ⟨_, _, _, _, _, _, _, hconvs⟩, foundation,
        compId, transport, prio, ipaddr, port, type, t, addr, hconvs, ht, haddr, rfl⟩⟩
  · exact ⟨fun _ _ _ _ => ⟨fun ha => absurd ha hr, fun ha => absurd ha hc⟩,
      fun _ => ⟨st, heq⟩⟩

/-- What an attribute adds to the counters. -/
theorem attrCase_counts {attr rest : List Char} {st' : InputState}
    (h : attrCase pj st attr rest = .ok st') :
    st'.mediaCnt = st.mediaCnt ∧ st'.rem.cand.length =
      st.rem.cand.length + if attr = "candidate".toList then 1 else 0 := by
  obtain ⟨hpu, hru, hrp, hcu, hcp, hcr⟩ := attr_names
  rcases attrCase_cases pj st attr rest with
    ⟨hattr, -, hc, set, hset, heq⟩ | ⟨rfl, heq⟩ | ⟨rfl, heq⟩ | ⟨⟨hu, hp, hr, hc⟩, heq⟩
  · rw [heq] at h
    obtain ⟨value, -, h⟩ := bind_eq_ok.mp h
    obtain ⟨s, -, h⟩ := bind_eq_ok.mp h
    cases h
    -- Neither text touches the counts.
    rw [if_neg hc, (hset s).1, (hset s).2]
    exact ⟨rfl, rfl⟩
  · rw [heq] at h
    obtain ⟨value, -, h⟩ := bind_eq_ok.mp h
    obtain ⟨-, port, net, ip, addr, -, -, rfl⟩ := rtcpAttr_eq_ok.mp h
    rw [if_neg hcr.symm]
    exact ⟨rfl, rfl⟩
  · rw [heq] at h
    obtain ⟨value, -, h⟩ := bind_eq_ok.mp h
    obtain ⟨-, -, foundation, compId, transport, prio, ipaddr, port, type, t, addr, -, -, -, rfl⟩ :=
      candAttr_eq_ok.mp h
    rw [if_pos rfl]
    exact ⟨rfl, List.length_append⟩
  · rw [heq] at h
    cases h
    rw [if_neg hc]
    exact ⟨rfl, rfl⟩

/-! ### Lines -/

/-- When a media line is safe. Only the first one is read. -/
theorem safe_mediaLine {line : List Char} :
    Safe (mediaLine st line) ↔ (st.mediaCnt = 0 →
      2 ≤ line.length ∧ Fits [32, 32] (convsAt mediaFmt (line.drop 2)) = true) := by
  unfold mediaLine
  dsimp only
  split
  · -- Later media lines are ignored, so they cannot fault.
    simp
    omega
  · rename_i hcnt
    have h0 : st.mediaCnt = 0 := by omega
    simp only [h0, forall_const]
    rw [safe_bind, safe_lineArg]
    refine and_congr_right fun hlen => ?_
    constructor
    · intro h
      exact safe_scanInto.mp (safe_bind.mp (h _ (lineArg_eq_ok.mpr ⟨hlen, rfl⟩))).1
    · intro hfits arg harg
      obtain ⟨-, rfl⟩ := lineArg_eq_ok.mp harg
      refine safe_bind.mpr ⟨safe_scanInto.mpr hfits, fun convs _ => ?_⟩
      split <;> simp

/-- When a connection line is safe. -/
theorem safe_connLine {line : List Char} :
    Safe (connLine st line) ↔
      2 ≤ line.length ∧ Fits [32, 32, 80] (convsAt connFmt (line.drop 2)) = true := by
  rw [connLine, safe_bind, safe_lineArg]
  refine and_congr_right fun hlen => ?_
  constructor
  · intro h
    exact safe_scanInto.mp (safe_bind.mp (h _ (lineArg_eq_ok.mpr ⟨hlen, rfl⟩))).1
  · intro hfits arg harg
    obtain ⟨-, rfl⟩ := lineArg_eq_ok.mp harg
    refine safe_bind.mpr ⟨safe_scanInto.mpr hfits, fun convs _ => ?_⟩
    split <;> simp

/-- When an attribute line is safe: `strtok` finds a name, and the attribute is safe. -/
theorem safe_attrLine {line : List Char} :
    Safe (attrLine pj st line) ↔ 2 ≤ line.length ∧ ∃ attr rest,
      strtok attrDelims (line.drop 2) = some (attr, rest) ∧
        AttrSafe st.rem.cand.length attr rest := by
  rw [attrLine, safe_bind, safe_lineArg]
  refine and_congr_right fun hlen => ?_
  have hok : ∀ arg, lineArg line = .ok arg ↔ arg = line.drop 2 := fun arg => by
    rw [lineArg_eq_ok]
    exact and_iff_right hlen
  simp only [hok, forall_eq]
  cases strtok attrDelims (line.drop 2) with
  | none => simp
  | some tok =>
    obtain ⟨attr, rest⟩ := tok
    simp [safe_attrCase]

/-- A media line after the first is ignored; the first needs its two words. -/
theorem mediaLine_eq_ok {line : List Char} {st' : InputState} :
    mediaLine st line = .ok st' ↔
      st.mediaCnt ≠ 0 ∧ st' = { st with mediaCnt := st.mediaCnt + 1 } ∨
      st.mediaCnt = 0 ∧ 2 ≤ line.length ∧
        Fits [32, 32] (convsAt mediaFmt (line.drop 2)) = true ∧
        ∃ media portstr, convsAt mediaFmt (line.drop 2) = [.str media, .str portstr] ∧
          st' = { st with mediaCnt := 1, comp0Port := UInt32.ofInt (atoi portstr) } := by
  unfold mediaLine
  dsimp only
  split
  · rename_i hcnt
    -- A later media line is counted and not read.
    have h0 : st.mediaCnt ≠ 0 := by omega
    refine ⟨fun h => Or.inl ⟨h0, (Except.ok.inj h).symm⟩, ?_⟩
    rintro (⟨-, rfl⟩ | ⟨h, -⟩)
    · rfl
    · exact absurd h h0
  · rename_i hcnt
    have h0 : st.mediaCnt = 0 := by omega
    simp only [h0, ne_eq, not_true_eq_false, false_and, true_and, false_or, bind_eq_ok,
      lineArg_eq_ok, scanInto_eq_ok]
    constructor
    · rintro ⟨_, ⟨hlen, rfl⟩, _, ⟨hfits, rfl⟩, h⟩
      refine ⟨hlen, hfits, ?_⟩
      split at h
      · rename_i media portstr hconvs
        exact ⟨media, portstr, hconvs, (Except.ok.inj h).symm⟩
      · cases h
    · rintro ⟨hlen, hfits, media, portstr, hconvs, rfl⟩
      refine ⟨_, ⟨hlen, rfl⟩, _, ⟨hfits, rfl⟩, ?_⟩
      rw [hconvs]

/-- A connection line needs its three words. -/
theorem connLine_eq_ok {line : List Char} {st' : InputState} :
    connLine st line = .ok st' ↔
      2 ≤ line.length ∧ Fits [32, 32, 80] (convsAt connFmt (line.drop 2)) = true ∧
        ∃ c net ip, convsAt connFmt (line.drop 2) = [.str c, .str net, .str ip] ∧
          st' = { st with comp0Addr := ip } := by
  simp only [connLine, bind_eq_ok, lineArg_eq_ok, scanInto_eq_ok]
  constructor
  · rintro ⟨_, ⟨hlen, rfl⟩, _, ⟨hfits, rfl⟩, h⟩
    refine ⟨hlen, hfits, ?_⟩
    split at h
    · rename_i c net ip hconvs
      exact ⟨c, net, ip, hconvs, (Except.ok.inj h).symm⟩
    · cases h
  · rintro ⟨hlen, hfits, c, net, ip, hconvs, rfl⟩
    refine ⟨_, ⟨hlen, rfl⟩, _, ⟨hfits, rfl⟩, ?_⟩
    rw [hconvs]

/-- What an attribute line returns. -/
theorem attrLine_eq_ok {line : List Char} {st' : InputState} :
    attrLine pj st line = .ok st' ↔
      2 ≤ line.length ∧ ∃ attr rest, strtok attrDelims (line.drop 2) = some (attr, rest) ∧
        attrCase pj st attr rest = .ok st' := by
  simp only [attrLine, bind_eq_ok, lineArg_eq_ok]
  constructor
  · rintro ⟨_, ⟨hlen, rfl⟩, h⟩
    refine ⟨hlen, ?_⟩
    split at h
    · cases h
    · rename_i attr rest htok
      exact ⟨attr, rest, htok, h⟩
  · rintro ⟨hlen, attr, rest, htok, h⟩
    refine ⟨_, ⟨hlen, rfl⟩, ?_⟩
    rw [htok]
    exact h

/-- The `switch`. -/
theorem inputLine_cases (pj : PjSock) (st : InputState) (line : List Char) :
    (line = [] ∧ inputLine pj line st = .error (.fault .outOfRange)) ∨
    (line.head? = some 'm' ∧ inputLine pj line st = mediaLine st line) ∨
    (line.head? = some 'c' ∧ inputLine pj line st = connLine st line) ∨
    (line.head? = some 'a' ∧ inputLine pj line st = attrLine pj st line) ∨
    (line ≠ [] ∧ line.head? ≠ some 'm' ∧ line.head? ≠ some 'c' ∧ line.head? ≠ some 'a' ∧
      inputLine pj line st = .ok st) := by
  unfold inputLine
  split
  · exact Or.inl ⟨rfl, rfl⟩
  · exact Or.inr (Or.inl ⟨rfl, rfl⟩)
  · exact Or.inr (Or.inr (Or.inl ⟨rfl, rfl⟩))
  · exact Or.inr (Or.inr (Or.inr (Or.inl ⟨rfl, rfl⟩)))
  · rename_i hnil hm hc ha
    have hhead : ∀ c, line.head? = some c → ∃ s, line = c :: s := fun c hc =>
      ⟨line.tail, (List.cons_head?_tail (Option.mem_def.mpr hc)).symm⟩
    refine Or.inr (Or.inr (Or.inr (Or.inr ⟨fun h => hnil h, fun h => ?_, fun h => ?_,
      fun h => ?_, rfl⟩)))
    · obtain ⟨s, hs⟩ := hhead 'm' h
      exact hm s hs
    · obtain ⟨s, hs⟩ := hhead 'c' h
      exact hc s hs
    · obtain ⟨s, hs⟩ := hhead 'a' h
      exact ha s hs

/-- When a line faults. -/
theorem safe_inputLine (line : List Char) :
    Safe (inputLine pj line st) ↔ LineSafe st.mediaCnt st.rem.cand.length line := by
  have hne : ∀ {c}, line.head? = some c → line ≠ [] := fun hc h => by simp [h] at hc
  rcases inputLine_cases pj st line with
    ⟨rfl, heq⟩ | ⟨hm, heq⟩ | ⟨hc, heq⟩ | ⟨ha, heq⟩ | ⟨hnil, hm, hc, ha, heq⟩
  · rw [heq]
    exact ⟨fun h => absurd h (not_safe_fault _), fun h => absurd rfl h.nonempty⟩
  · rw [heq, safe_mediaLine]
    exact ⟨fun h => ⟨hne hm, fun _ => h, fun hc => by simp [hm] at hc,
      fun ha => by simp [hm] at ha⟩,
      fun h => h.media hm⟩
  · rw [heq, safe_connLine]
    exact ⟨fun h => ⟨hne hc, fun hm => by simp [hc] at hm, fun _ => h,
      fun ha => by simp [hc] at ha⟩,
      fun h => h.conn hc⟩
  · rw [heq, safe_attrLine]
    exact ⟨fun h => ⟨hne ha, fun hm => by simp [ha] at hm, fun hc => by simp [ha] at hc,
      fun _ => h⟩,
      fun h => h.attr ha⟩
  · rw [heq]
    exact ⟨fun _ => ⟨hnil, fun h => absurd h hm, fun h => absurd h hc, fun h => absurd h ha⟩,
      fun _ => safe_ok _⟩

/-- When a safe line is accepted. -/
theorem inputLine_ok_iff {line : List Char}
    (h : LineSafe st.mediaCnt st.rem.cand.length line) :
    (∃ st', inputLine pj line st = .ok st') ↔ LineAccepted pj st.mediaCnt line := by
  rcases inputLine_cases pj st line with
    ⟨rfl, -⟩ | ⟨hm, heq⟩ | ⟨hc, heq⟩ | ⟨ha, heq⟩ | ⟨hnil, hm, hc, ha, heq⟩
  · exact absurd rfl h.nonempty
  · simp only [heq, mediaLine_eq_ok]
    constructor
    · rintro ⟨st', hst'⟩
      refine ⟨fun _ h0 => ?_, fun hc => by simp [hm] at hc, fun ha => by simp [hm] at ha⟩
      rcases hst' with ⟨hne, -⟩ | ⟨-, -, -, media, portstr, hconvs, -⟩
      · exact absurd h0 hne
      · exact ⟨media, portstr, hconvs⟩
    · intro hacc
      -- Only the first media line is scanned.
      by_cases h0 : st.mediaCnt = 0
      · obtain ⟨hlen, hfits⟩ := h.media hm h0
        obtain ⟨media, portstr, hconvs⟩ := hacc.media hm h0
        exact ⟨_, Or.inr ⟨h0, hlen, hfits, media, portstr, hconvs, rfl⟩⟩
      · exact ⟨_, Or.inl ⟨h0, rfl⟩⟩
  · obtain ⟨hlen, hfits⟩ := h.conn hc
    simp only [heq, connLine_eq_ok]
    constructor
    · rintro ⟨st', -, -, c, net, ip, hconvs, -⟩
      exact ⟨fun hm => by simp [hc] at hm, fun _ => ⟨c, net, ip, hconvs⟩,
        fun ha => by simp [hc] at ha⟩
    · intro hacc
      obtain ⟨c, net, ip, hconvs⟩ := hacc.conn hc
      exact ⟨_, hlen, hfits, c, net, ip, hconvs, rfl⟩
  · obtain ⟨hlen, attr, rest, htok, hsafe⟩ := h.attr ha
    simp only [heq, attrLine_eq_ok]
    constructor
    · rintro ⟨st', -, attr', rest', htok', hst'⟩
      rw [htok] at htok'
      cases htok'
      refine ⟨fun hm => by simp [ha] at hm, fun hc => by simp [ha] at hc, fun _ attr' delim value
        htok' => ?_⟩
      rw [htok] at htok'
      cases htok'
      exact (attrCase_ok_iff hsafe).mp ⟨st', hst'⟩ delim value rfl
    · intro hacc
      -- A line that is safe has an attribute, so what is asked is about its value.
      have hok : ∀ delim value, rest = delim :: value → AttrAccepted pj attr value :=
        fun delim value hrest => hacc.attr ha attr delim value (hrest ▸ htok)
      obtain ⟨st', hst'⟩ := (attrCase_ok_iff hsafe).mpr hok
      exact ⟨st', hlen, attr, rest, htok, hst'⟩
  · exact ⟨fun _ => ⟨fun h => absurd h hm, fun h => absurd h hc, fun h => absurd h ha⟩,
      fun _ => ⟨st, heq⟩⟩

/-- What an accepted line adds to the counters. -/
theorem inputLine_counts {line : List Char} {st' : InputState}
    (h : inputLine pj line st = .ok st') :
    st'.mediaCnt = st.mediaCnt + lineMedias line ∧
      st'.rem.cand.length = st.rem.cand.length + lineCands line := by
  unfold lineMedias lineCands
  rcases inputLine_cases pj st line with
    ⟨rfl, heq⟩ | ⟨hm, heq⟩ | ⟨hc, heq⟩ | ⟨ha, heq⟩ | ⟨hnil, hm, hc, ha, heq⟩
  · rw [heq] at h
    cases h
  · rw [heq] at h
    rcases mediaLine_eq_ok.mp h with ⟨-, rfl⟩ | ⟨h0, -, -, media, portstr, -, rfl⟩
    · simp [hm]
    · simp [hm, h0]
  · rw [heq] at h
    obtain ⟨-, -, c, net, ip, -, rfl⟩ := connLine_eq_ok.mp h
    simp [hc]
  · rw [heq] at h
    obtain ⟨-, attr, rest, htok, hcase⟩ := attrLine_eq_ok.mp h
    obtain ⟨hmedia, hcand⟩ := attrCase_counts hcase
    simp only [ha, htok, hmedia, hcand, Option.map_some, Option.some.injEq, true_and]
    exact ⟨by simp, trivial⟩
  · rw [heq] at h
    cases h
    simp [hm, ha]

end Parts

/-! ### The whole text -/

section Text
variable {pj : PjSock}

/-- A line of the text, with the character that ends it. -/
theorem scanLine_eq_some {text line rest : List Char} :
    scanLine text = some (line, rest) ↔ ∃ eol tail, rest = eol :: tail ∧
      text = line ++ eol :: tail ∧ (∀ c ∈ line, isEol c = false) ∧ isEol eol = true := by
  constructor
  · intro h
    unfold scanLine at h
    split at h
    · cases h
    · rename_i eol tail hdrop
      cases h
      refine ⟨eol, tail, rfl, ?_, fun c hc => ?_, ?_⟩
      · rw [← hdrop, List.takeWhile_append_dropWhile]
      · simpa using List.mem_takeWhile_imp hc
      · have := List.head?_dropWhile_not (fun c => !isEol c) text
        simpa [hdrop] using this
  · rintro ⟨eol, tail, rfl, rfl, hline, heol⟩
    exact scanLine_line hline heol

/-- A safe text that is not empty starts with a safe line. If the line is accepted, the rest is
safe after it. -/
theorem safeText_iff {medias cands : Nat} {text line : List Char} {eol : Char}
    {rest : List Char} (hscan : scanLine text = some (line, eol :: rest)) :
    SafeText pj medias cands text ↔ LineSafe medias cands line ∧
      (LineAccepted pj medias line →
        SafeText pj (medias + lineMedias line) (cands + lineCands line)
          (rest.dropWhile isEol)) := by
  -- The first line of a text is determined by its first end of line.
  have huniq : ∀ {line' rest' : List Char} {eol' : Char}, text = line' ++ eol' :: rest' →
      (∀ c ∈ line', isEol c = false) → isEol eol' = true → line' = line ∧ rest' = rest := by
    intro line' rest' eol' htext hline' heol'
    have h := scanLine_eq_some.mpr ⟨eol', rest', rfl, htext, hline', heol'⟩
    rw [hscan] at h
    cases h
    exact ⟨rfl, rfl⟩
  constructor
  · intro h
    cases h with
    | nil => simp [scanLine] at hscan
    | rejected _ _ line' rest' eol' hline' heol' hsafe hrej =>
      obtain ⟨rfl, rfl⟩ := huniq rfl hline' heol'
      exact ⟨hsafe, fun hacc => absurd hacc hrej⟩
    | accepted _ _ line' rest' eol' hline' heol' hsafe hacc hrest =>
      obtain ⟨rfl, rfl⟩ := huniq rfl hline' heol'
      exact ⟨hsafe, fun _ => hrest⟩
  · rintro ⟨hsafe, hrest⟩
    obtain ⟨_, _, heq, rfl, hline, heol⟩ := scanLine_eq_some.mp hscan
    cases heq
    by_cases hacc : LineAccepted pj medias line
    · exact .accepted medias cands line rest eol hline heol hsafe hacc (hrest hacc)
    · exact .rejected medias cands line rest eol hline heol hsafe hacc

/-- When the loop over the lines faults. -/
theorem safe_inputLines (text : List Char) (st : InputState) :
    Safe (inputLines pj text st) ↔ SafeText pj st.mediaCnt st.rem.cand.length text := by
  fun_induction inputLines pj text st with
  | case1 st => exact ⟨fun _ => .nil _ _, fun _ => safe_ok _⟩
  | case2 text st hne hnone =>
    -- No line of the text is ended, and the text is not empty.
    have hline : ∀ {line rest : List Char} {eol : Char}, (∀ c ∈ line, isEol c = false) →
        isEol eol = true → text ≠ line ++ eol :: rest := by
      intro line rest eol hline heol htext
      have hsome := scanLine_eq_some.mpr ⟨eol, rest, rfl, htext, hline, heol⟩
      rw [hnone] at hsome
      cases hsome
    refine ⟨fun h => absurd h (not_safe_fault _), fun h => ?_⟩
    cases h with
    | nil => exact absurd rfl hne
    | rejected _ _ line rest eol hl heol hsafe hrej => exact absurd rfl (hline hl heol)
    | accepted _ _ line rest eol hl heol hsafe hacc hrest => exact absurd rfl (hline hl heol)
  | case3 text st hne line rest hscan st' hst' ih =>
    -- The line is accepted, and the counters of the state go on as those of `SafeText` do.
    obtain ⟨eol, tail, rfl, -, -, heol⟩ := scanLine_eq_some.mp hscan
    have hsafe : LineSafe st.mediaCnt st.rem.cand.length line :=
      (safe_inputLine line).mp (hst' ▸ safe_ok st')
    have hacc : LineAccepted pj st.mediaCnt line := (inputLine_ok_iff hsafe).mp ⟨st', hst'⟩
    obtain ⟨hmedia, hcand⟩ := inputLine_counts hst'
    rw [ih, safeText_iff hscan, hmedia, hcand, List.dropWhile_cons, if_pos heol]
    exact ⟨fun h => ⟨hsafe, fun _ => h⟩, fun h => h.2 hacc⟩
  | case4 text st hne line rest hscan stop hstop =>
    -- The line stops the reader: it is rejected if it is safe, and the rest is not read.
    obtain ⟨eol, tail, rfl, -, -, -⟩ := scanLine_eq_some.mp hscan
    rw [safeText_iff hscan]
    have hrej : ∀ hsafe : LineSafe st.mediaCnt st.rem.cand.length line,
        ¬ LineAccepted pj st.mediaCnt line := by
      intro hsafe hacc
      obtain ⟨st', hst'⟩ := (inputLine_ok_iff hsafe).mpr hacc
      rw [hstop] at hst'
      cases hst'
    have hline : Safe (inputLine pj line st) ↔ LineSafe st.mediaCnt st.rem.cand.length line :=
      safe_inputLine line
    rw [hstop] at hline
    exact ⟨fun h => ⟨hline.mp h, fun hacc => absurd hacc (hrej (hline.mp h))⟩,
      fun h => hline.mpr h.1⟩

/-- The checks at the end have no fault. -/
theorem safe_checkRemote (st : InputState) : Safe (checkRemote pj st) := by
  unfold checkRemote
  split
  · exact safe_onError
  · split
    · exact safe_onError
    · exact safe_bind.mpr ⟨safe_readAddr, fun _ _ => safe_ok _⟩

/-- The reader returns, with true or with false, exactly for the safe texts. -/
theorem inputRemote_ok_iff (pj : PjSock) (sdp : List Char) :
    (∃ r, icedemoInputRemote pj sdp = .ok r) ↔ SafeText pj 0 0 sdp := by
  have hsafe : (∃ r, icedemoInputRemote pj sdp = .ok r) ↔
      Safe (inputLines pj sdp InputState.init >>= checkRemote pj) := by
    unfold icedemoInputRemote
    cases inputLines pj sdp InputState.init >>= checkRemote pj with
    | ok st => simp
    | error stop => cases stop <;> simp
  rw [hsafe, safe_bind, safe_inputLines]
  exact ⟨fun h => h.1, fun h => ⟨h, fun st _ => safe_checkRemote st⟩⟩

/-- A fault in the first line is a fault of the reader. -/
theorem inputRemote_fault {text line rest : List Char} {f : Fault} (hne : text ≠ [])
    (hscan : scanLine text = some (line, rest))
    (hline : inputLine pj line InputState.init = .error (.fault f)) :
    icedemoInputRemote pj text = .error f := by
  have hloop : inputLines pj text InputState.init = .error (.fault f) := by
    rw [inputLines, if_neg hne]
    split
    · rename_i hnone
      rw [hscan] at hnone
      cases hnone
    · rename_i line' rest' hsome
      rw [hscan] at hsome
      cases hsome
      rw [hline]
  rw [icedemoInputRemote, hloop]
  rfl

end Text

/-- A text that starts with a line feed, an attribute line without a name, and a user fragment
of 80 characters. -/
theorem not_inputRemote_ok :
    icedemoInputRemote inetSock "\nv=0\n".toList = .error .outOfRange ∧
      icedemoInputRemote inetSock "a=\n".toList = .error .nullAttr ∧
      icedemoInputRemote inetSock ("a=ice-ufrag:".toList ++ List.replicate 80 'x' ++ ['\n']) =
        .error .overflow := by
  refine ⟨?_, ?_, ?_⟩
  · exact inputRemote_fault (by decide) rfl rfl
  · exact inputRemote_fault (by decide) rfl rfl
  · exact inputRemote_fault (by simp) rfl rfl

end EChannel.LibTrans
