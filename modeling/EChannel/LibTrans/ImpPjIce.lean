import EChannel.Support.CText

/-!
# `EChannel.LibTrans.ImpPjIce`: the ICE description of a session as SDP text

`encodeSession` prints the local side of an ICE session, and `icedemo_input_remote` reads the
text of the peer into `ICE_Session::rem` (`libTrans/src/imppjice.cpp`). The two are written
against each other: an SDP-like text of lines, with the candidates in `a=candidate` lines.

The text is a list of characters, one for each byte. The reader can do what C++ and C leave
undefined or throw for; the model stops with a `Fault` there:

* `outOfRange`: `sdp.at(pos)` or `line.at(0)` behind the end, a `std::out_of_range`;
* `pastEnd`: a pointer behind the terminator of the line is read;
* `nullAttr`: `strcmp` on the null result of `strtok`;
* `candIndex`: `rem.cand[rem.cand_cnt]` behind the end of the array;
* `overflow`: `strcpy` or `sscanf` writes more than the destination holds.

pjlib prints and reads addresses. It is a parameter here (`PjSock`), since reading an address
can ask the resolver. A text is shorter than 2^31 characters, as an `int` counts them.
-/

set_option autoImplicit false

namespace EChannel.LibTrans

open CText

/-! ### What pjnath and pjlib provide -/

/-- `PJ_ICE_ST_MAX_CAND`. -/
def maxCand : Nat := 8

/-- `PJ_ETOOSMALL`. -/
def etoosmall : Int := 70019

/-- `PJ_EINVAL`. -/
def einval : Int := 70004

/-- `pj_ice_cand_type`. -/
inductive PjIceCandType
  | host
  | srflx
  | prflx
  | relayed
  deriving DecidableEq, Repr

/-- `pj_ice_get_cand_type_name`. -/
def PjIceCandType.name : PjIceCandType → List Char
  | .host => "host".toList
  | .srflx => "srflx".toList
  | .prflx => "prflx".toList
  | .relayed => "relay".toList

/-- An IP address. -/
inductive InAddr
  | ipv4 (a b c d : UInt8)
  | ipv6 (bytes : List UInt8)
  deriving DecidableEq, Repr

/-- `pj_sockaddr`. -/
structure PjSockaddr where
  addr : InAddr
  port : UInt16
  deriving DecidableEq, Repr

/-- The members of `pj_ice_sess_cand` that the two functions use. -/
structure PjIceSessCand where
  type : PjIceCandType
  compId : UInt8
  foundation : CString
  prio : UInt32
  addr : PjSockaddr
  deriving DecidableEq

/-- The address family that `strchr(ip, ':')` chooses. -/
inductive AddressFamily
  | inet
  | inet6
  deriving DecidableEq, Repr

/-- `pj_sockaddr_print` without the port, and `pj_sockaddr_set_str_addr`. -/
structure PjSock where
  print : InAddr → List Char
  setStrAddr : AddressFamily → List Char → Option InAddr

/-- The local side of an ICE session: user fragment and password, the number of components,
the candidates of all components and the default candidate of each. -/
structure PjIceStrans where
  ufrag : CString
  pwd : CString
  compCnt : Nat
  runningCompCnt : Nat
  lcand : List PjIceSessCand
  defCand : Nat → PjIceSessCand

/-- `pj_ice_strans_get_def_cand`. -/
def PjIceStrans.getDefCand (icest : PjIceStrans) (compId : Nat) : Except Int PjIceSessCand :=
  if 0 < compId ∧ compId ≤ icest.compCnt then .ok (icest.defCand compId) else .error einval

/-- `pj_ice_strans_enum_cands`: at most `count` candidates of the component. -/
def PjIceStrans.enumCands (icest : PjIceStrans) (compId count : Nat) :
    Except Int (List PjIceSessCand) :=
  if 0 < compId ∧ compId ≤ icest.compCnt then
    .ok ((icest.lcand.filter fun cand => decide (cand.compId.toNat = compId)).take count)
  else .error einval

/-! ### Encoding -/

/-- `(int)` of an `unsigned`, which is below 2^32. -/
def cInt (n : Nat) : Int := if n < 2147483648 then n else (n : Int) - 4294967296

/-- The macro `PRINT`: append to what the buffer holds, if it fits. The room that is left is
compared as an `int`. -/
def printText (maxlen : Nat) (p text : List Char) : Except Int (List Char) :=
  if text.length = 0 ∨ cInt (maxlen - p.length) ≤ text.length then .error (-etoosmall)
  else .ok (p ++ text)

/-- The `a=candidate` line up to the type. -/
def candText (pj : PjSock) (cand : PjIceSessCand) : List Char :=
  "a=candidate:".toList ++ cand.foundation.chars ++ ' ' :: printNat cand.compId.toNat ++
    " UDP ".toList ++ printNat cand.prio.toNat ++ ' ' :: pj.print cand.addr.addr ++
    ' ' :: printNat cand.addr.port.toNat ++ " typ ".toList

/-- `print_cand`. -/
def printCand (pj : PjSock) (maxlen : Nat) (cand : PjIceSessCand) : Except Int (List Char) := do
  let p ← printText maxlen [] (candText pj cand)
  let p ← printText maxlen p (cand.type.name ++ ['\n'])
  -- `if (p == buffer+maxlen)`: the terminator has no room.
  if p.length = maxlen then .error (-etoosmall) else .ok p

/-- The lines for the default address of a component. -/
def defAddrText (pj : PjSock) (comp : Nat) (addr : PjSockaddr) : List Char :=
  if comp = 0 then
    "m=audio ".toList ++ printNat addr.port.toNat ++ " RTP/AVP 0\nc=IN IP4 ".toList ++
      pj.print addr.addr ++ ['\n']
  else if comp = 1 then
    "a=rtcp:".toList ++ printNat addr.port.toNat ++ " IN IP4 ".toList ++ pj.print addr.addr ++
      ['\n']
  else
    "a=Xice-defcand:".toList ++ printNat addr.port.toNat ++ " IN IP4 ".toList ++
      pj.print addr.addr ++ ['\n']

/-- One round of the loop over the candidates. -/
def encodeCand (pj : PjSock) (maxlen : Nat) (p : List Char) (cand : PjIceSessCand) :
    Except Int (List Char) :=
  match printCand pj (maxlen - p.length) cand with
  | .ok text => .ok (p ++ text)
  | .error _ => .error (-etoosmall)

/-- One round of the loop over the components. -/
def encodeComp (pj : PjSock) (maxlen : Nat) (icest : PjIceStrans) (p : List Char)
    (comp : Nat) : Except Int (List Char) := do
  let cand ← (icest.getDefCand (comp + 1)).mapError Neg.neg
  let p ← printText maxlen p (defAddrText pj comp cand.addr)
  let cands ← (icest.enumCands (comp + 1) maxCand).mapError Neg.neg
  cands.foldlM (encodeCand pj maxlen) p

/-- The dummy lines. -/
def headerText : List Char :=
  "v=0\no=- 3414953978 3414953978 IN IP4 localhost\ns=ice\nt=0 0\n".toList

/-- The lines with the user fragment and the password. -/
def authText (icest : PjIceStrans) : List Char :=
  "a=ice-ufrag:".toList ++ icest.ufrag.chars ++ "\na=ice-pwd:".toList ++ icest.pwd.chars ++
    ['\n']

/-- `encodeSession`: the text in the buffer, or what is returned instead of its length. -/
def encodeSession (pj : PjSock) (maxlen : Nat) (icest : Option PjIceStrans) :
    Except Int (List Char) :=
  match icest with
  | none => .error 0
  | some icest => do
    let p ← printText maxlen [] headerText
    let p ← printText maxlen p (authText icest)
    let p ← (List.range icest.runningCompCnt).foldlM (encodeComp pj maxlen icest) p
    if p.length = maxlen then .error (-etoosmall) else .ok p

/-! ### Reading -/

/-- `ICE_Session::rem_info`. `def_addr` has entries for the first two components only; the
others are never set. -/
structure RemInfo where
  ufrag : CString
  pwd : CString
  compCnt : Nat
  defAddr0 : Option PjSockaddr
  defAddr1 : Option PjSockaddr
  cand : List PjIceSessCand
  deriving DecidableEq

/-- `resetRemoteInfo`. -/
def resetRemoteInfo : RemInfo :=
  { ufrag := ⟨[], by simp⟩, pwd := ⟨[], by simp⟩, compCnt := 0, defAddr0 := none,
    defAddr1 := none, cand := [] }

/-- Where the behaviour of the reader is not defined, or an exception leaves it. -/
inductive Fault
  | outOfRange
  | pastEnd
  | nullAttr
  | candIndex
  | overflow
  deriving DecidableEq, Repr

/-- Why the reader stops early: a fault, or `goto on_error`. -/
inductive Stop
  | fault (f : Fault)
  | onError
  deriving DecidableEq, Repr

/-- The variables of `icedemo_input_remote`. -/
structure InputState where
  rem : RemInfo
  mediaCnt : Nat
  comp0Port : UInt32
  comp0Addr : List Char
  deriving DecidableEq

/-- The variables at the start. -/
def InputState.init : InputState :=
  { rem := resetRemoteInfo, mediaCnt := 0, comp0Port := 0, comp0Addr := [] }

/-- `line.c_str() + 2`. -/
def lineArg (line : List Char) : Except Stop (List Char) :=
  if line.length < 2 then .error (.fault .pastEnd) else .ok (line.drop 2)

/-- `attr + strlen(attr) + 1`, where `rest` is the buffer from the end of `attr` on. -/
def attrValue (rest : List Char) : Except Stop (List Char) :=
  match rest with
  | [] => .error (.fault .pastEnd)
  | _ :: value => .ok value

/-- `strcpy` into a buffer of `size` characters. -/
def strcpy (size : Nat) (src : List Char) : Except Stop CString :=
  if (CString.ofBuf src).length < size then .ok (CString.ofBuf src)
  else .error (.fault .overflow)

/-- `sscanf` of the string at a pointer, with the sizes of the buffers for the words. -/
def scanInto (fmt : String) (sizes : List Nat) (src : List Char) : Except Stop (List Conv) :=
  let convs := sscanf (directives fmt.toList) (CString.ofBuf src).chars
  if Fits sizes convs then .ok convs else .error (.fault .overflow)

/-- `pj_sockaddr_init`, `pj_sockaddr_set_str_addr` and `pj_sockaddr_set_port`. -/
def readAddr (pj : PjSock) (ip : List Char) (port : Int) : Except Stop PjSockaddr :=
  match pj.setStrAddr (if ':' ∈ ip then .inet6 else .inet) ip with
  | some addr => .ok { addr, port := UInt16.ofInt port }
  | none => .error .onError

/-- The format of a media line. -/
def mediaFmt : String := "%s %s RTP/"

/-- The format of a connection line. -/
def connFmt : String := "%s %s %s"

/-- The format of an `rtcp` attribute. -/
def rtcpFmt : String := "%d IN %s %s"

/-- The format of a `candidate` attribute. -/
def candFmt : String := "%s %d %s %d %s %d typ %s"

/-- The case `'m'`. -/
def mediaLine (st : InputState) (line : List Char) : Except Stop InputState :=
  let st := { st with mediaCnt := st.mediaCnt + 1 }
  -- Only the first media line is read; the others are counted.
  if 1 < st.mediaCnt then .ok st
  else do
    let convs ← scanInto mediaFmt [32, 32] (← lineArg line)
    match convs with
    | [.str _, .str portstr] => .ok { st with comp0Port := UInt32.ofInt (atoi portstr) }
    | _ => .error .onError

/-- The case `'c'`. -/
def connLine (st : InputState) (line : List Char) : Except Stop InputState := do
  let convs ← scanInto connFmt [32, 32, 80] (← lineArg line)
  match convs with
  | [.str _, .str _, .str ip] => .ok { st with comp0Addr := ip }
  | _ => .error .onError

/-- The attribute `rtcp`. -/
def rtcpAttr (pj : PjSock) (st : InputState) (value : List Char) : Except Stop InputState := do
  let convs ← scanInto rtcpFmt [32, 64] value
  match convs with
  | [.int port, .str _, .str ip] =>
    let addr ← readAddr pj ip port
    .ok { st with rem := { st.rem with defAddr1 := some addr } }
  | _ => .error .onError

/-- The type that the text of a candidate names. -/
def candType (type : List Char) : Except Stop PjIceCandType :=
  if type = "host".toList then .ok .host
  else if type = "srflx".toList then .ok .srflx
  else if type = "relay".toList then .ok .relayed
  else .error .onError

/-- The candidate is appended, and `comp_cnt` raised to its component. -/
def RemInfo.addCand (rem : RemInfo) (cand : PjIceSessCand) : RemInfo :=
  { rem with
    cand := rem.cand ++ [cand]
    compCnt := if rem.compCnt < cand.compId.toNat then cand.compId.toNat else rem.compCnt }

/-- The attribute `candidate`. -/
def candAttr (pj : PjSock) (st : InputState) (value : List Char) : Except Stop InputState := do
  let convs ← scanInto candFmt [32, 12, 80, 32] value
  match convs with
  | [.str foundation, .int compId, .str _, .int prio, .str ipaddr, .int port, .str type] =>
    -- `&rem.cand[rem.cand_cnt]` is taken without a test of the count.
    if st.rem.cand.length < maxCand then
      let type ← candType type
      let addr ← readAddr pj ipaddr port
      let cand : PjIceSessCand :=
        { type, compId := UInt8.ofInt compId, foundation := CString.ofBuf foundation,
          prio := UInt32.ofInt prio, addr }
      .ok { st with rem := st.rem.addCand cand }
    else .error (.fault .candIndex)
  | _ => .error .onError

/-- The delimiters of the attribute name. -/
def attrDelims : List Char := [':', ' ', '\t', '\r', '\n']

/-- The comparisons of the attribute name, where `rest` is the buffer from the end of the name
on. -/
def attrCase (pj : PjSock) (st : InputState) (attr rest : List Char) :
    Except Stop InputState :=
  if attr = "ice-ufrag".toList then do
    let ufrag ← strcpy 80 (← attrValue rest)
    .ok { st with rem := { st.rem with ufrag } }
  else if attr = "ice-pwd".toList then do
    let pwd ← strcpy 80 (← attrValue rest)
    .ok { st with rem := { st.rem with pwd } }
  else if attr = "rtcp".toList then do rtcpAttr pj st (← attrValue rest)
  else if attr = "candidate".toList then do candAttr pj st (← attrValue rest)
  else .ok st

/-- The case `'a'`. -/
def attrLine (pj : PjSock) (st : InputState) (line : List Char) : Except Stop InputState := do
  let arg ← lineArg line
  match strtok attrDelims arg with
  -- The result of `strtok` goes to `strcmp` without a test for null.
  | none => .error (.fault .nullAttr)
  | some (attr, rest) => attrCase pj st attr rest

/-- The `switch` on the first character of a line. -/
def inputLine (pj : PjSock) (line : List Char) (st : InputState) : Except Stop InputState :=
  match line with
  -- An empty line: the text starts with an end of line.
  | [] => .error (.fault .outOfRange)
  | 'm' :: _ => mediaLine st line
  | 'c' :: _ => connLine st line
  | 'a' :: _ => attrLine pj st line
  | _ => .ok st

/-- `'\r'` or `'\n'`. -/
def isEol (c : Char) : Bool := c = '\r' ∨ c = '\n'

/-- The next line, and the text from the character that ends it on; `none` when the inner
loop runs behind the end of the text. -/
def scanLine (text : List Char) : Option (List Char × List Char) :=
  match text.dropWhile fun c => !isEol c with
  | [] => none
  | eol :: rest => some (text.takeWhile fun c => !isEol c, eol :: rest)

/-- A line takes at least the character that ends it. -/
theorem scanLine_lt {text line rest : List Char} (h : scanLine text = some (line, rest)) :
    (rest.dropWhile isEol).length < text.length := by
  unfold scanLine at h
  split at h
  · cases h
  · rename_i eol rest' hdrop
    cases h
    have heol : isEol eol = true := by
      have := List.head?_dropWhile_not (fun c => !isEol c) text
      simpa [hdrop] using this
    have hle : (eol :: rest').length ≤ text.length := hdrop ▸ List.length_dropWhile_le _ _
    have hle' : (rest'.dropWhile isEol).length ≤ rest'.length := List.length_dropWhile_le _ _
    simp only [List.dropWhile_cons, heol, if_true, List.length_cons] at hle ⊢
    omega

/-- The loop over the lines. -/
def inputLines (pj : PjSock) (text : List Char) (st : InputState) : Except Stop InputState :=
  if text = [] then .ok st
  else
    match _h : scanLine text with
    -- The last line has no end, and the inner loop does not compare `pos` with the length.
    | none => .error (.fault .outOfRange)
    | some (line, rest) =>
      match inputLine pj line st with
      | .ok st => inputLines pj (rest.dropWhile isEol) st
      | .error stop => .error stop
termination_by text.length
decreasing_by exact scanLine_lt _h

/-- The checks after the loop. -/
def checkRemote (pj : PjSock) (st : InputState) : Except Stop InputState :=
  if st.rem.cand.length = 0 ∨ st.rem.ufrag.chars = [] ∨ st.rem.pwd.chars = [] ∨
      st.rem.compCnt = 0 then .error .onError
  else if st.comp0Port = 0 ∨ st.comp0Addr = [] then .error .onError
  else do
    let addr ← readAddr pj st.comp0Addr st.comp0Port.toNat
    .ok { st with rem := { st.rem with defAddr0 := some addr } }

/-- `icedemo_input_remote`: the result and `rem`, unless there is a fault. -/
def icedemoInputRemote (pj : PjSock) (sdp : List Char) : Except Fault (Bool × RemInfo) :=
  match inputLines pj sdp InputState.init >>= checkRemote pj with
  | .ok st => .ok (true, st.rem)
  | .error .onError => .ok (false, resetRemoteInfo)
  | .error (.fault f) => .error f

end EChannel.LibTrans
