import EChannel.LibTrans.ImpPjIce
import EChannel.Support.Qt

/-!
# `EChannel.LibTrans.SdpBuffer`: the SDP text in the buffer of the caller

`encodeSession` of `EChannel.LibTrans.ImpPjIce` has the text that is printed. Here are the same
functions of `libTrans/src/imppjice.cpp` with the pointers they write through: `buffer` and `p`
are offsets into the memory of the caller, and `top` is the offset behind the highest character
that was written. An early `return` is an error of the monad and keeps what was written so far.

`pj_ansi_snprintf` belongs to the C library. It is a parameter (`Snprintf`), since a result that
is cut off is reported in two ways: as a negative number, or as the length that there would have
been.
-/

set_option autoImplicit false

namespace EChannel.LibTrans

open CText

/-- `snprintf` with room for `n` characters: what it writes and what it returns, for the text
that the format and the arguments give. -/
structure Snprintf where
  written : (n : Nat) → (text : List Char) → List Char
  result : (n : Nat) → (text : List Char) → Int

/-- What is common to the variants of `snprintf`. -/
structure Snprintf.Conforms (sn : Snprintf) : Prop where
  length_written : ∀ n text, (sn.written n text).length ≤ n
  /-- A text with room for its NUL is written, and its length is returned if it is an `int`. -/
  fits : ∀ n text, text.length < n → text.length < 2147483648 →
    sn.written n text = text ++ [nul] ∧ sn.result n text = text.length
  /-- A text without that room is reported. -/
  cut : ∀ n text, n ≤ text.length → sn.result n text < 0 ∨ sn.result n text = text.length

/-- The memory from the buffer on. -/
structure SdpBuf where
  mem : Nat → Char
  top : Nat

namespace SdpBuf

/-- Characters are written from an offset on. -/
def store (b : SdpBuf) (p : Nat) (s : List Char) : SdpBuf where
  mem i := if p ≤ i ∧ i < p + s.length then s.getD (i - p) nul else b.mem i
  top := if s = [] then b.top else max b.top (p + s.length)

/-- The string at the start of a buffer of `size` characters. -/
def str (b : SdpBuf) (size : Nat) : CString := CString.ofBuf ((List.range size).map b.mem)

end SdpBuf

/-- A function that writes into the buffer and may return early. -/
abbrev SdpWriter := ExceptT Int (StateM SdpBuf)

namespace SdpWriter

variable (sn : Snprintf) (pj : PjSock)

/-- Characters are written. -/
def put (p : Nat) (s : List Char) : SdpWriter Unit := modify fun b => b.store p s

/-- The macro `PRINT`. -/
def print (buffer maxlen p : Nat) (text : List Char) : SdpWriter Nat := do
  let room := maxlen - (p - buffer)
  put p (sn.written room text)
  let printed := sn.result room text
  if printed ≤ 0 ∨ cInt room ≤ printed then throw (-etoosmall)
  else pure (p + printed.toNat)

/-- `print_cand`. -/
def printCand (buffer maxlen : Nat) (cand : PjIceSessCand) : SdpWriter Nat := do
  let p ← print sn buffer maxlen buffer (candText pj cand)
  let p ← print sn buffer maxlen p (cand.type.name ++ ['\n'])
  if p = buffer + maxlen then throw (-etoosmall)
  else do
    put p [nul]
    pure (p - buffer)

/-- One round of the loop over the candidates. -/
def encodeCand (maxlen p : Nat) (cand : PjIceSessCand) : SdpWriter Nat := do
  let printed ← ExceptT.adapt (fun _ => -etoosmall) (printCand sn pj p (maxlen - p) cand)
  pure (p + printed)

/-- One round of the loop over the components. -/
def encodeComp (maxlen : Nat) (icest : PjIceStrans) (p comp : Nat) : SdpWriter Nat := do
  let cand ← liftExcept ((icest.getDefCand (comp + 1)).mapError Neg.neg)
  let p ← print sn 0 maxlen p (defAddrText pj comp cand.addr)
  let cands ← liftExcept ((icest.enumCands (comp + 1) maxCand).mapError Neg.neg)
  cands.foldlM (encodeCand sn pj maxlen) p
where
  /-- A failed query of pjnath. -/
  liftExcept {α : Type} (x : Except Int α) : SdpWriter α := ExceptT.mk (pure x)

/-- The body of `encodeSession`, up to the value of `p`. -/
def encodeBody (maxlen : Nat) (icest : PjIceStrans) : SdpWriter Nat := do
  let p ← print sn 0 maxlen 0 headerText
  let p ← print sn 0 maxlen p (authText icest)
  let p ← (List.range icest.runningCompCnt).foldlM (encodeComp sn pj maxlen icest) p
  if p = maxlen then throw (-etoosmall)
  else do
    put p [nul]
    pure p

end SdpWriter

/-- `encodeSession` on a buffer: the result and the buffer. -/
def encodeSessionBuf (sn : Snprintf) (pj : PjSock) (maxlen : Nat) (icest : Option PjIceStrans)
    (b : SdpBuf) : Int × SdpBuf :=
  match icest with
  | none => (0, b)
  | some icest =>
    match (SdpWriter.encodeBody sn pj maxlen icest).run b with
    | (.ok p, b) => (cInt p, b)
    | (.error e, b) => (e, b)

/-- `PJICESocket::localSdp`, for the transport of the socket and behind `iceAppInitSession`. -/
def localSdpText (sn : Snprintf) (pj : PjSock) (sInit : Bool) (icest : Option PjIceStrans) :
    QString :=
  if sInit then
    -- `char szsdp[4096]={0}`
    let r := encodeSessionBuf sn pj 4096 icest { mem := fun _ => nul, top := 0 }
    if 0 < r.1 then (r.2.str 4096).chars else []
  else []

end EChannel.LibTrans
