import EChannel.Support.Qt

/-!
# `EChannel.Signalling.Base64url`: the text form of the authentication token

`base64url` (`eChannel/base64url.cpp`) has an encoder and a decoder, and
`CommandClient::encode` (`eChannel/commandclient.cpp`) passes a key through the encoder, with a
fixed password over it. The characters of a `std::string` are bytes, and the counters of type
`int` are natural numbers.

`decoding` reads through pointers. `SrcMem` is the memory that it can reach: the text, the NUL
behind it, and whatever follows; likewise what follows `gDecodeTable`. The offsets that were
read and the indices into the table are recorded. `bufTmp` has the bytes that were written, in
order, and `outByte` is their number, also beyond the 128 bytes that the array has.
-/

set_option autoImplicit false

namespace EChannel.Signalling

namespace Base64url

/-- The bytes of a text. -/
def ascii (s : String) : QByteArray := s.toList.map fun c => UInt8.ofNat c.toNat

/-- `gStandard_table`. -/
def gStandardTable : QByteArray :=
  ascii "ABCDEFGHIJKLMNOPQRSTUVWXYZabcdefghijklmnopqrstuvwxyz0123456789+/"

/-- `gUrlsafe_table`. -/
def gUrlsafeTable : QByteArray :=
  ascii "ABCDEFGHIJKLMNOPQRSTUVWXYZabcdefghijklmnopqrstuvwxyz0123456789-_"

/-- `gDecodeTable`. -/
def gDecodeTable : QByteArray :=
  List.replicate 43 0 ++ [62] ++ [0, 0, 0] ++ [63] ++
    [52, 53, 54, 55, 56, 57, 58, 59, 60, 61] ++ List.replicate 7 0 ++
    [0, 1, 2, 3, 4, 5, 6, 7, 8, 9, 10, 11, 12,
      13, 14, 15, 16, 17, 18, 19, 20, 21, 22, 23, 24, 25] ++ List.replicate 6 0 ++
    [26, 27, 28, 29, 30, 31, 32, 33, 34, 35, 36, 37, 38,
      39, 40, 41, 42, 43, 44, 45, 46, 47, 48, 49, 50, 51]

/-! ### Encoding -/

/-- `mapTable`. -/
def mapTable (urlSafe : Bool) : QByteArray := if urlSafe then gUrlsafeTable else gStandardTable

/-- `mapTable[bits & MASK_6BITS]`. -/
def tableChar (urlSafe : Bool) (bits : Nat) : UInt8 := (mapTable urlSafe).getD (bits &&& 0x3f) 0

/-- The loop of `encoding` and the bytes behind it, from the byte at `index` on. `lineLen`
counts the characters of complete groups. -/
def encodeFrom (urlSafe : Bool) (lineLen : Nat) : QByteArray → QByteArray
  | a0 :: a1 :: a2 :: src =>
    [tableChar urlSafe (a0.toNat >>> 2),
      tableChar urlSafe ((a0.toNat <<< 4) ||| (a1.toNat >>> 4)),
      tableChar urlSafe ((a1.toNat <<< 2) ||| (a2.toNat >>> 6)),
      tableChar urlSafe a2.toNat] ++
      (if (lineLen + 4) % 76 = 0 then ascii "\n\r" else []) ++
      encodeFrom urlSafe (lineLen + 4) src
  | [a0, a1] =>
    [tableChar urlSafe (a0.toNat >>> 2),
      tableChar urlSafe ((a0.toNat <<< 4) ||| (a1.toNat >>> 4)),
      tableChar urlSafe ((a1.toNat <<< 2) ||| (0 >>> 6))] ++
      (if urlSafe then [] else ascii "=")
  | [a0] =>
    [tableChar urlSafe (a0.toNat >>> 2), tableChar urlSafe (a0.toNat <<< 4)] ++
      (if urlSafe then [] else ascii "==")
  | [] => []

/-- `base64url::encoding`. -/
def encoding (src : QByteArray) (urlSafe : Bool) : QByteArray := encodeFrom urlSafe 0 src

/-! ### Decoding -/

/-- `base64url::replace`. -/
def replace (src : UInt8) : UInt8 := if src = 45 then 43 else if src = 95 then 47 else src

/-- What `decoding` finds behind the text and its NUL, and behind `gDecodeTable`. -/
structure SrcMem where
  behindText : Nat → UInt8
  behindTable : Nat → UInt8

/-- The character at an offset from `src`. -/
def SrcMem.char (mem : SrcMem) (text : QByteArray) (offset : Nat) : UInt8 :=
  if offset < text.length then text.getD offset 0
  else if offset = text.length then 0
  else mem.behindText offset

/-- `gDecodeTable[a]`. -/
def SrcMem.table (mem : SrcMem) (a : UInt8) : Nat :=
  if a.toNat < gDecodeTable.length then (gDecodeTable.getD a.toNat 0).toNat
  else (mem.behindTable a.toNat).toNat

/-- The variables of `decoding`; `src` is an offset. -/
structure Decoder where
  src : Nat
  i : Nat
  nValue : Nat
  outByte : Nat
  bufTmp : QByteArray
  reads : List Nat
  lookups : List Nat
  deriving DecidableEq, Repr

/-- The variables at the start. -/
def Decoder.init : Decoder :=
  { src := 0, i := 0, nValue := 0, outByte := 0, bufTmp := [], reads := [], lookups := [] }

section
variable (mem : SrcMem) (text : QByteArray)

/-- `a = replace(*src++)`, and `gDecodeTable[a]`, shifted, goes into `nValue`. -/
def Decoder.take (st : Decoder) (shift : Nat) : Decoder :=
  let a := replace (mem.char text st.src)
  { st with
    src := st.src + 1
    nValue := st.nValue + (mem.table a <<< shift)
    reads := st.reads ++ [st.src]
    lookups := st.lookups ++ [a.toNat] }

/-- `bufTmp[outByte++] = bits`. -/
def Decoder.put (st : Decoder) (bits : Nat) : Decoder :=
  { st with outByte := st.outByte + 1, bufTmp := st.bufTmp ++ [UInt8.ofNat bits] }

/-- `*src` is looked at. -/
def Decoder.peek (st : Decoder) : UInt8 × Decoder :=
  (mem.char text st.src, { st with reads := st.reads ++ [st.src] })

/-- The fourth character of a group, unless it is a padding. -/
def Decoder.fourth (st : Decoder) : Decoder :=
  let c := st.peek mem text
  if c.1 = 61 then c.2
  else
    let st := c.2.take mem text 0
    st.put (st.nValue &&& 0x000000FF)

/-- The third character of a group, unless it is a padding. -/
def Decoder.third (st : Decoder) : Decoder :=
  let c := st.peek mem text
  if c.1 = 61 then c.2
  else
    let st := c.2.take mem text 6
    (st.put ((st.nValue &&& 0x0000FF00) >>> 8)).fourth mem text

/-- The branch of the loop for a group. -/
def Decoder.group (st : Decoder) : Decoder :=
  let st := ({ st with nValue := 0 }.take mem text 18).take mem text 12
  let st := (st.put ((st.nValue &&& 0x00FF0000) >>> 16)).third mem text
  { st with i := st.i + 4 }

/-- One round of the loop. -/
def Decoder.round (st : Decoder) : Decoder :=
  let c := st.peek mem text
  if c.1 ≠ 13 ∧ c.1 ≠ 10 then c.2.group mem text
  else { c.2 with src := c.2.src + 1, i := c.2.i + 1 }

/-- The loop. Each round adds to `i`, so that `inLen` rounds are enough. -/
def decodeLoop (inLen : Nat) : (fuel : Nat) → Decoder → Decoder
  | 0, st => st
  | fuel + 1, st => if st.i < inLen then decodeLoop inLen fuel (st.round mem text) else st

/-- `base64url::decoding` on a text and its length. -/
def decoding (inLen : Nat) : Decoder := decodeLoop mem text inLen inLen Decoder.init

end

/-- `int DataByte = inLen`, as the bound of a counter that starts at 0: a length from 2^31 on is
negative as an `int`. -/
def dataByte (inLen : UInt32) : Nat := inLen.toInt32.toInt.toNat

/-- `string(bufTmp, outByte)`. There is no result once a byte was written behind the array. -/
def Decoder.result (st : Decoder) : Option QByteArray :=
  if st.outByte ≤ 128 then some st.bufTmp else none

end Base64url

/-! ### The token -/

/-- The password of `CommandClient::encode`. -/
def password : QByteArray := Base64url.ascii "val:FocusChinaMediaGateway2014"

/-- Each byte with the byte of the password at its place. -/
def xorPassword (src : QByteArray) : QByteArray :=
  src.zipIdx.map fun b => b.1 ^^^ password.getD (b.2 % password.length) 0

/-- `CommandClient::encode`. -/
def CommandClient.encode (src : QByteArray) : QByteArray :=
  Base64url.encoding (xorPassword src) true

example : CommandClient.encode [107] = [72, 81] := by decide

end EChannel.Signalling
