import Mathlib.Tactic.Common

/-!
# `EChannel.LibUtp.PacketFormat`: the header of a uTP packet

`PacketFormatV1` of `utp_internal.cpp` is the packed struct of 20 bytes in front of every packet,
its numbers big-endian (`uint16_big`, `uint32_big`). Behind it stand the extension headers, each
a pair of bytes (the type of the next one, and a length) and that many bytes, and behind these
the payload.

`decode` and `encode` are the two readings of the struct. `skipExtensions` is the loop over the
extension headers in `utp_process_incoming`. What is read back from a packet that was written is
what was written (`decode_encode`, `skipExtensions_acks`).
-/

set_option autoImplicit false

namespace EChannel.LibUtp

/-- The packet types `ST_DATA` to `ST_SYN`, in the order of their numbers. -/
inductive PacketType
  | data
  | fin
  | state
  | reset
  | syn
  deriving DecidableEq, Repr

/-- The number of a packet type. -/
def PacketType.code : PacketType → UInt8
  | .data => 0
  | .fin => 1
  | .state => 2
  | .reset => 3
  | .syn => 4

/-- The packet type of a number below `ST_NUM_STATES`. -/
def PacketType.ofCode (t : UInt8) : Option PacketType :=
  if t = 0 then some .data
  else if t = 1 then some .fin
  else if t = 2 then some .state
  else if t = 3 then some .reset
  else if t = 4 then some .syn
  else none

/-- A packet type is read back from its code. -/
@[simp] theorem PacketType.ofCode_code (t : PacketType) : ofCode t.code = some t := by
  cases t <;> rfl

/-- `uint16_big`. -/
def big16 (x : UInt16) : List UInt8 := [UInt8.ofNat (x.toNat / 256), UInt8.ofNat x.toNat]

/-- `uint32_big`. -/
def big32 (x : UInt32) : List UInt8 :=
  [UInt8.ofNat (x.toNat / 16777216), UInt8.ofNat (x.toNat / 65536), UInt8.ofNat (x.toNat / 256),
    UInt8.ofNat x.toNat]

/-- The value of a `uint16_big`. -/
def ofBig16 (a b : UInt8) : UInt16 := UInt16.ofNat (a.toNat * 256 + b.toNat)

/-- The value of a `uint32_big`. -/
def ofBig32 (a b c d : UInt8) : UInt32 :=
  UInt32.ofNat (a.toNat * 16777216 + b.toNat * 65536 + c.toNat * 256 + d.toNat)

/-- Two bytes in network order are read back as the 16-bit value they were written for. -/
theorem ofBig16_big16 (x : UInt16) :
    ofBig16 (UInt8.ofNat (x.toNat / 256)) (UInt8.ofNat x.toNat) = x := by
  have hx := x.toNat_lt
  apply UInt16.toNat_inj.mp
  simp only [ofBig16, UInt16.toNat_ofNat', UInt8.toNat_ofNat']
  omega

/-- Four bytes in network order are read back as the 32-bit value they were written for. -/
theorem ofBig32_big32 (x : UInt32) :
    ofBig32 (UInt8.ofNat (x.toNat / 16777216)) (UInt8.ofNat (x.toNat / 65536))
      (UInt8.ofNat (x.toNat / 256)) (UInt8.ofNat x.toNat) = x := by
  have hx := x.toNat_lt
  apply UInt32.toNat_inj.mp
  simp only [ofBig32, UInt32.toNat_ofNat', UInt8.toNat_ofNat']
  omega

/-- `PacketFormatV1`. -/
structure PacketFormatV1 where
  verType : UInt8
  ext : UInt8
  connid : UInt16
  tvUsec : UInt32
  replyMicro : UInt32
  windowsize : UInt32
  seqNr : UInt16
  ackNr : UInt16
  deriving DecidableEq, Repr

namespace PacketFormatV1

/-- `PacketFormatV1::version`. -/
def version (pf : PacketFormatV1) : UInt8 := pf.verType &&& 0xf

/-- `PacketFormatV1::type`. -/
def type (pf : PacketFormatV1) : UInt8 := pf.verType >>> 4

/-- `PacketFormatV1::set_version`. -/
def setVersion (pf : PacketFormatV1) (v : UInt8) : PacketFormatV1 :=
  { pf with verType := (pf.verType &&& 0xf0) ||| (v &&& 0xf) }

/-- `PacketFormatV1::set_type`. -/
def setType (pf : PacketFormatV1) (t : UInt8) : PacketFormatV1 :=
  { pf with verType := (pf.verType &&& (0xf : UInt8)) ||| (t <<< (4 : UInt8)) }

/-- `zeromem` of a header. -/
def zero : PacketFormatV1 :=
  { verType := 0, ext := 0, connid := 0, tvUsec := 0, replyMicro := 0, windowsize := 0, seqNr := 0,
    ackNr := 0 }

/-- `set_version(1)` and `set_type` on an empty header, which is how every packet starts. -/
def ofType (t : PacketType) : PacketFormatV1 := (zero.setVersion 1).setType t.code

/-- `UTP_Version`. -/
def utpVersion (pf : PacketFormatV1) : UInt8 :=
  if pf.type < 5 ∧ pf.ext < 3 then pf.version else 0

/-- `sizeof(PacketFormatV1)`. -/
def headerSize : Nat := 20

/-- The bytes of the struct. -/
def encode (pf : PacketFormatV1) : List UInt8 :=
  [pf.verType, pf.ext] ++ big16 pf.connid ++ big32 pf.tvUsec ++ big32 pf.replyMicro ++
    big32 pf.windowsize ++ big16 pf.seqNr ++ big16 pf.ackNr

/-- The struct at the front of a buffer, and what stands behind it. -/
def decode : List UInt8 → Option (PacketFormatV1 × List UInt8)
  | v :: e :: c0 :: c1 :: t0 :: t1 :: t2 :: t3 :: r0 :: r1 :: r2 :: r3 :: w0 :: w1 :: w2 :: w3 ::
      s0 :: s1 :: a0 :: a1 :: rest =>
    some ({ verType := v, ext := e, connid := ofBig16 c0 c1, tvUsec := ofBig32 t0 t1 t2 t3,
            replyMicro := ofBig32 r0 r1 r2 r3, windowsize := ofBig32 w0 w1 w2 w3,
            seqNr := ofBig16 s0 s1, ackNr := ofBig16 a0 a1 }, rest)
  | _ => none

/-- A header has 20 bytes. -/
@[simp] theorem length_encode (pf : PacketFormatV1) : pf.encode.length = headerSize := rfl

/-- A header that was written is read back. -/
theorem decode_encode (pf : PacketFormatV1) (rest : List UInt8) :
    decode (pf.encode ++ rest) = some (pf, rest) := by
  show some (({
      verType := pf.verType, ext := pf.ext,
      connid := ofBig16 (UInt8.ofNat (pf.connid.toNat / 256)) (UInt8.ofNat pf.connid.toNat),
      tvUsec := ofBig32 (UInt8.ofNat (pf.tvUsec.toNat / 16777216))
        (UInt8.ofNat (pf.tvUsec.toNat / 65536)) (UInt8.ofNat (pf.tvUsec.toNat / 256))
        (UInt8.ofNat pf.tvUsec.toNat),
      replyMicro := ofBig32 (UInt8.ofNat (pf.replyMicro.toNat / 16777216))
        (UInt8.ofNat (pf.replyMicro.toNat / 65536)) (UInt8.ofNat (pf.replyMicro.toNat / 256))
        (UInt8.ofNat pf.replyMicro.toNat),
      windowsize := ofBig32 (UInt8.ofNat (pf.windowsize.toNat / 16777216))
        (UInt8.ofNat (pf.windowsize.toNat / 65536)) (UInt8.ofNat (pf.windowsize.toNat / 256))
        (UInt8.ofNat pf.windowsize.toNat),
      seqNr := ofBig16 (UInt8.ofNat (pf.seqNr.toNat / 256)) (UInt8.ofNat pf.seqNr.toNat),
      ackNr := ofBig16 (UInt8.ofNat (pf.ackNr.toNat / 256)) (UInt8.ofNat pf.ackNr.toNat) } :
        PacketFormatV1), rest) = some (pf, rest)
  simp only [ofBig16_big16, ofBig32_big32]

/-- The type that was set is read back, whatever the byte was. -/
@[simp] theorem type_setType (pf : PacketFormatV1) (t : PacketType) :
    (pf.setType t.code).type = t.code := by
  show ((pf.verType &&& (0xf : UInt8)) ||| (t.code <<< (4 : UInt8))) >>> 4 = t.code
  generalize pf.verType = v
  refine UInt8.toBitVec_inj.mp ?_
  cases t
  all_goals
    simp only [PacketType.code, UInt8.toBitVec_shiftRight, UInt8.toBitVec_or, UInt8.toBitVec_and,
      UInt8.toBitVec_shiftLeft]
    generalize v.toBitVec = w
    revert w
    decide

/-- So is the version, also behind a type that is set later. -/
@[simp] theorem version_setType (pf : PacketFormatV1) (t : PacketType) :
    ((pf.setVersion 1).setType t.code).version = 1 := by
  show (((pf.verType &&& 0xf0) ||| (1 &&& 0xf)) &&& (0xf : UInt8) |||
    (t.code <<< (4 : UInt8))) &&& 0xf = 1
  generalize pf.verType = v
  refine UInt8.toBitVec_inj.mp ?_
  cases t
  all_goals
    simp only [PacketType.code, UInt8.toBitVec_or, UInt8.toBitVec_and, UInt8.toBitVec_shiftLeft]
    generalize v.toBitVec = w
    revert w
    decide

/-- A packet with a known type, at most one kind of extension headers and the version 1 is one
that `utp_process_udp` takes. -/
theorem utpVersion_eq_one {pf : PacketFormatV1} {t : PacketType} (htype : pf.type = t.code)
    (hext : pf.ext < 3) (hversion : pf.version = 1) : pf.utpVersion = 1 := by
  have ht : pf.type < 5 := by
    rw [htype]
    cases t <;> decide
  rw [utpVersion, if_pos ⟨ht, hext⟩, hversion]

end PacketFormatV1

/-! ### Extension headers -/

/-- A selective acknowledgment: the length in its header (`selack_ptr[-1]`), and the packet from
`selack_ptr` on. -/
structure SelAck where
  len : UInt8
  mask : List UInt8
  deriving DecidableEq, Repr

/-- What the extension headers say: `conn->extensions`, and unless one of them was wrong the
selective acknowledgment and the payload behind the headers. -/
structure ExtensionScan where
  extensions : List UInt8
  result : Option (Option SelAck × List UInt8)
  deriving DecidableEq, Repr

/-- The loop over the extension headers, with `data` at the next one and `extension` its type.
Every round takes at least two bytes, so the length of the packet bounds the rounds. -/
def extensionLoop : Nat → UInt8 → List UInt8 → List UInt8 → Option SelAck → ExtensionScan
  | n + 1, extension, next :: len :: data, bits, selack =>
    if data.length < len.toNat then ⟨bits, none⟩
    -- Extension bits of another length than 8 are an error.
    else if extension = 2 ∧ len ≠ 8 then ⟨bits, none⟩
    else
      let selack := if extension = 1 then some ⟨len, data⟩ else selack
      let bits := if extension = 2 then data.take 8 else bits
      if next = 0 then ⟨bits, some (selack, data.drop len.toNat)⟩
      else extensionLoop n next (data.drop len.toNat) bits selack
  | _, _, _, bits, _ => ⟨bits, none⟩

/-- Skip the extension headers behind a header with the field `ext`. -/
def skipExtensions (ext : UInt8) (data bits : List UInt8) : ExtensionScan :=
  if ext = 0 then ⟨bits, some (none, data)⟩ else extensionLoop data.length ext data bits none

/-- `ext_next`, `ext_len` and `acks` of a `PacketFormatAckV1`: the mask `m` with its low byte
first. -/
def ackExtension (m : Nat) : List UInt8 :=
  [0, 4, UInt8.ofNat m, UInt8.ofNat (m / 256), UInt8.ofNat (m / 65536), UInt8.ofNat (m / 16777216)]

/-- `mask[bits >> 3] & (1 << (bits & 7))`. A bit behind the end of the packet is read from the
byte `beyond`. -/
def SelAck.bitSet (sel : SelAck) (beyond : UInt8) (bits : Nat) : Bool :=
  ((sel.mask[bits / 8]?).getD beyond).toNat.testBit (bits % 8)

/-- Without an extension there is nothing to skip. -/
@[simp] theorem skipExtensions_zero (data bits : List UInt8) :
    skipExtensions 0 data bits = ⟨bits, some (none, data)⟩ := rfl

/-- The selective acknowledgment that was written is read back. -/
theorem skipExtensions_acks (m : Nat) (bits : List UInt8) :
    skipExtensions 1 (ackExtension m) bits =
      ⟨bits, some (some ⟨4, (ackExtension m).drop 2⟩, [])⟩ := rfl

/-- The bits of the mask that was written. -/
theorem bitSet_acks (m : Nat) (beyond : UInt8) {i : Nat} (hi : i < 32) :
    (SelAck.mk 4 ((ackExtension m).drop 2)).bitSet beyond i = m.testBit i := by
  show ((([UInt8.ofNat m, UInt8.ofNat (m / 256), UInt8.ofNat (m / 65536),
    UInt8.ofNat (m / 16777216)] : List UInt8)[i / 8]?).getD beyond).toNat.testBit (i % 8) = _
  have hbyte (k : Nat) (hk : i / 8 = k) (m' : Nat) (hm' : m' = m / 2 ^ (8 * k)) :
      (UInt8.ofNat m').toNat.testBit (i % 8) = m.testBit i := by
    rw [UInt8.toNat_ofNat', hm', Nat.testBit_mod_two_pow, Nat.testBit_div_two_pow]
    have hsum : i % 8 + 8 * k = i := by omega
    have hlt : i % 8 < 8 := Nat.mod_lt i (by decide)
    rw [hsum]
    simp [hlt]
  -- The four bytes one after the other.
  have hcases : i / 8 = 0 ∨ i / 8 = 1 ∨ i / 8 = 2 ∨ i / 8 = 3 := by omega
  rcases hcases with h | h | h | h
  · rw [h]
    exact hbyte 0 h m (by simp)
  · rw [h]
    exact hbyte 1 h (m / 256) rfl
  · rw [h]
    exact hbyte 2 h (m / 65536) rfl
  · rw [h]
    exact hbyte 3 h (m / 16777216) rfl

end EChannel.LibUtp
