import EChannel.Support.Qt
import Mathlib.Tactic.Common

/-!
# `EChannel.Signalling.Connection`: the framing of the signalling connection

`Connection` (`eChannel/connection.cpp`) carries the messages of the signalling server over
one TCP socket. `addSendTask` writes a message as an eight-byte `MGWHead` followed by the
payload. `onRead` appends what the socket delivers to `m_buffer` and emits
`recvData(type, length, payload)` for each message that is complete.

The decoder keeps its position in three fields. `m_numBytesForCurrentDataType` is `-1` while
no header is pending. `parseHeader` consumes the eight header bytes before the payload is
there, so a pending header lives only in the two integers.

The functions below follow the source one by one. `mutex` is left out: `onRead` is the only
writer of these fields. The target is little-endian (`Win32`), which `MGWHead.toBytes` reads
off the `memcpy` of the struct.
-/

set_option autoImplicit false

namespace EChannel.Signalling

/-- The low byte of a 16-bit word. -/
def loByte (x : UInt16) : UInt8 := UInt8.ofNat (x.toNat % 256)

/-- The high byte of a 16-bit word. -/
def hiByte (x : UInt16) : UInt8 := UInt8.ofNat (x.toNat / 256)

/-- The word with high byte `hi` and low byte `lo`. -/
def word (hi lo : UInt8) : UInt16 := UInt16.ofNat (hi.toNat * 256 + lo.toNat)

/-- `qToBigEndian<quint16>` on a little-endian host: the two bytes change places. -/
def qToBigEndian (x : UInt16) : UInt16 := word (loByte x) (hiByte x)

/-- `qFromBigEndian<quint16>` on the first two bytes at the pointer. -/
def qFromBigEndian : QByteArray → UInt16
  | hi :: lo :: _ => word hi lo
  | _ => 0

/-- `MGWHead`, the packet header. -/
structure MGWHead where
  cmd : UInt16
  length : UInt16
  unused : UInt32

/-- `MGWHead::Ntoh`. -/
def MGWHead.ntoh (head : MGWHead) : MGWHead :=
  { head with cmd := qToBigEndian head.cmd, length := qToBigEndian head.length }

/-- The `sizeof(MGWHead)` bytes that `memcpy` takes from the struct, lowest address first. -/
def MGWHead.toBytes (head : MGWHead) : QByteArray :=
  [loByte head.cmd, hiByte head.cmd, loByte head.length, hiByte head.length,
    head.unused.toUInt8, (head.unused >>> 8).toUInt8, (head.unused >>> 16).toUInt8,
    (head.unused >>> 24).toUInt8]

/-- `QByteArray::append(const char *str, int len)`: a negative `len` means `qstrlen(str)`. -/
def qAppend (buf str : QByteArray) (len : Int) : QByteArray :=
  if len < 0 then buf ++ str.takeWhile (· ≠ 0) else buf ++ str.take len.toNat

/-- The packet that both overloads of `Connection::addSendTask` build: the header, with
`type` and `length` cut to 16 bits, and `length` bytes of `data`. -/
def sendBuf (type length : Int) (data : QByteArray) : QByteArray :=
  let head : MGWHead :=
    { cmd := UInt16.ofNat (type % 65536).toNat
      length := UInt16.ofNat (length % 65536).toNat
      unused := 0 }
  qAppend head.ntoh.toBytes data length

/-- The socket `m_pSocket`: `none` is the null pointer, `some out` has taken the bytes
`out`. -/
abbrev TcpSocket := Option QByteArray

/-- `Connection::addSendTask(int, int, const std::string&)`. -/
def addSendTask (pSocket : TcpSocket) (type length : Int) (data : QByteArray) : TcpSocket :=
  match pSocket with
  | none => none
  | some out => some (out ++ sendBuf type length data)

/-- `Connection::addSendTask(int, int, const char*)`: the same packet, and the count that
`QTcpSocket::write` returns, `-1` without a socket. -/
def addSendTaskRaw (pSocket : TcpSocket) (type length : Int) (data : QByteArray) :
    TcpSocket × Int :=
  match pSocket with
  | none => (none, -1)
  | some out => (some (out ++ sendBuf type length data), (sendBuf type length data).length)

/-- The decoder fields of `Connection`. -/
structure Connection where
  buffer : QByteArray
  numBytesForCurrentDataType : Int
  currentDataType : Int
  deriving DecidableEq, Repr

/-- The decoder fields after the constructor. -/
def Connection.fresh : Connection :=
  { buffer := [], numBytesForCurrentDataType := -1, currentDataType := -1 }

/-- One `recvData(type, length, payload)` emission. -/
structure RecvData where
  type : Int
  length : Int
  payload : QByteArray
  deriving DecidableEq, Repr

namespace Connection

/-- `Connection::byte2Int`. -/
def byte2Int (data : QByteArray) : UInt16 := qFromBigEndian data

/-- `Connection::parseHeader`, with its return value. -/
def parseHeader (c : Connection) : Connection × Int :=
  if c.buffer.length < 8 then (c, 0)
  else
    -- The header leaves the buffer here, whether its payload has arrived or not.
    let type : Int := (byte2Int (c.buffer.take 2)).toNat
    let len : Int := (byte2Int ((c.buffer.drop 2).take 2)).toNat
    ({ buffer := c.buffer.drop 8, numBytesForCurrentDataType := len, currentDataType := type },
      len)

/-- The header that `hasEnoughData` parses first when none is pending. -/
def withHeader (c : Connection) : Connection :=
  if c.numBytesForCurrentDataType < 0 then (parseHeader c).1 else c

/-- The test of `Connection::hasEnoughData`, after its header step. -/
def payloadReady (c : Connection) : Bool :=
  ¬ ((c.buffer.length : Int) < c.numBytesForCurrentDataType
    ∨ c.numBytesForCurrentDataType < 0)

/-- `Connection::hasEnoughData`. -/
def hasEnoughData (c : Connection) : Connection × Bool :=
  (c.withHeader, c.withHeader.payloadReady)

/-- `Connection::processData`, with the signal it emits. `left` and `remove` clamp a negative
count to zero. -/
def processData (c : Connection) : Connection × RecvData :=
  let n := c.numBytesForCurrentDataType.toNat
  ({ buffer := c.buffer.drop n, numBytesForCurrentDataType := -1, currentDataType := -1 },
    { type := c.currentDataType, length := c.numBytesForCurrentDataType,
      payload := c.buffer.take n })

/-- What a round of the read loop leaves to read, counting a pending header as one. -/
def readMeasure (c : Connection) : Nat :=
  c.buffer.length + if c.numBytesForCurrentDataType < 0 then 0 else 1

/-- A round that finds enough data leaves less to read. -/
theorem readMeasure_processData_lt (c : Connection) (h : c.withHeader.payloadReady = true) :
    c.withHeader.processData.1.readMeasure < c.readMeasure := by
  simp only [payloadReady, not_or, decide_eq_true_eq] at h
  by_cases hneg : c.numBytesForCurrentDataType < 0
  · -- The header must have been parsed, so at least its eight bytes are gone.
    by_cases hlen : c.buffer.length < 8
    · simp [withHeader, parseHeader, hneg, hlen] at h
    · simp [withHeader, parseHeader, hneg, hlen, processData, readMeasure]
      omega
  · have hround : c.withHeader = c := if_neg hneg
    have hfresh : (-1 : Int) < 0 := by decide
    simp only [hround, processData, readMeasure, List.length_drop, if_neg hneg, if_pos hfresh]
    omega

/-- The `do ... while (m_buffer->size() >= 8)` loop of `onRead`, with the signals it emits. -/
def onReadLoop (c : Connection) : Connection × List RecvData :=
  if _h : c.hasEnoughData.2 = true then
    let r := c.hasEnoughData.1.processData
    if 8 ≤ r.1.buffer.length then
      let t := onReadLoop r.1
      (t.1, r.2 :: t.2)
    else (r.1, [r.2])
  else (c.hasEnoughData.1, [])
termination_by c.readMeasure
decreasing_by exact readMeasure_processData_lt c _h

/-- `Connection::onRead` on the bytes that `readAll` returns. `none` is the `abort()` of an
invalid socket. -/
def onRead (isValid : Bool) (recvBuf : QByteArray) (c : Connection) :
    Option (Connection × List RecvData) :=
  if ¬ isValid then none
  else if recvBuf.length = 0 then some (c, [])
  else some (onReadLoop { c with buffer := c.buffer ++ recvBuf })

/-- One `onRead` call for each chunk the valid socket delivers, with the emissions of each
call. -/
def onReads (c : Connection) : List QByteArray → Connection × List (List RecvData)
  | [] => (c, [])
  | chunk :: rest =>
    match c.onRead true chunk with
    | none => (c, [])
    | some (c', ds) =>
      let t := onReads c' rest
      (t.1, ds :: t.2)

end Connection

end EChannel.Signalling
