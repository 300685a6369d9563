import EChannel.Support.Qt
import Mathlib.Logic.Function.Iterate

/-!
# `EChannel.App.FileSender`: sending a file

The part of the window class `Test` (`eChannel/test.cpp`) that sends a file. The peer's accept
opens the file and reads the first 1 MiB of it into `m_buf`. Each `idle()` of the channel writes
a block of `m_blocksize` bytes, and loads `m_buf` again when `m_pos` has reached its end.

A `QFile` that is read has its content and a position. `read` and `atEnd` are as Qt documents
them for a file that does not change meanwhile; opening it succeeds. `Channel::write` and
`Channel::close` only queue requests to other threads, so `idle()` never arrives inside of them.
`written` and `closed` are about the transfer that the last `onAccept` began.
-/

set_option autoImplicit false

namespace EChannel.App

/-- A `QFile` that was opened for reading. -/
structure ReadFile where
  content : QByteArray
  pos : Nat
  pos_le : pos ≤ content.length

namespace ReadFile

/-- `QFile::open`. -/
def ofContent (content : QByteArray) : ReadFile where
  content := content
  pos := 0
  pos_le := Nat.zero_le _

/-- The bytes that were not read. -/
def unread (f : ReadFile) : QByteArray := f.content.drop f.pos

/-- `QFile::read`. -/
def read (f : ReadFile) (maxlen : Nat) : QByteArray × ReadFile :=
  (f.unread.take maxlen,
    { content := f.content
      pos := min (f.pos + maxlen) f.content.length
      pos_le := Nat.min_le_right _ _ })

/-- `QFile::atEnd`. -/
def atEnd (f : ReadFile) : Bool := decide (f.pos = f.content.length)

end ReadFile

/-- `QByteArray::mid`. A negative length is the rest. -/
def mid (buf : QByteArray) (pos : Nat) (len : Int) : QByteArray :=
  if len < 0 then buf.drop pos else (buf.drop pos).take len.toNat

/-- The members of `Test` that sending uses. `channel` says whether `m_channel` is set. -/
structure FileSender where
  isFile : Bool
  channel : Bool
  fileSend : Option ReadFile
  buf : QByteArray
  blocksize : Int
  pos : Nat
  written : List QByteArray
  closed : Bool

/-- The size of the buffer, 1 MiB. -/
def bufSize : Nat := 1048576

namespace FileSender

/-- `Test::onIdle`. -/
def onIdle (s : FileSender) : FileSender :=
  if s.channel = false then s
  else if s.buf.isEmpty then
    match s.fileSend with
    | some file =>
      if file.atEnd then { s with channel := false, closed := true } else s
    | none => s
  else
    let data := mid s.buf s.pos s.blocksize
    let s := { s with written := s.written ++ [data], pos := s.pos + data.length }
    if s.pos = s.buf.length then
      match s.fileSend with
      | some file =>
        { s with buf := (file.read bufSize).1, fileSend := some (file.read bufSize).2, pos := 0 }
      | none => s
    else s

/-- `Test::onAccept`, where the file has the given content and the user has entered the block
size. Without `m_isFile` the call is about the remote desktop. -/
def onAccept (s : FileSender) (content : QByteArray) (blocksize : Int) : FileSender :=
  if s.isFile then
    let file := ReadFile.ofContent content
    onIdle
      { s with
        fileSend := some (file.read bufSize).2
        blocksize
        buf := (file.read bufSize).1
        pos := 0
        written := []
        closed := false }
  else s

/-- The window after `onAccept` and a number of `idle()` notifications. -/
def afterIdles (s : FileSender) (content : QByteArray) (blocksize : Int) (n : Nat) : FileSender :=
  onIdle^[n] (s.onAccept content blocksize)

end FileSender

end EChannel.App
