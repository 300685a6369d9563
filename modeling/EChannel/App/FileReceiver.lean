import EChannel.Support.Qt
import EChannel.Support.Run
import Mathlib.Logic.Function.Iterate

/-!
# `EChannel.App.FileReceiver`: receiving a file

The part of the window class `Test` (`eChannel/test.cpp`) that receives a file, and the class
`FileHandle` (`eChannel/filehandle.cpp`) that writes it in a thread of its own.

Connections between signals and slots are made at run time, and a slot is called once for each of
them:

* `initChannel` connects `readyRead` of the channel to `onRead` each time it runs for a file.
  `readConns` has the number of these connections for the channel of each session.
* `FileHandle::onInit` connects `sigWrite`, `sigSetFilePath` and `sigClose`. The main thread
  emits them, so their slots are queued for the file thread, as many as there are connections at
  that time. `sigInit` is connected by the constructor. `sigSetFilePath` in `onInit` is emitted by
  the file thread itself and its slot runs at once.

`m_filePath` is shared by the threads, and `onSetFilePath` opens the path that it finds there.
Which paths can be opened is an input (`canOpen`). `QFile::write` writes nothing to a file that is
not open.

`recvFile` also accepts the call. What it sends concerns the signalling only, as do the other
buttons, and is left out. A call through the null `m_fileRecvHandle` is undefined, and there is no
step for it.

`accepted` is the session that the last `recvFile` was for, and `received` what has come since: the
payload of each `readyRead` of that session, whether the window is connected to the channel or not,
and what the window gets from other channels. No branch reads them.
-/

set_option autoImplicit false

namespace EChannel.App

/-- A slot of `FileHandle` that is queued for the file thread. -/
inductive FileSlot
  | onInit
  | onSetFilePath
  | onWrite (data : QByteArray)
  | onClose
  deriving DecidableEq, Repr

/-- A `FileHandle` with the slots that are queued for it. `file` is the content of the file, when
it is open. -/
structure FileHandle where
  filePath : QString
  connections : Nat
  file : Option QByteArray
  queue : List FileSlot
  deriving DecidableEq, Repr

namespace FileHandle

variable (canOpen : QString → Bool)

/-- A new `FileHandle`, and `FileHandle::init`. -/
def init (filePath : QString) : FileHandle :=
  { filePath, connections := 0, file := none, queue := [.onInit] }

/-- A signal of the main thread whose slot `onInit` connects. -/
def emitSignal (h : FileHandle) (slot : FileSlot) : FileHandle :=
  { h with queue := h.queue ++ List.replicate h.connections slot }

/-- `FileHandle::setFilePath`. -/
def setFilePath (h : FileHandle) (filePath : QString) : FileHandle :=
  { h with filePath }.emitSignal .onSetFilePath

/-- `FileHandle::write`. -/
def write (h : FileHandle) (data : QByteArray) : FileHandle := h.emitSignal (.onWrite data)

/-- `FileHandle::close`. -/
def close (h : FileHandle) : FileHandle := h.emitSignal .onClose

/-- `FileHandle::onClose`. -/
def onClose (h : FileHandle) : FileHandle := { h with file := none }

/-- `FileHandle::onSetFilePath`. The file is opened with `Truncate`. -/
def onSetFilePath (h : FileHandle) : FileHandle :=
  { h.onClose with file := if canOpen h.filePath then some [] else none }

/-- `FileHandle::onWrite`. -/
def onWrite (h : FileHandle) (data : QByteArray) : FileHandle :=
  { h with file := h.file.map (· ++ data) }

/-- `FileHandle::onInit`. -/
def onInit (h : FileHandle) : FileHandle :=
  let h := { h with file := none, connections := h.connections + 1 }
  (onSetFilePath canOpen)^[h.connections] h

/-- The file thread runs a slot. -/
def runSlot (h : FileHandle) : FileSlot → FileHandle
  | .onInit => h.onInit canOpen
  | .onSetFilePath => h.onSetFilePath canOpen
  | .onWrite data => h.onWrite data
  | .onClose => h.onClose

/-- The file thread takes the next slot. -/
def next (h : FileHandle) : FileHandle :=
  match h.queue with
  | [] => h
  | slot :: queue => { h with queue }.runSlot canOpen slot

/-- The file thread has run everything that is queued. -/
def drain (h : FileHandle) : FileHandle :=
  h.queue.foldl (runSlot canOpen) { h with queue := [] }

end FileHandle

/-- The members of `Test` that receiving uses. -/
structure FileReceiver where
  isFile : Bool
  uuid : QString
  readConns : QString → Nat
  fileRecvHandle : Option FileHandle
  accepted : Option QString
  received : QByteArray

/-- What happens in the main thread, and a step of the file thread. `fresh` is the id that
`initSession` creates when it is called without one. -/
inductive ReceiverAction
  | send (fresh : QString)
  | sendFile (fresh : QString)
  | onInvite (uuid : QString) (currentIndex : Int) (fresh : QString)
  | recvFile (filePath : QString)
  | onStop
  | readyRead (sessionId : QString) (data : QByteArray)
  /-- `error` of a channel, which is deleted with its session when the connection failed. -/
  | channelError (sessionId : QString) (deleted : Bool)
  | onRDPError
  | fileThread

namespace FileReceiver

/-- The window at the start. -/
def init : FileReceiver :=
  { isFile := false, uuid := [], readConns := fun _ => 0, fileRecvHandle := none,
    accepted := none, received := [] }

/-- `Test::initChannel`. A channel that is not for a file is the business of the remote desktop. -/
def initChannel (s : FileReceiver) (fresh : QString) : FileReceiver :=
  let uuid := if s.uuid = [] then fresh else s.uuid
  { s with
    uuid
    readConns :=
      if s.isFile then Function.update s.readConns uuid (s.readConns uuid + 1) else s.readConns }

/-- `Test::onInvite`. -/
def onInvite (s : FileReceiver) (uuid : QString) (currentIndex : Int) (fresh : QString) :
    FileReceiver :=
  let s := { s with isFile := if currentIndex = 1 then true else s.isFile }
  { s with uuid }.initChannel fresh

/-- `Test::recvFile`. -/
def recvFile (s : FileReceiver) (filePath : QString) : FileReceiver :=
  { s with
    fileRecvHandle :=
      match s.fileRecvHandle with
      | none => some (FileHandle.init filePath)
      | some h => some (h.setFilePath filePath)
    accepted := some s.uuid
    received := [] }

/-- `Test::onStop`. -/
def onStop (s : FileReceiver) : Option FileReceiver :=
  match s.fileRecvHandle with
  | none => none
  | some h => some { s with fileRecvHandle := some h.close }

/-- The payload of a `readyRead` is received: the session is the accepted one, or the window is
connected to its channel. -/
def Receives (s : FileReceiver) (sessionId : QString) : Prop :=
  s.accepted = some sessionId ∨ s.readConns sessionId ≠ 0

instance (s : FileReceiver) (sessionId : QString) : Decidable (s.Receives sessionId) :=
  inferInstanceAs (Decidable (_ ∨ _))

/-- `readyRead(data)` of a channel: `Test::onRead` for each connection. -/
def readyRead (s : FileReceiver) (sessionId : QString) (data : QByteArray) :
    Option FileReceiver :=
  let received := if s.Receives sessionId then s.received ++ data else s.received
  if s.readConns sessionId = 0 then some { s with received }
  else
    match s.fileRecvHandle with
    | none => none
    | some h =>
      some { s with
        fileRecvHandle := some ((fun h => h.write data)^[s.readConns sessionId] h)
        received }

/-- `Test::onChannelError`, if `error` is connected to it, and what becomes of the channel. -/
def channelError (s : FileReceiver) (sessionId : QString) (deleted : Bool) : FileReceiver :=
  { s with
    uuid := if s.readConns sessionId = 0 then s.uuid else []
    readConns := if deleted then Function.update s.readConns sessionId 0 else s.readConns }

/-- One step of the main thread or of the file thread. -/
def step (canOpen : QString → Bool) (s : FileReceiver) : ReceiverAction → Option FileReceiver
  | .send fresh => some (s.initChannel fresh)
  | .sendFile fresh => some ({ s with isFile := true }.initChannel fresh)
  | .onInvite uuid currentIndex fresh => some (s.onInvite uuid currentIndex fresh)
  | .recvFile filePath => some (s.recvFile filePath)
  | .onStop => s.onStop
  | .readyRead sessionId data => s.readyRead sessionId data
  | .channelError sessionId deleted => some (s.channelError sessionId deleted)
  | .onRDPError => some { s with uuid := [] }
  | .fileThread => some { s with fileRecvHandle := s.fileRecvHandle.map (·.next canOpen) }

/-- The content of the open file once the queue has drained. -/
def drainedFile (canOpen : QString → Bool) (s : FileReceiver) : Option QByteArray :=
  match s.fileRecvHandle with
  | none => none
  | some h => (h.drain canOpen).file

end FileReceiver

end EChannel.App
