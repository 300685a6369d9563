import Mathlib.Tactic.Common

/-!
# `EChannel.LibTrans.UtpTimer`: when the uTP thread lets libutp check its timeouts

`UtpHandle` (`libTrans/src/utphandle.cpp`) calls `utp_check_timeouts` from `checkUtp`, the slot
of a timer, and from `processLoop`, which runs for each datagram and each pack. Both compare the
clock with `m_last_time` and call it once a second at most.

The clock is `GetTickCount`, a 32-bit number of milliseconds that wraps around. The field
`m_last_time` is a `uint64`, the local `cur_time` an `int`. `onInit` stores the value of the
clock as it is. Afterwards an `int` is stored, and an `int` is subtracted from, so that the
values of the clock from 2^31 on are negative there.

`checks` lists the clock at each call of `utp_check_timeouts`. No branch reads it.
-/

set_option autoImplicit false

namespace EChannel.LibTrans

/-- `utp_default_get_milliseconds`: `GetTickCount`, as a `uint64`. -/
def utpDefaultGetMilliseconds (tick : UInt32) : UInt64 := tick.toUInt64

/-- `int cur_time = utp_default_get_milliseconds(NULL)`. -/
def curTime (tick : UInt32) : Int32 := (utpDefaultGetMilliseconds tick).toUInt32.toInt32

/-- An `int` in the place of a `uint64`. -/
def ofInt (v : Int32) : UInt64 := v.toInt64.toUInt64

/-- The members of `UtpHandle` that the two slots use for the timeouts. `deferredAcks` counts the
calls of `utp_issue_deferred_acks`. -/
structure UtpTimer where
  lastTime : UInt64
  deferredAcks : Nat
  checks : List UInt32
  deriving DecidableEq, Repr

namespace UtpTimer

/-- `UtpHandle::onInit`. -/
def onInit (tick : UInt32) : UtpTimer :=
  { lastTime := utpDefaultGetMilliseconds tick, deferredAcks := 0, checks := [] }

/-- `cur_time - m_last_time > 1000`. -/
def expired (lastTime : UInt64) (tick : UInt32) : Bool :=
  decide (1000 < ofInt (curTime tick) - lastTime)

/-- The end of both slots. -/
def checkTimeouts (t : UtpTimer) (tick : UInt32) : UtpTimer :=
  if expired t.lastTime tick then
    { t with lastTime := ofInt (curTime tick), checks := t.checks ++ [tick] }
  else t

/-- `UtpHandle::checkUtp`, with `m_recvQueue.isEmpty()`. -/
def checkUtp (t : UtpTimer) (recvQueueEmpty : Bool) (tick : UInt32) : UtpTimer :=
  let t := if recvQueueEmpty then { t with deferredAcks := t.deferredAcks + 1 } else t
  t.checkTimeouts tick

/-- `UtpHandle::processLoop`, behind `processWrite` and `processRecv`. -/
def processLoop (t : UtpTimer) (tick : UInt32) : UtpTimer := t.checkTimeouts tick

/-- A tick of the uTP thread: one of the slots, with the clock when it reads it. -/
inductive Tick
  | checkUtp (recvQueueEmpty : Bool) (clock : UInt32)
  | processLoop (clock : UInt32)
  deriving DecidableEq, Repr

/-- The clock of a tick. -/
def Tick.clock : Tick → UInt32
  | .checkUtp _ clock => clock
  | .processLoop clock => clock

/-- The step function. -/
def step (t : UtpTimer) : Tick → UtpTimer
  | .checkUtp recvQueueEmpty clock => t.checkUtp recvQueueEmpty clock
  | .processLoop clock => t.processLoop clock

/-- The state after a run of ticks. -/
def ticks (t : UtpTimer) (run : List Tick) : UtpTimer := run.foldl step t

end UtpTimer

end EChannel.LibTrans
