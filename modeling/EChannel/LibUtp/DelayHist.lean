import Mathlib.Tactic.Common

/-!
# `EChannel.LibUtp.DelayHist`: the history of delay samples

A sample is the difference of two clocks, the sender's and the receiver's, which nobody has set
to each other, so only differences of samples mean something. `DelayHist` of `utp_internal.cpp`
keeps the least sample of each of the last minutes, with a comparison that takes wrapping into
account, and the last three samples relative to the least of them all.
-/

set_option autoImplicit false

namespace EChannel.LibUtp

/-- `wrapping_compare_less`: the way up from `lhs` to `rhs` is shorter than the way down. -/
def wrappingCompareLess (lhs rhs mask : UInt32) : Bool :=
  let distDown := (lhs - rhs) &&& mask
  let distUp := (rhs - lhs) &&& mask
  distUp < distDown

/-- `TIMESTAMP_MASK`. -/
def timestampMask : UInt32 := 0xFFFFFFFF

/-- `CUR_DELAY_SIZE`. -/
abbrev curDelaySize : Nat := 3

/-- `DELAY_BASE_HISTORY`. -/
abbrev delayBaseHistory : Nat := 13

/-- `DelayHist`. -/
structure DelayHist where
  delayBase : UInt32
  curDelayHist : Vector UInt32 curDelaySize
  curDelayIdx : Fin curDelaySize
  delayBaseHist : Vector UInt32 delayBaseHistory
  delayBaseIdx : Fin delayBaseHistory
  delayBaseTime : UInt64
  delayBaseInitialized : Bool
  deriving DecidableEq

namespace DelayHist

/-- `DelayHist::clear`. -/
def clear (currentMs : UInt64) : DelayHist :=
  { delayBase := 0
    curDelayHist := Vector.replicate curDelaySize 0
    curDelayIdx := 0
    delayBaseHist := Vector.replicate delayBaseHistory 0
    delayBaseIdx := 0
    delayBaseTime := currentMs
    delayBaseInitialized := false }

/-- `DelayHist::shift`. -/
def shift (h : DelayHist) (offset : UInt32) : DelayHist :=
  { h with
    delayBaseHist := h.delayBaseHist.map (· + offset)
    delayBase := h.delayBase + offset }

/-- The first sample fills the history. -/
def start (h : DelayHist) (sample : UInt32) : DelayHist :=
  if h.delayBaseInitialized then h
  else
    { h with
      delayBaseHist := Vector.replicate delayBaseHistory sample
      delayBase := sample
      delayBaseInitialized := true }

/-- A smaller sample replaces the entry of this minute, and `delay_base`. -/
def lower (h : DelayHist) (sample : UInt32) : DelayHist :=
  { h with
    delayBaseHist :=
      if wrappingCompareLess sample (h.delayBaseHist.get h.delayBaseIdx) timestampMask then
        h.delayBaseHist.set h.delayBaseIdx sample
      else h.delayBaseHist
    delayBase :=
      if wrappingCompareLess sample h.delayBase timestampMask then sample else h.delayBase }

/-- Note the delay of the sample over `delay_base`. -/
def note (h : DelayHist) (sample : UInt32) : DelayHist :=
  { h with
    curDelayHist := h.curDelayHist.set h.curDelayIdx (sample - h.delayBase)
    curDelayIdx := h.curDelayIdx + 1 }

/-- Once every minute, start the next entry and take `delay_base` from the whole history. -/
def nextMinute (h : DelayHist) (sample : UInt32) (currentMs : UInt64) : DelayHist :=
  if currentMs - h.delayBaseTime > 60 * 1000 then
    let idx := h.delayBaseIdx + 1
    let hist := h.delayBaseHist.set idx sample
    { h with
      delayBaseTime := currentMs
      delayBaseIdx := idx
      delayBaseHist := hist
      delayBase := hist.foldl
        (fun base d => if wrappingCompareLess d base timestampMask then d else base) (hist.get 0) }
  else h

/-- `DelayHist::add_sample`. -/
def addSample (h : DelayHist) (sample : UInt32) (currentMs : UInt64) : DelayHist :=
  (((h.start sample).lower sample).note sample).nextMinute sample currentMs

/-- `DelayHist::get_value`. -/
def getValue (h : DelayHist) : UInt32 :=
  h.curDelayHist.foldl (fun value d => if d < value then d else value) 0xFFFFFFFF

end DelayHist

end EChannel.LibUtp
