import EChannel.Proofs.LibUtp.Refinement

/-!
# `EChannel.Proofs.LibUtp.Delays`: the average of the delays that a peer reports

A sample of the average is the distance of a reported delay from a base, on a clock of 32 bits. As
long as all reported delays lie less than `INT_MAX` above some `lo`, so does the base, and each
sample is the true difference of the two numbers above `lo`. The average is then between the
smallest and the largest difference there can be, which is what the two assertions of
`utp_process_incoming` about it need (`AverageOk`).

Wider apart they can fail: a sample is `INT_MAX` where a delay is that much above the base.
-/

set_option autoImplicit false

namespace EChannel.LibUtp

/-! ### Numbers of 32 bits -/

/-- The delay is less than `INT_MAX` above `lo`. -/
def Above (lo delay : UInt32) : Prop := ((delay - lo).toNat : Int) < Conn.intMax

/-- The way from the base to a delay is the difference of what they are above `lo`. -/
theorem averageDelaySample_eq {lo base delay : UInt32} (hbase : Above lo base)
    (hdelay : Above lo delay) :
    Conn.averageDelaySample base delay = ((delay - lo).toNat : Int) - (base - lo).toNat := by
  have hdown : base - delay = (base - lo) - (delay - lo) := by grind
  have hup : delay - base = (delay - lo) - (base - lo) := by grind
  simp only [Above, Conn.intMax] at hbase hdelay
  dsimp only [Conn.averageDelaySample]
  rw [hdown, hup]
  generalize base - lo = x at hbase ⊢
  generalize delay - lo = y at hdelay ⊢
  simp only [gt_iff_lt, UInt32.lt_iff_toNat_lt, UInt32.toNat_sub]
  split <;> omega

/-- A number that fits is the same as an `int32`. -/
theorem int32_of_lt {n : Int} (hge : -(2 ^ 31) ≤ n) (hlt : n < 2 ^ 31) : Conn.int32 n = n :=
  Int.bmod_eq_of_le_mul_two (by omega) (by omega)

/-- A base that is moved by less than what it is above `lo`. -/
theorem toNat_sub_ofInt {lo base : UInt32} {k : Int} (hge : k ≤ (base - lo).toNat)
    (hlt : (base - lo).toNat - k < 2 ^ 32) :
    ((base - UInt32.ofInt k - lo).toNat : Int) = (base - lo).toNat - k := by
  have heq : base - UInt32.ofInt k - lo = (base - lo) - UInt32.ofInt k := by grind
  rw [heq]
  generalize base - lo = x at hge hlt ⊢
  have hk : ((UInt32.ofInt k).toNat : Int) = k % 2 ^ 32 := by
    simp only [UInt32.ofInt, UInt32.toNat_ofNat']
    omega
  rw [UInt32.toNat_sub]
  omega

/-- An average is between the bounds of what it is the average of. -/
theorem tdiv_bounds {sum low high : Int} {n : Nat} (hn : 0 < n) (hlow : 0 ≤ low)
    (hhigh : 0 ≤ high) (hge : -(low * n) ≤ sum) (hle : sum ≤ high * n) :
    -low ≤ sum.tdiv n ∧ sum.tdiv n ≤ high := by
  have hpos : (0 : Int) < n := by omega
  rcases Int.le_total 0 sum with hsum | hsum
  · rw [Int.tdiv_eq_ediv_of_nonneg hsum]
    have h1 := Int.ediv_nonneg hsum hpos.le
    exact ⟨by omega, Int.ediv_le_of_le_mul hpos hle⟩
  · have hneg : 0 ≤ -sum := by omega
    have hdiv : sum.tdiv n = -(-sum / n) := by
      rw [← Int.tdiv_eq_ediv_of_nonneg hneg, Int.neg_tdiv, Int.neg_neg]
    have h1 := Int.ediv_nonneg hneg hpos.le
    have h2 : -sum / n ≤ low := Int.ediv_le_of_le_mul hpos (by omega)
    rw [hdiv]
    omega

/-! ### The average -/

/-- The base is above `lo`, and the samples of the running 5 seconds are those of delays above
`lo`. A base of 0 stands for none, so there are no samples then. -/
structure AverageOk (lo : UInt32) (d : Delays) : Prop where
  fault : d.fault = false
  base : d.averageDelayBase ≠ 0 → Above lo d.averageDelayBase
  empty : d.averageDelayBase = 0 → d.currentDelaySamples = 0
  sum_ge : -(((d.averageDelayBase - lo).toNat : Int) * d.currentDelaySamples) ≤ d.currentDelaySum
  sum_le : d.currentDelaySum ≤
    (2 ^ 31 - 2 - ((d.averageDelayBase - lo).toNat : Int)) * d.currentDelaySamples

namespace AverageOk

variable {lo : UInt32} {d : Delays}

/-- A socket begins without a sample. -/
theorem new (lo : UInt32) (now : UInt64) : AverageOk lo (Delays.new now) := by
  refine ⟨rfl, fun hno => absurd rfl hno, fun _ => rfl, ?_, ?_⟩
  · show -(_ * ((0 : Nat) : Int)) ≤ 0
    omega
  · show (0 : Int) ≤ _ * ((0 : Nat) : Int)
    omega

/-- With the base that counts for a delay, the samples are still those of delays above `lo`. -/
theorem base_of_delay (h : AverageOk lo d) {delay : UInt32} (hdelay : Above lo delay) :
    let base := if d.averageDelayBase = 0 then delay else d.averageDelayBase
    let b : Int := (base - lo).toNat
    Above lo base ∧ -(b * d.currentDelaySamples) ≤ d.currentDelaySum ∧
      d.currentDelaySum ≤ (2 ^ 31 - 2 - b) * d.currentDelaySamples := by
  dsimp only
  split
  · rename_i hzero
    have hge := h.sum_ge
    have hle := h.sum_le
    rw [h.empty hzero] at hge hle ⊢
    exact ⟨hdelay, by omega, by omega⟩
  · rename_i hne
    exact ⟨h.base hne, h.sum_ge, h.sum_le⟩

/-- By how much the base is moved, from where it is `b` above `lo`: not further than the average. -/
theorem adjust_bounds {b average : Int} (previous : Int) (hb : 0 ≤ b) (hlt : b < 2 ^ 31 - 1)
    (hge : -b ≤ average) (hle : average ≤ 2 ^ 31 - 2 - b) :
    let adjust :=
      if min previous average > 0 then Conn.int32 (-min previous average)
      else if max previous average < 0 then Conn.int32 (-max previous average) else 0
    adjust ≤ b ∧ b - adjust < 2 ^ 31 - 1 := by
  dsimp only
  split
  · rename_i hpos
    rw [int32_of_lt (by omega) (by omega)]
    omega
  · split
    · rename_i hneg
      rw [int32_of_lt (by omega) (by omega)]
      omega
    · omega

/-- One more sample. The base moves towards the average only as far as that is. -/
theorem averageDelays (h : AverageOk lo d) {delay : UInt32} (hdelay : Above lo delay)
    (hne : delay ≠ 0) (currentMs : UInt64) :
    AverageOk lo (Conn.averageDelays d currentMs delay) := by
  obtain ⟨hbase, hge, hle⟩ := h.base_of_delay hdelay
  have hbase0 : (if d.averageDelayBase = 0 then delay else d.averageDelayBase) ≠ 0 := by
    split
    · exact hne
    · assumption
  dsimp only [Conn.averageDelays]
  generalize (if d.averageDelayBase = 0 then delay else d.averageDelayBase) = base at *
  have hsample := averageDelaySample_eq hbase hdelay
  simp only [Above, Conn.intMax] at hbase hdelay
  -- The bounds of the next sum, below and above.
  obtain ⟨high, hhigh⟩ : ∃ high : Int, high = 2 ^ 31 - 2 - (base - lo).toNat := ⟨_, rfl⟩
  rw [← hhigh] at hle
  have hsum_ge : -(((base - lo).toNat : Int) * (d.currentDelaySamples + 1 : Nat)) ≤
      d.currentDelaySum + Conn.averageDelaySample base delay := by
    rw [hsample, Int.natCast_succ, Int.mul_add]
    omega
  have hsum_le : d.currentDelaySum + Conn.averageDelaySample base delay ≤
      high * (d.currentDelaySamples + 1 : Nat) := by
    rw [hsample, Int.natCast_succ, Int.mul_add]
    omega
  generalize d.currentDelaySum + Conn.averageDelaySample base delay = sum at hsum_ge hsum_le ⊢
  split
  · obtain ⟨havg_ge, havg_le⟩ := tdiv_bounds (Nat.succ_pos _) (by omega) (by omega) hsum_ge hsum_le
    generalize sum.tdiv (d.currentDelaySamples + 1 : Nat) = average at havg_ge havg_le ⊢
    have hint : Conn.int32 average = average := int32_of_lt (by omega) (by omega)
    rw [hint]
    have hadjust := adjust_bounds (b := (base - lo).toNat) d.averageDelay
      (by omega) (by omega) havg_ge (by omega)
    dsimp only at hadjust
    generalize (if min d.averageDelay average > 0 then _ else _ : Int) = adjust at hadjust ⊢
    have hmoved := toNat_sub_ofInt hadjust.1 (by omega)
    refine ⟨?_, fun _ => ?_, fun _ => rfl, ?_, ?_⟩
    · have hfits : average < Conn.intMax ∧ -Conn.intMax < average := by
        unfold Conn.intMax
        omega
      show (d.fault || !decide (average < Conn.intMax ∧ -Conn.intMax < average)) = false
      rw [h.fault, decide_eq_true hfits]
      rfl
    · show ((base - UInt32.ofInt adjust - lo).toNat : Int) < 2 ^ 31 - 1
      omega
    · show -(_ * ((0 : Nat) : Int)) ≤ 0
      omega
    · show (0 : Int) ≤ _ * ((0 : Nat) : Int)
      omega
  · rw [hhigh] at hsum_le
    exact ⟨h.fault, fun _ => hbase, fun hno => absurd hno hbase0, hsum_ge, hsum_le⟩

/-- What a packet says about the delays. -/
theorem measureDelays (h : AverageOk lo d) {pf : PacketFormatV1}
    (hpf : Conn.actualDelay pf = 0 ∨ Above lo (Conn.actualDelay pf)) (currentMs time : UInt64)
    (minRtt : Int) : AverageOk lo (Conn.measureDelays d currentMs time pf minRtt).1 := by
  have hshift (d' : Delays) (h' : AverageOk lo d') : AverageOk lo
      (if minRtt < d'.ourHist.getValue.toNat then
        { d' with ourHist := d'.ourHist.shift (UInt32.ofInt (d'.ourHist.getValue.toNat - minRtt)) }
      else d') := by
    split
    · exact { h' with }
    · exact h'
  refine hshift _ ?_
  split
  · rename_i hne
    refine averageDelays ?_ (hpf.resolve_left hne) hne currentMs
    exact { h with }
  · exact { h with }

end AverageOk

namespace FrameSocket

variable {lo : UInt32} {p : Option Segment} {s s' : FrameSocket}

/-- A socket measures with the packet that it works on, and with nothing else. -/
theorem Step.averageOk (hs : Step p s s')
    (hp : ∀ seg, p = some seg →
      Conn.actualDelay seg.header = 0 ∨ Above lo (Conn.actualDelay seg.header))
    (h : AverageOk lo s.delays) : AverageOk lo s'.delays := by
  cases hs with
  | measure seg currentMs time minRtt hseg =>
    exact h.measureDelays (hp seg hseg) currentMs time minRtt
  | _ => exact h

/-- Any number of steps keep the average in its bounds. -/
theorem Steps.averageOk (hs : Steps p s s')
    (hp : ∀ seg, p = some seg →
      Conn.actualDelay seg.header = 0 ∨ Above lo (Conn.actualDelay seg.header))
    (h : AverageOk lo s.delays) : AverageOk lo s'.delays := by
  induction hs with
  | refl => exact h
  | tail _ hstep ih => exact hstep.averageOk hp ih

end FrameSocket

end EChannel.LibUtp
