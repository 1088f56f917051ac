import Mathlib.Order.Bounds.Basic

/-!
# Running extremes and a smoothed mean

Of a series of samples one may keep the least, the greatest and an estimate
that moves towards each new sample by a fixed fraction, with the division
rounded down.  Rounding does not take the estimate out of the range of the
samples, for the range is an interval of integers.
-/

namespace PqComm.Lib

/-- The mean of an estimate that weighs `weight` and a sample that weighs one,
rounded down. -/
def smoothed (weight estimate sample : Nat) : Nat :=
  (estimate * weight + sample) / (weight + 1)

section

variable {weight estimate sample : Nat}

theorem le_smoothed
    {low : Nat} (estimateAbove : low ≤ estimate)
    (sampleAbove : low ≤ sample) : low ≤ smoothed weight estimate sample := by
  unfold smoothed
  rw [Nat.le_div_iff_mul_le (Nat.succ_pos weight), Nat.mul_succ]
  exact Nat.add_le_add (Nat.mul_le_mul_right weight estimateAbove) sampleAbove

theorem smoothed_le
    {high : Nat} (estimateBelow : estimate ≤ high)
    (sampleBelow : sample ≤ high) : smoothed weight estimate sample ≤ high := by
  unfold smoothed
  have sum : estimate * weight + sample ≤ high * (weight + 1) := by
    rw [Nat.mul_succ]
    exact Nat.add_le_add (Nat.mul_le_mul_right weight estimateBelow) sampleBelow
  apply Nat.div_le_of_le_mul
  rw [Nat.mul_comm (weight + 1)]
  exact sum

end

/-- What is kept of a series of samples that is not empty. -/
structure Tracked (low high estimate : Nat) (samples : List Nat) : Prop where
  least : IsLeast {sample | sample ∈ samples} low
  greatest : IsGreatest {sample | sample ∈ samples} high
  above : low ≤ estimate
  below : estimate ≤ high

theorem Tracked.first (sample : Nat) :
    Tracked sample sample sample [sample] := by
  have only : {other | other ∈ [sample]} = {sample} := by
    ext other
    exact List.mem_singleton
  refine ⟨?_, ?_, Nat.le_refl sample, Nat.le_refl sample⟩
  · rw [only]
    exact isLeast_singleton
  · rw [only]
    exact isGreatest_singleton

theorem Tracked.next
    {low high estimate : Nat} {samples : List Nat}
    (tracked : Tracked low high estimate samples) (weight sample : Nat) :
    Tracked (min sample low) (max sample high)
      (smoothed weight estimate sample) (samples ++ [sample]) := by
  have more :
      {other | other ∈ samples ++ [sample]} =
        insert sample {other | other ∈ samples} := by
    ext other
    rw [Set.mem_insert_iff]
    exact List.mem_append.trans
      (or_comm.trans (or_congr_left List.mem_singleton))
  refine ⟨?_, ?_, ?_, ?_⟩
  · rw [more]
    exact tracked.least.insert sample
  · rw [more]
    exact tracked.greatest.insert sample
  · exact le_smoothed ((Nat.min_le_right _ _).trans tracked.above)
      (Nat.min_le_left _ _)
  · exact smoothed_le (tracked.below.trans (Nat.le_max_right _ _))
      (Nat.le_max_left _ _)

end PqComm.Lib
