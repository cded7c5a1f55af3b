/-!
# Percentiles

The percentile `num / den` of a list of samples is the element at index `⌊n * num / den⌋` of the
sorted list. The index is computed with whole numbers, so no rounding moves it.
-/

namespace EchoLoad

/-- The index of the percentile `num / den` in `count` sorted samples. -/
def percentileRank (count num den : Nat) : Nat := count * num / den

/-- The same index, where the denominator may be zero: then there is none. -/
def percentileRank? (count num den : Nat) : Option Nat :=
  if den = 0 then none else some (percentileRank count num den)

/-- The index of a proper fraction is in range. -/
theorem percentileRank_lt {count num den : Nat} (hc : 0 < count) (hn : num < den) :
    percentileRank count num den < count := by
  unfold percentileRank
  apply Nat.div_lt_of_lt_mul
  rw [Nat.mul_comm den]
  exact Nat.mul_lt_mul_of_pos_left hn hc

/-- Three percentiles of a list of samples. -/
structure Percentiles where
  p50 : Nat
  p99 : Nat
  p999 : Nat
deriving DecidableEq, Repr

/-- The samples in increasing order. -/
def sortSamples (samples : List Nat) : List Nat := samples.mergeSort (· ≤ ·)

/-- The percentiles of a list of samples; an empty list has none. -/
def percentiles? (samples : List Nat) : Option Percentiles :=
  let sorted := sortSamples samples
  let n := sorted.length
  match sorted[percentileRank n 1 2]?, sorted[percentileRank n 99 100]?,
    sorted[percentileRank n 999 1000]? with
  | some p50, some p99, some p999 => some ⟨p50, p99, p999⟩
  | _, _, _ => none

end EchoLoad
