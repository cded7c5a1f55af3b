import EchoLoad.Stats.Percentile
import Mathlib.Algebra.GroupWithZero.Nat

/-!
# Percentiles are order statistics

A percentile is looked up in the sorted samples at an index that is rounded down. What that makes it is said
without sorting (`HasRank`): not more than `rank` samples are smaller, and more than `rank` are not larger.

> `takePercentiles?_ranked`: of samples in any order, of any number but zero, the three percentiles are the
> samples of their ranks, and no index is past the end.

There is only one value with a rank, and values with larger ranks are not smaller (`HasRank.le`). So the
percentiles are in order, and nothing depends on how the samples were ordered.
-/

namespace EchoLoad

/-! ## Sorted samples -/

theorem sortSamples_perm (samples : List Nat) : (sortSamples samples).Perm samples :=
  List.mergeSort_perm ..

theorem length_sortSamples (samples : List Nat) : (sortSamples samples).length = samples.length :=
  (sortSamples_perm samples).length_eq

theorem pairwise_sortSamples (samples : List Nat) : (sortSamples samples).Pairwise (· ≤ ·) := by
  have hsorted : (sortSamples samples).Pairwise fun a b => decide (a ≤ b) = true := by
    apply List.pairwise_mergeSort
    · intro a b c hab hbc
      exact decide_eq_true (Nat.le_trans (of_decide_eq_true hab) (of_decide_eq_true hbc))
    · intro a b
      rw [Bool.or_eq_true, decide_eq_true_eq, decide_eq_true_eq]
      exact Nat.le_total a b
  exact hsorted.imp of_decide_eq_true

/-- Lists in increasing order with the same samples are the same. -/
theorem eq_of_perm_of_pairwise {xs ys : List Nat} (hxs : xs.Pairwise (· ≤ ·))
    (hys : ys.Pairwise (· ≤ ·)) (h : xs.Perm ys) : xs = ys :=
  List.Perm.eq_of_pairwise (fun _ _ _ _ hab hba => Nat.le_antisymm hab hba) hxs hys h

theorem sortSamples_eq_of_perm {xs ys : List Nat} (h : xs.Perm ys) :
    sortSamples xs = sortSamples ys :=
  eq_of_perm_of_pairwise (pairwise_sortSamples xs) (pairwise_sortSamples ys)
    ((sortSamples_perm xs).trans (h.trans (sortSamples_perm ys).symm))

/-! ## Ranks -/

/-- A sample with at most `rank` samples below it, and more than that many that are not above it. -/
structure HasRank (samples : List Nat) (rank v : Nat) : Prop where
  rank_lt : rank < samples.length
  mem : v ∈ samples
  below : samples.countP (· < v) ≤ rank
  upTo : rank + 1 ≤ samples.countP (· ≤ v)

/-- In increasing order, samples stand at their ranks. -/
theorem hasRank_getElem {sorted : List Nat} (hsorted : sorted.Pairwise (· ≤ ·)) {rank : Nat}
    (hrank : rank < sorted.length) : HasRank sorted rank sorted[rank] := by
  have hle : ∀ (i j : Nat) (hi : i < sorted.length) (hj : j < sorted.length), i ≤ j →
      sorted[i] ≤ sorted[j] := by
    intro i j hi hj hij
    rcases Nat.lt_or_eq_of_le hij with hlt | rfl
    · exact List.pairwise_iff_getElem.mp hsorted i j hi hj hlt
    · exact Nat.le_refl _
  refine ⟨hrank, List.getElem_mem hrank, ?_, ?_⟩
  · -- the samples from the rank on are not below the one there
    have hrest : (sorted.drop rank).countP (· < sorted[rank]) = 0 := by
      rw [List.countP_eq_zero]
      intro x hx
      obtain ⟨k, hk, rfl⟩ := List.getElem_of_mem hx
      rw [List.length_drop] at hk
      rw [List.getElem_drop, decide_eq_true_eq, Nat.not_lt]
      exact hle _ _ hrank (by omega) (by omega)
    have hfront : (sorted.take rank).countP (· < sorted[rank]) ≤ (sorted.take rank).length :=
      List.countP_le_length
    have hcut := congrArg (List.countP (· < sorted[rank])) (List.take_append_drop rank sorted)
    rw [List.countP_append] at hcut
    rw [List.length_take] at hfront
    omega
  · -- the samples up to the rank are not above it
    have hfront : (sorted.take (rank + 1)).countP (· ≤ sorted[rank]) =
        (sorted.take (rank + 1)).length := by
      rw [List.countP_eq_length]
      intro x hx
      obtain ⟨k, hk, rfl⟩ := List.getElem_of_mem hx
      rw [List.length_take] at hk
      rw [List.getElem_take, decide_eq_true_eq]
      exact hle _ _ (by omega) hrank (by omega)
    have hall : (sorted.take (rank + 1)).countP (· ≤ sorted[rank]) ≤
        sorted.countP (· ≤ sorted[rank]) := (List.take_sublist (rank + 1) sorted).countP_le
    rw [List.length_take] at hfront
    omega

theorem HasRank.perm {xs ys : List Nat} {rank v : Nat} (h : HasRank xs rank v) (hperm : xs.Perm ys) :
    HasRank ys rank v where
  rank_lt := hperm.length_eq ▸ h.rank_lt
  mem := hperm.mem_iff.mp h.mem
  below := hperm.countP_eq (· < v) ▸ h.below
  upTo := hperm.countP_eq (· ≤ v) ▸ h.upTo

/-- A larger rank is not that of a smaller value. -/
theorem HasRank.le {samples : List Nat} {rank later v w : Nat} (hv : HasRank samples rank v)
    (hw : HasRank samples later w) (h : rank ≤ later) : v ≤ w := by
  apply Nat.le_of_not_lt
  intro hlt
  have hcounts : samples.countP (· ≤ w) ≤ samples.countP (· < v) := by
    apply List.countP_mono_left
    intro x _ hx
    have hxw := of_decide_eq_true hx
    exact decide_eq_true (by omega)
  have hbelow := hv.below
  have hupTo := hw.upTo
  omega

theorem HasRank.unique {samples : List Nat} {rank v w : Nat} (hv : HasRank samples rank v)
    (hw : HasRank samples rank w) : v = w :=
  Nat.le_antisymm (hv.le hw (Nat.le_refl _)) (hw.le hv (Nat.le_refl _))

/-! ## Percentiles -/

/-- The index of a percentile in a machine word; none if the product before the division does not fit. -/
def wordRank? (count num den : Nat) : Option Nat :=
  if count * num < 2 ^ 64 then some (percentileRank count num den) else none

/-- Look a percentile up in sorted samples. -/
def percentileAt? (sorted : List Nat) (num den : Nat) : Option Nat := do
  let rank ← wordRank? sorted.length num den
  sorted[rank]?

/-- Sort samples where they stand and look three percentiles up, if there are samples. Gives these and the
samples as they are left, and nothing where an index does not fit a word or is past the end. -/
def takePercentiles? (samples : List Nat) : Option (Option Percentiles × List Nat) :=
  if samples.isEmpty then some (none, samples)
  else do
    let sorted := sortSamples samples
    let p50 ← percentileAt? sorted 1 2
    let p99 ← percentileAt? sorted 99 100
    let p999 ← percentileAt? sorted 999 1000
    pure (some ⟨p50, p99, p999⟩, sorted)

variable {samples : List Nat}

/-- A percentile is found, and it has its rank. -/
theorem percentileAt?_sortSamples (hsamples : samples ≠ []) (hcount : 1000 * samples.length < 2 ^ 64)
    {num den : Nat} (hfraction : num < den) (hden : den ≤ 1000) :
    ∃ v, percentileAt? (sortSamples samples) num den = some v ∧
      (sortSamples samples)[percentileRank (sortSamples samples).length num den]? = some v ∧
      HasRank samples (samples.length * num / den) v := by
  have hlength := length_sortSamples samples
  have hrank : percentileRank (sortSamples samples).length num den < (sortSamples samples).length :=
    percentileRank_lt (hlength ▸ List.length_pos_iff.mpr hsamples) hfraction
  have hfits : (sortSamples samples).length * num < 2 ^ 64 := by
    have := Nat.mul_le_mul_left samples.length (show num ≤ 1000 by omega)
    rw [hlength]
    omega
  have hfound := List.getElem?_eq_getElem hrank
  have hranked := (hasRank_getElem (pairwise_sortSamples samples) hrank).perm
    (sortSamples_perm samples)
  have hindex : percentileRank (sortSamples samples).length num den = samples.length * num / den := by
    rw [hlength]
    rfl
  refine ⟨_, ?_, hfound, hindex ▸ hranked⟩
  unfold percentileAt? wordRank?
  rw [if_pos hfits]
  exact hfound

/-- **Percentiles are the samples of their ranks.** Of samples in any order, not too many to count, none of
the three look-ups is past the end, and what they give is what `percentiles?` gives. Each percentile is a
sample; with `r` for the number of samples times its fraction, rounded down, at most `r` samples are below
it and at least `r + 1` are not above it. The percentiles are in order. The samples are left sorted, and
they are the ones there were; the same samples in any other order give the same. -/
theorem takePercentiles?_ranked (hsamples : samples ≠ []) (hcount : 1000 * samples.length < 2 ^ 64) :
    ∃ p sorted, takePercentiles? samples = some (some p, sorted) ∧ percentiles? samples = some p ∧
      HasRank samples (samples.length * 1 / 2) p.p50 ∧
      HasRank samples (samples.length * 99 / 100) p.p99 ∧
      HasRank samples (samples.length * 999 / 1000) p.p999 ∧
      p.p50 ≤ p.p99 ∧ p.p99 ≤ p.p999 ∧
      sorted.Pairwise (· ≤ ·) ∧ sorted.Perm samples ∧
      ∀ other, other.Perm samples → takePercentiles? other = some (some p, sorted) := by
  obtain ⟨p50, hp50, hfound50, hrank50⟩ :=
    percentileAt?_sortSamples hsamples hcount (show 1 < 2 by decide) (by decide)
  obtain ⟨p99, hp99, hfound99, hrank99⟩ :=
    percentileAt?_sortSamples hsamples hcount (show 99 < 100 by decide) (by decide)
  obtain ⟨p999, hp999, hfound999, hrank999⟩ :=
    percentileAt?_sortSamples hsamples hcount (show 999 < 1000 by decide) (by decide)
  have hall : ∀ other, other.Perm samples →
      takePercentiles? other = some (some ⟨p50, p99, p999⟩, sortSamples samples) := by
    intro other hother
    have hnonempty : other.isEmpty = false := by
      rw [List.isEmpty_eq_false_iff]
      intro hempty
      rw [hempty] at hother
      exact hsamples hother.nil_eq.symm
    unfold takePercentiles?
    rw [hnonempty, sortSamples_eq_of_perm hother]
    dsimp only
    rw [hp50, hp99, hp999]
    rfl
  have hsame : percentiles? samples = some ⟨p50, p99, p999⟩ := by
    unfold percentiles?
    dsimp only
    rw [hfound50, hfound99, hfound999]
  exact ⟨⟨p50, p99, p999⟩, sortSamples samples, hall samples (List.Perm.refl _), hsame, hrank50, hrank99,
    hrank999, hrank50.le hrank99 (by omega), hrank99.le hrank999 (by omega), pairwise_sortSamples samples,
    sortSamples_perm samples, hall⟩

/-- Four samples, two of them equal: the median is the third in order, the others are the last. -/
theorem takePercentiles?_ranked_four :
    takePercentiles? [9, 3, 7, 3] = some (some ⟨7, 9, 9⟩, [3, 3, 7, 9]) := by
  obtain ⟨p, sorted, htaken, -, hrank50, hrank99, hrank999, -, -, hsorted, hperm, -⟩ :=
    @takePercentiles?_ranked [9, 3, 7, 3] (by decide) (by decide)
  have h7 : HasRank [9, 3, 7, 3] 2 7 := ⟨by decide, by decide, by decide, by decide⟩
  have h9 : HasRank [9, 3, 7, 3] 3 9 := ⟨by decide, by decide, by decide, by decide⟩
  have hp : p = ⟨7, 9, 9⟩ := by
    cases p
    cases hrank50.unique h7
    cases hrank99.unique h9
    cases hrank999.unique h9
    rfl
  have hlist : sorted = [3, 3, 7, 9] :=
    eq_of_perm_of_pairwise hsorted (by decide) (hperm.trans (by decide))
  rw [htaken, hp, hlist]

end EchoLoad
