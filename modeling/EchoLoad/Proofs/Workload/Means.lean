import EchoLoad.Proofs.Schedule.Drawn
import EchoLoad.Workload.Mean
import Mathlib.Algebra.Order.BigOperators.Group.Finset
import Mathlib.Algebra.Order.Interval.Finset.SuccPred
import Mathlib.Data.Int.ConditionallyCompleteOrder
import Mathlib.Data.Int.Interval
import Mathlib.Data.Int.SuccPred
import Mathlib.Tactic.Linarith
import Mathlib.Tactic.Ring

/-!
# Mean lengths over exact numbers

`mean` calculates with doubles, and its cases with whole numbers. Here the same form is read over
fractions, so that nothing is rounded, and compared with the sum that it stands for:

> `exactMean_eq_average`: a mean is the average of the lengths as they are cut to the cap.

An average of cut lengths is at most the cap and does not fall when the cap grows. None of the three
cases has to be looked at for that.
-/

namespace EchoLoad.Workload

/-- The mean of a workload of whole lengths, in any arithmetic. The exponential workload has no such
mean: there is no exponential function of fractions. -/
def meanIn [Add α] [Sub α] [Mul α] [Div α] (of : Int → α) (w : Workload) (cap : Int32) : Option α :=
  match w with
  | fixed n => some (of (min n.toInt (effectiveCap cap)))
  | uniform low high => some (uniformMean of low.toInt high.toInt (effectiveCap cap))
  | exponential _ => none

/-- In the arithmetic of doubles it is the mean that the program calculates. -/
theorem meanIn_ofInt {w : Workload} (hw : ∀ mean, w ≠ exponential mean) (cap : Int32) :
    w.meanIn Float.ofInt cap = some (w.mean cap) := by
  cases w with
  | fixed n => rfl
  | uniform low high => rfl
  | exponential mean => exact absurd rfl (hw mean)

/-- The mean over fractions. -/
def exactMean (w : Workload) (cap : Int32) : Option ℚ := w.meanIn Int.cast cap

/-! ## Sums of cut lengths -/

/-- The sum of the lengths from `low` to `high`, each cut to the cap. -/
noncomputable def cutSum (low high cap : ℤ) : ℚ := ∑ v ∈ Finset.Icc low high, ((min v cap : ℤ) : ℚ)

theorem cutSum_self (low cap : ℤ) : cutSum low low cap = ((min low cap : ℤ) : ℚ) := by
  rw [cutSum, Finset.Icc_self, Finset.sum_singleton]

theorem cutSum_add_one {low high : ℤ} (h : low ≤ high + 1) (cap : ℤ) :
    cutSum low (high + 1) cap = ((min (high + 1) cap : ℤ) : ℚ) + cutSum low high cap := by
  have hnot : high + 1 ∉ Finset.Icc low high := by
    rw [Finset.mem_Icc]
    omega
  rw [cutSum, ← Finset.insert_Icc_right_eq_Icc_add_one h, Finset.sum_insert hnot, cutSum]

/-- Below the cap nothing is cut: the sum is that of consecutive numbers. -/
theorem two_mul_cutSum_of_le_cap {low high : ℤ} (hle : low ≤ high) (cap : ℤ) (hcap : high ≤ cap) :
    2 * cutSum low high cap = (low + high) * (high - low + 1) := by
  -- twice the sum, as the largest length grows by one: no half stands in the way of the induction
  induction high, hle using Int.leInduction with
  | base =>
    rw [cutSum_self, min_eq_left hcap]
    ring
  | succ high hle ih =>
    rw [cutSum_add_one (by omega), mul_add, ih (by omega), min_eq_left hcap]
    push_cast
    ring

/-- From the cap on each length adds the cap to the sum. -/
theorem cutSum_add_cut {low base high cap : ℤ} (hlow : low ≤ base) (hcap : cap ≤ base)
    (hhigh : base ≤ high) : cutSum low high cap = cutSum low base cap + cap * (high - base) := by
  induction high, hhigh using Int.leInduction with
  | base => ring
  | succ high hle ih =>
    rw [cutSum_add_one (by omega), ih, min_eq_right (by omega)]
    push_cast
    ring

/-! ## The three cases -/

/-- How many lengths there are. -/
theorem count_pos {low high : ℤ} (hle : low ≤ high) : (0 : ℚ) < high - low + 1 := by
  have : (low : ℚ) ≤ high := Int.cast_le.mpr hle
  linarith

theorem average_of_le_cap {low high cap : ℤ} (hle : low ≤ high) (hcap : high ≤ cap) :
    cutSum low high cap / (high - low + 1) = (low + high) / 2 := by
  have hsum := two_mul_cutSum_of_le_cap hle cap hcap
  rw [div_eq_div_iff (count_pos hle).ne' two_ne_zero, mul_comm, hsum]

theorem average_of_cap_le {low high cap : ℤ} (hle : low ≤ high) (hcap : cap ≤ low) :
    cutSum low high cap / (high - low + 1) = cap := by
  have hsum : cutSum low high cap = cap * (high - low + 1) := by
    rw [cutSum_add_cut le_rfl hcap hle, cutSum_self, min_eq_right hcap]
    ring
  rw [hsum, mul_div_cancel_right₀ _ (count_pos hle).ne']

/-- The lengths up to the cap are not cut, and those above it are. -/
theorem average_of_cap_mem {low high cap : ℤ} (hlow : low ≤ cap) (hhigh : cap ≤ high) :
    cutSum low high cap / (high - low + 1) =
      ((low + cap) * (cap - low + 1) / 2 + (high - cap) * cap) / (high - low + 1) := by
  have hbelow := two_mul_cutSum_of_le_cap hlow cap le_rfl
  rw [cutSum_add_cut hlow le_rfl hhigh, ← hbelow, mul_div_cancel_left₀ _ two_ne_zero,
    mul_comm (cap : ℚ)]

/-- A mean over fractions is the average of the lengths as they are cut. -/
theorem uniformMean_eq_average {low high : ℤ} (hle : low ≤ high) (cap : ℤ) :
    uniformMean Int.cast low high cap = cutSum low high cap / (high - low + 1) := by
  unfold uniformMean
  split
  next habove =>
    rw [average_of_le_cap hle habove]
    norm_cast
  next habove =>
    split
    next hbelow => rw [average_of_cap_le hle hbelow]
    next hbelow =>
      rw [average_of_cap_mem (by omega) (by omega)]
      push_cast
      rfl

/-! ## What holds of every average -/

theorem average_mono {low high : ℤ} (hle : low ≤ high) {cap cap' : ℤ} (hcap : cap ≤ cap') :
    cutSum low high cap / (high - low + 1) ≤ cutSum low high cap' / (high - low + 1) := by
  have hsum : cutSum low high cap ≤ cutSum low high cap' :=
    Finset.sum_le_sum fun v _ => Int.cast_le.mpr (min_le_min_left v hcap)
  exact div_le_div_of_nonneg_right hsum (count_pos hle).le

theorem average_le_cap {low high : ℤ} (hle : low ≤ high) (cap : ℤ) :
    cutSum low high cap / (high - low + 1) ≤ cap := by
  have hcard : ((Finset.Icc low high).card : ℚ) = high - low + 1 := by
    have := Int.card_Icc_of_le low high (by omega)
    rw [← Int.cast_natCast, this]
    push_cast
    ring
  -- no term is above the cap, whichever of the three cases it is in
  have hsum : cutSum low high cap ≤ (Finset.Icc low high).card • (cap : ℚ) :=
    Finset.sum_le_card_nsmul _ _ _ fun v _ => Int.cast_le.mpr (min_le_right v cap)
  rw [nsmul_eq_mul, hcard] at hsum
  rwa [div_le_iff₀ (count_pos hle), mul_comm]

theorem effectiveCap_mono {cap cap' : Int32} (h : cap ≤ cap') : effectiveCap cap ≤ effectiveCap cap' :=
  max_le_max_right 1 (Int32.le_iff_toInt_le.mp h)

theorem exactMean_uniform {low high : Int32} (hle : low ≤ high) (cap : Int32) :
    (uniform low high).exactMean cap =
      some (cutSum low.toInt high.toInt (effectiveCap cap) / (high.toInt - low.toInt + 1)) :=
  congrArg some (uniformMean_eq_average (Int32.le_iff_toInt_le.mp hle) _)

theorem exactMean_mono {w : Workload} (hw : w.IsProper) {cap cap' : Int32} (hcap : cap ≤ cap')
    {x x' : ℚ} (hx : w.exactMean cap = some x) (hx' : w.exactMean cap' = some x') : x ≤ x' := by
  have heffective := effectiveCap_mono hcap
  cases w with
  | fixed n =>
    cases hx
    cases hx'
    exact Int.cast_le.mpr (min_le_min_left _ heffective)
  | uniform low high =>
    rw [exactMean_uniform hw.2] at hx hx'
    cases hx
    cases hx'
    exact average_mono (Int32.le_iff_toInt_le.mp hw.2) heffective
  | exponential mean => cases hx

theorem exactMean_le_cap {w : Workload} (hw : w.IsProper) {cap : Int32} {x : ℚ}
    (hx : w.exactMean cap = some x) : x ≤ effectiveCap cap := by
  cases w with
  | fixed n =>
    cases hx
    exact Int.cast_le.mpr (min_le_right _ _)
  | uniform low high =>
    rw [exactMean_uniform hw.2] at hx
    cases hx
    exact average_le_cap (Int32.le_iff_toInt_le.mp hw.2) _
  | exponential mean => cases hx

/-- **A mean over exact numbers is the average of the lengths as they are cut to the cap.** So it does
not fall when the cap grows and is never above the cap. Where two cases meet, both of their forms give
it: each form holds up to and with the caps at which the next begins. -/
theorem exactMean_eq_average :
    (∀ w : Workload, (∀ mean, w ≠ exponential mean) → ∀ cap,
      w.meanIn Float.ofInt cap = some (w.mean cap)) ∧
    (∀ n : Int32, 0 < n → ∀ cap : Int32,
      (fixed n).exactMean cap = some ((min n.toInt (max cap.toInt 1) : ℤ) : ℚ)) ∧
    (∀ low high : Int32, 0 < low → low ≤ high → ∀ cap : Int32,
      (uniform low high).exactMean cap =
        some (1 / (high.toInt - low.toInt + 1) *
          ∑ v ∈ Finset.Icc low.toInt high.toInt, ((min v (max cap.toInt 1) : ℤ) : ℚ))) ∧
    (∀ w : Workload, w.IsProper → ∀ cap cap' : Int32, cap ≤ cap' → ∀ x x',
      w.exactMean cap = some x → w.exactMean cap' = some x' → x ≤ x') ∧
    (∀ w : Workload, w.IsProper → ∀ (cap : Int32) (x : ℚ),
      w.exactMean cap = some x → x ≤ ((max cap.toInt 1 : ℤ) : ℚ)) ∧
    ∀ low high cap : ℤ, low ≤ high →
      (high ≤ cap → uniformMean Int.cast low high cap = ((low + high) / 2 : ℚ)) ∧
      (cap ≤ low → uniformMean Int.cast low high cap = (cap : ℚ)) ∧
      (low ≤ cap → cap ≤ high → uniformMean Int.cast low high cap =
        (((low + cap) * (cap - low + 1) / 2 + (high - cap) * cap) / (high - low + 1) : ℚ)) := by
  refine ⟨?_, ?_, ?_, ?_, ?_, ?_⟩
  · exact fun w hw cap => meanIn_ofInt hw cap
  · intro n _ cap
    rfl
  · intro low high _ hle cap
    rw [exactMean_uniform hle, div_eq_mul_one_div, mul_comm]
    rfl
  · exact fun w hw cap cap' hcap x x' hx hx' => exactMean_mono hw hcap hx hx'
  · exact fun w hw cap x hx => exactMean_le_cap hw hx
  · intro low high cap hle
    rw [uniformMean_eq_average hle]
    exact ⟨average_of_le_cap hle, average_of_cap_le hle, average_of_cap_mem⟩

/-- The lengths from one to four: cut to two, three of them are two; cut to four, none is changed. -/
theorem exactMean_one_to_four :
    (fixed 500).exactMean 100 = some 100 ∧ (uniform 1 4).exactMean 2 = some (7 / 4) ∧
      (uniform 1 4).exactMean 4 = some (5 / 2) ∧ (7 / 4 : ℚ) ≤ 5 / 2 ∧ (5 / 2 : ℚ) ≤ 4 := by
  obtain ⟨-, hfixed, huniform, hmono, hcap, -⟩ := exactMean_eq_average
  have hproper : (uniform 1 4).IsProper := by decide
  have htwo : (uniform 1 4).exactMean 2 = some (7 / 4) := by
    rw [huniform 1 4 (by decide) (by decide)]
    decide +kernel
  have hfour : (uniform 1 4).exactMean 4 = some (5 / 2) := by
    rw [huniform 1 4 (by decide) (by decide)]
    decide +kernel
  exact ⟨hfixed 500 (by decide) 100, htwo, hfour, hmono _ hproper 2 4 (by decide) _ _ htwo hfour,
    hcap _ hproper 4 _ hfour⟩

end EchoLoad.Workload
