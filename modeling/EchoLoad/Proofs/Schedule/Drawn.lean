import EchoLoad.Proofs.Random.Ranges
import EchoLoad.Schedule.Sequences

/-!
# What the sequences of a port hold

The sequences are drawn before a port starts, and nothing checks them afterwards. So what a sender relies
on has to hold of what is drawn:

> `Sequences.gives_drawFrom`: there are as many servers and lengths as there should be, the servers are
> those of the port, the lengths those of the workload, and there is a gap to go on with.

That a workload has lengths at all was checked when its name was read (`Workload.isProper_ofName`).
-/

namespace EchoLoad

open EchoLoad.Random EchoLoad.Random.Drawing

/-! ## Workloads -/

namespace Workload

/-- There are lengths of this kind, of a byte or more. -/
def IsProper : Workload → Prop
  | fixed n => 1 ≤ n.toInt
  | uniform low high => 1 ≤ low.toInt ∧ low ≤ high
  | exponential mean => isPositiveFinite mean = true

instance : DecidablePred IsProper
  | fixed n => inferInstanceAs (Decidable (1 ≤ n.toInt))
  | uniform low high => inferInstanceAs (Decidable (1 ≤ low.toInt ∧ low ≤ high))
  | exponential mean => inferInstanceAs (Decidable (isPositiveFinite mean = true))

/-- A name is only read as a workload that has lengths. -/
theorem isProper_ofName {name : String} {w : Workload} (h : ofName name = .ok w) : w.IsProper := by
  have hzero : (0 : Int32).toInt = 0 := rfl
  have hpositive {n : Int32} (hn : ¬ n ≤ 0) : 1 ≤ n.toInt := by
    have := mt Int32.le_iff_toInt_le.mpr hn
    omega
  unfold ofName at h
  split at h
  next n hn =>
    split at h
    next => cases h
    next hlow =>
      cases h
      exact hpositive hlow
  next =>
    split at h
    next low high hfields =>
      split at h
      next => cases h
      next => cases h
      next l u hl hu =>
        split at h
        next => cases h
        next hbounds =>
          cases h
          obtain ⟨hlow, hhigh⟩ := not_or.mp hbounds
          exact ⟨hpositive hlow, Int32.not_lt.mp hhigh⟩
    next mean hfields =>
      split at h
      next => cases h
      next x hx =>
        split at h
        next hmean =>
          cases h
          exact hmean
        next => cases h
    next => cases h

/-- The lengths that a workload allows. -/
def Admits : Workload → Int32 → Prop
  | fixed n, length => length = n
  | uniform low high, length => low ≤ length ∧ length ≤ high
  | exponential _, length => 1 ≤ length.toInt

theorem Admits.one_le {w : Workload} (hw : w.IsProper) {n : Int32} (h : w.Admits n) :
    1 ≤ n.toInt := by
  cases w with
  | fixed length =>
    rw [h]
    exact hw
  | uniform low high => exact Int.le_trans hw.1 (Int32.le_iff_toInt_le.mp h.1)
  | exponential mean => exact h

variable {σ : Type} {supply : Supply σ}

/-- Lengths are drawn from those of the workload. -/
theorem gives_drawFrom (h : supply.InRange) {w : Workload} (hw : w.IsProper) :
    (w.drawFrom supply).Gives w.Admits := by
  cases w with
  | fixed n => exact gives_pure rfl
  | uniform low high => exact h.between low high hw.2
  | exponential mean =>
    refine (gives_any _).bind fun x _ => gives_pure ?_
    have hlongest : longest = 2147483647 := rfl
    have hmem : 1 ≤ ceilWithin 1 longest (x * mean) ∧ ceilWithin 1 longest (x * mean) ≤ longest :=
      ceilWithin_mem (by decide) _
    show 1 ≤ (Int32.ofNat _).toInt
    rw [Int32.toInt_ofNat_of_lt (by omega)]
    omega

theorem returns_drawFrom (h : supply.Lasting) {w : Workload} (hw : w.IsProper) :
    (w.drawFrom supply).Returns := by
  cases w with
  | fixed n => exact returns_pure n
  | uniform low high => exact h.between low high hw.2
  | exponential mean => exact h.exponential.bind fun x => returns_pure _

end Workload

/-! ## Sequences -/

namespace Sequences

/-- The sequences of a port with so many servers and a workload. -/
structure Drawn (servers : Nat) (w : Workload) (s : Sequences) : Prop where
  servers_length : s.servers.length = 4729
  servers_lt : ∀ server ∈ s.servers, server < servers
  lengths_length : s.lengths.length = 7207
  lengths_one_le : ∀ n ∈ s.lengths, 1 ≤ n.toInt
  lengths_admitted : ∀ n ∈ s.lengths, w.Admits n
  intervals_ne : s.intervals ≠ []

variable {σ : Type} {supply : Supply σ}

theorem gives_drawIntervals (supply : Supply σ) (rate : Option Float) :
    (drawIntervals supply rate).Gives (· ≠ []) := by
  cases rate with
  | none => exact gives_pure (by simp)
  | some rate =>
    unfold drawIntervals
    dsimp only
    split
    · refine ((gives_any _).times intervalCount).imp fun gaps hgaps hnone => ?_
      have hlength := hgaps.1
      rw [hnone] at hlength
      cases hlength
    · exact gives_pure (by simp)

theorem returns_drawIntervals (h : supply.Lasting) (rate : Option Float) :
    (drawIntervals supply rate).Returns := by
  cases rate with
  | none => exact returns_pure [0]
  | some rate =>
    unfold drawIntervals
    dsimp only
    split
    · exact (h.exponential.bind fun x => returns_pure _).times intervalCount
    · exact returns_pure [0]

theorem gives_drawFrom (h : supply.InRange) {servers : Nat} (hservers : 1 ≤ servers) {w : Workload}
    (hw : w.IsProper) (rate : Option Float) :
    (drawFrom supply servers w rate).Gives (Drawn servers w) := by
  have hrange : max servers 1 = servers := Nat.max_eq_left hservers
  unfold drawFrom
  rw [hrange]
  refine ((h.below servers hservers).times serverCount).bind fun chosen hchosen => ?_
  refine ((Workload.gives_drawFrom h hw).times lengthCount).bind fun lengths hlengths => ?_
  refine (gives_drawIntervals supply rate).bind fun gaps hgaps => gives_pure ?_
  exact ⟨hchosen.1, hchosen.2, hlengths.1, fun n hn => (hlengths.2 n hn).one_le hw, hlengths.2, hgaps⟩

theorem returns_drawFrom (h : supply.Lasting) (servers : Nat) {w : Workload} (hw : w.IsProper)
    (rate : Option Float) : (drawFrom supply servers w rate).Returns := by
  refine ((h.below (max servers 1) (by omega)).times serverCount).bind fun chosen => ?_
  refine ((Workload.returns_drawFrom h hw).times lengthCount).bind fun lengths => ?_
  exact (returns_drawIntervals h rate).bind fun gaps => returns_pure _

end Sequences

end EchoLoad
