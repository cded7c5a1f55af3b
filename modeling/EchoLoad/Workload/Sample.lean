import EchoLoad.Decimal.Double
import EchoLoad.Random.Supply
import EchoLoad.Workload.Basic

/-!
# Drawing lengths

Lengths of requests, drawn from a workload. Every length drawn is at least one byte, and fits a
signed 32-bit number.
-/

namespace EchoLoad

/-- A double rounded up to a whole number and moved into a range. -/
def ceilWithin (low high : Nat) (x : Float) : Nat :=
  match Decimal.Reading.ofDouble x with
  | .nan => low
  | .infinite negative => if negative then low else high
  | .finite negative d =>
    if negative then low
    else
      let (num, den) := d.fraction
      max low (min high ((num + den - 1) / den))

theorem ceilWithin_mem {low high : Nat} (h : low ≤ high) (x : Float) :
    low ≤ ceilWithin low high x ∧ ceilWithin low high x ≤ high := by
  unfold ceilWithin
  split
  · exact ⟨Nat.le_refl _, h⟩
  · split
    · exact ⟨Nat.le_refl _, h⟩
    · exact ⟨h, Nat.le_refl _⟩
  · split
    · exact ⟨Nat.le_refl _, h⟩
    · dsimp only
      omega

/-- A double rounded down to a whole number, negative ones to zero, and at most `high`. -/
def floorWithin (high : Nat) (x : Float) : Nat :=
  match Decimal.Reading.ofDouble x with
  | .nan => 0
  | .infinite negative => if negative then 0 else high
  | .finite negative d =>
    if negative then 0
    else
      let (num, den) := d.fraction
      min high (num / den)

namespace Workload

/-- The longest length there is. -/
def longest : Nat := Nat.pow 2 31 - 1

/-- Draw one length. -/
def drawFrom (supply : Random.Supply σ) : Workload → Random.Drawing σ Int32
  | fixed n => pure n
  | uniform low high => supply.between low high
  | exponential mean => do
    let x ← supply.exponential
    pure (Int32.ofNat (ceilWithin 1 longest (x * mean)))

/-- Draw so many lengths. -/
def sampleFrom (supply : Random.Supply σ) (w : Workload) (count : Nat) :
    Random.Drawing σ (List Int32) :=
  .times count (w.drawFrom supply)

/-- Draw so many lengths from a source of words. -/
def sample (w : Workload) (count : Nat) : Random.Draw (List Int32) := w.sampleFrom .source count

end Workload

end EchoLoad
