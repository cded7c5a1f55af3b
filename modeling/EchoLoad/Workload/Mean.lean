import EchoLoad.Workload.Basic

/-!
# Mean lengths

The mean length of a workload when lengths above a cap are cut to the cap. For a uniform workload the
mean is a closed form with three cases: the cap is above all lengths, below all of them, or among
them. The form is written for any arithmetic, so that it can be read over doubles, as a running
program does, and over exact numbers.
-/

namespace EchoLoad.Workload

/-- The mean of `min v cap` over the whole numbers `v` from `low` to `high`, in an arithmetic that
whole numbers are taken into by `of`. -/
def uniformMean [Add α] [Sub α] [Mul α] [Div α] (of : Int → α) (low high cap : Int) : α :=
  if high ≤ cap then (of low + of high) / of 2
  else if cap ≤ low then of cap
  else
    let below := (of low + of cap) * (of cap - of low + of 1) / of 2
    let above := (of high - of cap) * of cap
    (below + above) / (of high - of low + of 1)

/-- The smallest cap is one byte. -/
def effectiveCap (cap : Int32) : Int := max cap.toInt 1

/-- The mean length of a workload when lengths above the cap are cut to it. -/
def mean (w : Workload) (cap : Int32) : Float :=
  let cap := effectiveCap cap
  match w with
  | fixed n => Float.ofInt (min n.toInt cap)
  | uniform low high => uniformMean Float.ofInt low.toInt high.toInt cap
  | exponential mean => mean * (1.0 - (-(Float.ofInt cap) / mean).exp)

end EchoLoad.Workload
