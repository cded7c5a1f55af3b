import EchoLoad.Workload.Sample

/-!
# Request sequences

The parameters of requests are drawn in advance into three sequences: the servers, the lengths, and
the gaps between issue times in ticks (nanoseconds). A sender goes round each of them on its own.
Their sizes are different primes, so it takes long for a combination to come back.

The sequences are drawn one after the other, the servers first, the gaps last. So the servers do not
depend on the workload, and neither servers nor lengths depend on the rate.
-/

namespace EchoLoad

/-- The parameters of the requests of one port. -/
structure Sequences where
  servers : List Nat
  lengths : List Int32
  /-- gaps between issue times, in ticks -/
  intervals : List Nat
deriving DecidableEq, Repr

/-- A length raised to that of a header, and then cut to `limit`; says whether it was cut. -/
def clampLength (length limit : Int32) : Int32 × Bool :=
  let length := if length < 16 then 16 else length
  if limit < length then (limit, true) else (length, false)

/-- A limit below sixteen wins over the length of a header. -/
theorem toInt_clampLength (length limit : Int32) :
    (clampLength length limit).1.toInt = min (max 16 length.toInt) limit.toInt := by
  have h16 : (16 : Int32).toInt = 16 := rfl
  have hraised : (if length < 16 then 16 else length).toInt = max 16 length.toInt := by
    by_cases hshort : length < 16
    · have := Int32.lt_iff_toInt_lt.mp hshort
      rw [if_pos hshort]
      omega
    · have := mt Int32.lt_iff_toInt_lt.mpr hshort
      rw [if_neg hshort]
      omega
  unfold clampLength
  dsimp only
  by_cases hcut : limit < if length < 16 then 16 else length
  · have := Int32.lt_iff_toInt_lt.mp hcut
    rw [if_pos hcut]
    show limit.toInt = _
    omega
  · have := mt Int32.lt_iff_toInt_lt.mpr hcut
    rw [if_neg hcut]
    show (if length < 16 then 16 else length).toInt = _
    omega

/-- Raised to sixteen at last, it is of no account that a limit below sixteen wins. -/
theorem max_clampLength (length limit : Int32) :
    max 16 (clampLength length limit).1.toInt = max 16 (min length.toInt limit.toInt) := by
  rw [toInt_clampLength]
  omega

namespace Sequences

def serverCount : Nat := 4729
def lengthCount : Nat := 7207
def intervalCount : Nat := 8783

/-- One gap at a rate of `rate` requests in a second. -/
def drawInterval (supply : Random.Supply σ) (rate : Float) : Random.Drawing σ Nat := do
  let x ← supply.exponential
  pure (floorWithin (UInt64.size - 1) (x * (1.0 / rate) * 1e9))

/-- The gaps: exponentially distributed at a positive rate, and none to wait otherwise. -/
def drawIntervals (supply : Random.Supply σ) (rate : Option Float) : Random.Drawing σ (List Nat) :=
  match rate with
  | none => pure [0]
  | some rate => if rate > 0.0 then .times intervalCount (drawInterval supply rate) else pure [0]

/-- Draw the sequences of a port that spreads its requests over so many servers. Without a rate, or
with one that is not positive, requests follow each other at once. -/
def drawFrom (supply : Random.Supply σ) (servers : Nat) (w : Workload) (rate : Option Float) :
    Random.Drawing σ Sequences := do
  let chosen ← .times serverCount (supply.below (max servers 1))
  let lengths ← w.sampleFrom supply lengthCount
  let intervals ← drawIntervals supply rate
  pure ⟨chosen, lengths, intervals⟩

/-- Draw the sequences of a port from a source of words. -/
def draw (servers : Nat) (w : Workload) (rate : Option Float) : Random.Draw Sequences :=
  drawFrom .source servers w rate

/-- The lengths as they are sent, clamped to `limit`. -/
def clampedLengths (s : Sequences) (limit : Int32) : List Int32 :=
  s.lengths.map fun n => (clampLength n limit).1

/-- The mean of the clamped lengths. The sum starts at negative zero, which is neutral for addition. -/
def averageLength (s : Sequences) (limit : Int32) : Float :=
  let total := (s.clampedLengths limit).foldl (fun sum n => sum + Float.ofInt n.toInt) (-0.0)
  total / Float.ofNat (max s.lengths.length 1)

end Sequences

end EchoLoad
