import EchoLoad.Random.Layers
import EchoLoad.Random.Source

/-!
# Exponentially distributed numbers

A number with density `exp (-x)` is drawn by picking one of 256 layers of equal area and a point in
it. Nearly always the point lies where the whole layer is under the curve and is taken at once;
otherwise it is compared with the curve, and in the lowest layer it comes from the tail.
-/

namespace EchoLoad.Random

namespace Draw

/-- A number of `[0, 1)` with 53 random bits. -/
def unit : Draw Float := do
  let w ← word64
  pure ((w >>> 11).toFloat * (1.0 / 9007199254740992.0))

/-- A number of the open interval from 0 to 1, with the high 52 bits of a word. -/
def openUnit (w : UInt64) : Float :=
  Float.ofBits ((w >>> 12) ||| 0x3ff0000000000000) - (1.0 - 1.0 / 9007199254740992.0)

/-- One point of a layer, if it lies under the curve. -/
def exponentialTrial : Draw (Option Float) := do
  let w ← word64
  let i := w.toNat % 256
  let x := openUnit w * Exponential.edge i
  if x < Exponential.edge (i + 1) then pure (some x)
  else if i = 0 then do
    let f ← unit
    pure (some (Exponential.tailStart - f.log))
  else do
    let f ← unit
    let low := Exponential.height (i + 1)
    let high := Exponential.height i
    pure (if low + (high - low) * f < Float.exp (-x) then some x else none)

/-- A number with density `exp (-x)`. -/
def exponential : Draw Float := retry exponentialTrial

end Draw

end EchoLoad.Random
