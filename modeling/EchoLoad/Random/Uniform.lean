import EchoLoad.Random.Source

/-!
# Uniform whole numbers

A number below `range` is the high half of the product of a random word and `range`. To make all
numbers equally likely, products whose low half is above a bound are rejected: what is left of the
low halves is a multiple of `range`.
-/

namespace EchoLoad.Random

/-- The largest low half that is accepted, for words of `width` bits. -/
def zone (width range : Nat) : Nat := range * Nat.pow 2 (width - 1 - range.log2) - 1

/-- The number that a word stands for, if it is accepted. -/
def scale? (width range word : Nat) : Option Nat :=
  let product := word * range
  if product % Nat.pow 2 width ≤ zone width range then some (product / Nat.pow 2 width) else none

/-- A scaled word lies in the range. -/
theorem scale?_lt {width range word n : Nat} (hr : 0 < range) (hw : word < Nat.pow 2 width)
    (h : scale? width range word = some n) : n < range := by
  unfold scale? at h
  dsimp only at h
  split at h
  · cases h
    exact Nat.div_lt_of_lt_mul (Nat.mul_lt_mul_of_pos_right hw hr)
  · cases h

namespace Draw

/-- A number below `range`, from 32-bit words. -/
def below32 (range : Nat) : Draw Nat :=
  retry do
    let w ← word32
    pure (scale? 32 range w.toNat)

/-- A number below `range`, from 64-bit words. -/
def below64 (range : Nat) : Draw Nat :=
  retry do
    let w ← word64
    pure (scale? 64 range w.toNat)

/-- A length from `low` to `high`, both included. -/
def between (low high : Int32) : Draw Int32 := do
  let offset ← below32 (high.toInt - low.toInt + 1).toNat
  pure (Int32.ofInt (low.toInt + offset))

end Draw

end EchoLoad.Random
