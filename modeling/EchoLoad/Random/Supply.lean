import EchoLoad.Random.Exponential
import EchoLoad.Random.Uniform

/-!
# What requests are drawn from

To draw requests takes uniformly distributed numbers and exponentially distributed ones. A `Supply` gives
them, whatever state it keeps to that end; `Supply.source` makes them from the words of a source.
-/

namespace EchoLoad.Random

/-- Numbers drawn from a state. -/
structure Supply (σ : Type) where
  /-- a number below a bound, each equally likely -/
  below : Nat → Drawing σ Nat
  /-- a length between two bounds, both included, each equally likely -/
  between : Int32 → Int32 → Drawing σ Int32
  /-- a number with density `exp (-x)` -/
  exponential : Drawing σ Float

/-- The numbers that the words of a source stand for. -/
def Supply.source : Supply Source := ⟨Draw.below64, Draw.between, Draw.exponential⟩

end EchoLoad.Random
