/-!
# Ticks

Time is counted in ticks of a nanosecond. A message carries only the low 32 bits of the tick at which
it was issued, so the time it took is known modulo `2 ^ 32` ticks, about four seconds.
-/

namespace EchoLoad

/-- Ticks from a stamped issue time to `finish`, modulo `2 ^ 32`. -/
def elapsedTicks (issue finish : UInt32) : UInt32 := finish - issue

/-- A count of at most 64 bits as the nearest double. -/
def countToDouble (n : Nat) : Float := (UInt64.ofNat n).toFloat

/-- Ticks in microseconds. -/
def ticksToMicros (ticks : Nat) : Float := countToDouble ticks / 1000.0

/-- Ticks in seconds. -/
def ticksToSeconds (ticks : Nat) : Float := countToDouble ticks / 1e9

end EchoLoad
