import EchoLoad.Random.ChaCha

/-!
# Sources of random words

Everything random is drawn from a `Source`: a seeded generator, or a list of words written down in
advance. A `Draw` takes words from a source and hands the rest on; it fails only if a written list
runs out. `Draw.retry` draws again until a draw is accepted. `Drawing` is the same over any kind of
source.
-/

namespace EchoLoad.Random

/-- Where random words come from. -/
inductive Source
  | seeded (generator : ChaCha)
  | written (words : List UInt64)
deriving DecidableEq, Repr

/-- A computation that draws from a state; it fails where nothing can be drawn any more. -/
abbrev Drawing (σ : Type) := StateT σ Option

/-- A computation that takes words from a source; it fails when there are none left. -/
abbrev Draw := Drawing Source

namespace Source

/-- The source that belongs to a seed. -/
def ofSeed (seed : UInt64) : Source := .seeded (.ofSeed seed)

/-- The next 32 bits. Of a written word these are the low ones. -/
def next32 : Source → Option (UInt32 × Source)
  | seeded g => let (w, g) := g.next; some (w, .seeded g)
  | written [] => none
  | written (w :: rest) => some (w.toUInt32, .written rest)

/-- The next 64 bits. A generator gives the low half first. -/
def next64 : Source → Option (UInt64 × Source)
  | seeded g =>
    let (low, g) := g.next
    let (high, g) := g.next
    some (low.toUInt64 ||| (high.toUInt64 <<< 32), .seeded g)
  | written [] => none
  | written (w :: rest) => some (w, .written rest)

/-- How often a rejected draw is repeated. A written source runs out earlier; from a generator every
draw is accepted with a chance above one half, so that this bound is never met. -/
def patience : Source → Nat
  | seeded _ => 4096
  | written words => words.length + 1

end Source

namespace Draw

def word32 : Draw UInt32 := Source.next32

def word64 : Draw UInt64 := Source.next64

/-- Repeat a draw until it is accepted, at most so many times. -/
def retryAtMost (draw : Draw (Option α)) : Nat → Draw α
  | 0 => fun _ => none
  | n + 1 => do
    match ← draw with
    | some x => pure x
    | none => retryAtMost draw n

/-- Repeat a draw until it is accepted. -/
def retry (draw : Draw (Option α)) : Draw α := fun s => retryAtMost draw s.patience s

end Draw

namespace Drawing

/-- Repeat a draw and collect what it gives, after what is collected already. -/
def collect (draw : Drawing σ α) : Nat → Array α → Drawing σ (Array α)
  | 0, got => pure got
  | n + 1, got => do
    let x ← draw
    collect draw n (got.push x)

/-- The results of so many draws, in order. -/
def times (n : Nat) (draw : Drawing σ α) : Drawing σ (List α) := do
  let got ← collect draw n #[]
  pure got.toList

end Drawing

end EchoLoad.Random
