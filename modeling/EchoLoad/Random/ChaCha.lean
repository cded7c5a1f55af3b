/-!
# A stream of random words

The generator is the ChaCha stream cipher with twelve rounds, used as a source of 32-bit words. Its
256-bit key is drawn from a 64-bit seed by a linear congruential generator with a permuted output.
The words of the blocks 0, 1, 2, … are given out in order, none is skipped.
-/

namespace EchoLoad.Random

/-- Four words of the state, which go through the same operations side by side. -/
structure Row where
  a : UInt32
  b : UInt32
  c : UInt32
  d : UInt32
deriving DecidableEq, Repr

namespace Row

def zipWith (f : UInt32 → UInt32 → UInt32) (x y : Row) : Row :=
  ⟨f x.a y.a, f x.b y.b, f x.c y.c, f x.d y.d⟩

def map (f : UInt32 → UInt32) (x : Row) : Row := ⟨f x.a, f x.b, f x.c, f x.d⟩

/-- The words moved one place to the left. -/
def turn (x : Row) : Row := ⟨x.b, x.c, x.d, x.a⟩

def words (x : Row) : List UInt32 := [x.a, x.b, x.c, x.d]

end Row

/-- A word turned left by `n` bits. -/
def turnLeft (n : UInt32) (w : UInt32) : UInt32 := (w <<< n) ||| (w >>> (32 - n))

/-- A word turned right by `n` bits, `n` below 32. -/
def turnRight (n : UInt32) (w : UInt32) : UInt32 := (w >>> n) ||| (w <<< ((32 - n) % 32))

/-- The sixteen words of a block, in four rows. -/
structure Block where
  constants : Row
  keyLow : Row
  keyHigh : Row
  counter : Row
deriving DecidableEq, Repr

namespace Block

/-- The quarter round on the four columns at once. -/
def columns (s : Block) : Block :=
  let add := Row.zipWith (· + ·)
  let mix (n : UInt32) (x y : Row) : Row := (Row.zipWith (· ^^^ ·) x y).map (turnLeft n)
  let a := add s.constants s.keyLow
  let d := mix 16 s.counter a
  let c := add s.keyHigh d
  let b := mix 12 s.keyLow c
  let a := add a b
  let d := mix 8 d a
  let c := add c d
  let b := mix 7 b c
  ⟨a, b, c, d⟩

/-- A round on the columns and a round on the diagonals. -/
def doubleRound (s : Block) : Block :=
  let s := s.columns
  let s := columns ⟨s.constants, s.keyLow.turn, s.keyHigh.turn.turn, s.counter.turn.turn.turn⟩
  ⟨s.constants, s.keyLow.turn.turn.turn, s.keyHigh.turn.turn, s.counter.turn⟩

/-- So many double rounds. -/
def rounds : Nat → Block → Block
  | 0, s => s
  | n + 1, s => rounds n s.doubleRound

/-- The words of a block after twelve rounds, added to those before them. -/
def output (s : Block) : List UInt32 :=
  let t := rounds 6 s
  let add := Row.zipWith (· + ·)
  (add s.constants t.constants).words ++ (add s.keyLow t.keyLow).words ++
    (add s.keyHigh t.keyHigh).words ++ (add s.counter t.counter).words

end Block

/-- A generator: its key, the number of the next block, and the words of the last block that are not
given out yet. -/
structure ChaCha where
  keyLow : Row
  keyHigh : Row
  block : UInt64
  waiting : List UInt32
deriving DecidableEq, Repr

namespace ChaCha

/-- One step of the generator that keys are drawn from. -/
def keyStep (state : UInt64) : UInt64 × UInt32 :=
  let state := state * 6364136223846793005 + 11634580027462260723
  let folded := (((state >>> 18) ^^^ state) >>> 27).toUInt32
  (state, turnRight (state >>> 59).toUInt32 folded)

/-- The generator that belongs to a seed. -/
def ofSeed (seed : UInt64) : ChaCha :=
  let (s, k0) := keyStep seed
  let (s, k1) := keyStep s
  let (s, k2) := keyStep s
  let (s, k3) := keyStep s
  let (s, k4) := keyStep s
  let (s, k5) := keyStep s
  let (s, k6) := keyStep s
  let (_, k7) := keyStep s
  ⟨⟨k0, k1, k2, k3⟩, ⟨k4, k5, k6, k7⟩, 0, []⟩

/-- The words of the next block. -/
def nextBlock (g : ChaCha) : List UInt32 :=
  Block.output
    { constants := ⟨0x61707865, 0x3320646e, 0x79622d32, 0x6b206574⟩
      keyLow := g.keyLow
      keyHigh := g.keyHigh
      counter := ⟨g.block.toUInt32, (g.block >>> 32).toUInt32, 0, 0⟩ }

/-- The next word. -/
def next (g : ChaCha) : UInt32 × ChaCha :=
  match g.waiting with
  | w :: rest => (w, { g with waiting := rest })
  | [] =>
    match g.nextBlock with
    | w :: rest => (w, { g with block := g.block + 1, waiting := rest })
    | [] => (0, g)

end ChaCha

end EchoLoad.Random
