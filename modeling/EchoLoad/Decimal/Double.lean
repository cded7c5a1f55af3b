/-!
# Doubles as exact numbers

A finite double is `mantissa * 2 ^ exponent` with a sign. `Magnitude.ofDouble` takes the bits apart,
`nearestDouble` goes the other way: it gives the double nearest to a fraction, the even one of two
that are equally near. Both are exact integer arithmetic, so printing and reading rest on nothing
that a proof cannot see.
-/

namespace EchoLoad.Decimal

/-- The number `mantissa * 2 ^ exponent`. -/
structure Dyadic where
  mantissa : Nat
  exponent : Int
deriving DecidableEq, Repr

/-- What a double stands for. -/
inductive Reading
  | nan
  | infinite (negative : Bool)
  | finite (negative : Bool) (magnitude : Dyadic)
deriving DecidableEq, Repr

/-- The number that a double's 64 bits stand for. -/
def Reading.ofBits (bits : UInt64) : Reading :=
  let n : Nat := bits.toNat
  let negative := decide (n / Nat.pow 2 63 = 1)
  let field : Nat := n / Nat.pow 2 52 % Nat.pow 2 11
  let fraction : Nat := n % Nat.pow 2 52
  if field = 2047 then (if fraction = 0 then .infinite negative else .nan)
  else if field = 0 then .finite negative ⟨fraction, -1074⟩
  else .finite negative ⟨Nat.pow 2 52 + fraction, (field : Int) - 1075⟩

/-- The number that a double stands for. -/
def Reading.ofDouble (x : Float) : Reading := .ofBits x.toBits

/-- A fraction of natural numbers with the value of a dyadic number. -/
def Dyadic.fraction (d : Dyadic) : Nat × Nat :=
  match d.exponent with
  | .ofNat e => (d.mantissa * Nat.pow 2 e, 1)
  | .negSucc e => (d.mantissa, Nat.pow 2 (e + 1))

/-- The quotient rounded to the nearest natural number, the even one of two equally near. -/
def roundQuotient (num den : Nat) : Nat :=
  let q := num / den
  let r := num % den
  if 2 * r < den then q
  else if 2 * r > den then q + 1
  else if q % 2 = 0 then q else q + 1

/-- The bits of the double nearest to `num / den`, without its sign: the even neighbour of two that
are equally near, infinity from halfway above the largest double on. -/
def nearestBits (num den : Nat) : Nat :=
  if num = 0 ∨ den = 0 then 0
  else
    -- `2 ^ size ≤ num / den < 2 ^ (size + 2)`; the unit is chosen so that 53 bits are kept
    let size : Int := (num.log2 : Int) - den.log2 - 1
    let scaled (unit : Int) : Nat × Nat :=
      if unit ≤ 0 then (num * Nat.pow 2 unit.natAbs, den) else (num, den * Nat.pow 2 unit.natAbs)
    let atLeast (unit : Int) : Bool :=
      let (n, d) := scaled unit
      decide (Nat.pow 2 53 * d ≤ n)
    let unit := size - 52
    let unit := if atLeast unit then unit + 1 else unit
    let unit := max unit (-1074)
    let (n, d) := scaled unit
    let m := roundQuotient n d
    -- the leading bit of the mantissa counts as one in the exponent field, and a mantissa that
    -- rounds up to `2 ^ 53` carries into that field by itself
    min ((unit + 1074).toNat * Nat.pow 2 52 + m) (2047 * Nat.pow 2 52)

/-- The double nearest to `num / den` with the given sign. -/
def nearestDouble (negative : Bool) (num den : Nat) : Float :=
  Float.ofBits (UInt64.ofNat (nearestBits num den + if negative then Nat.pow 2 63 else 0))

/-- The quiet not-a-number. -/
def notANumber : Float := Float.ofBits 0x7ff8000000000000

/-- An infinity. -/
def infinity (negative : Bool) : Float :=
  Float.ofBits (if negative then 0xfff0000000000000 else 0x7ff0000000000000)

end EchoLoad.Decimal
