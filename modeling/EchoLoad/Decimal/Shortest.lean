import EchoLoad.Decimal.Double

/-!
# The fewest digits that read back

The text of a double has as few decimal digits as still tell it from every other double, and among
texts of that length it is the one nearest to the double. `shortestDigits` finds those digits with
exact integers: on ever finer decimal grids it looks at the two neighbours of the value, and takes
the first grid that has one inside the interval of numbers that round to the double.
-/

namespace EchoLoad.Decimal

/-- The number `digits * 10 ^ exponent`. -/
structure Scientific where
  digits : Nat
  exponent : Int
deriving DecidableEq, Repr

/-- The numbers that read back as a given double lie between `low / unit` and `high / unit`, the ends
included if `closed`; the double itself is `value / unit`. -/
structure Neighbourhood where
  low : Nat
  value : Nat
  high : Nat
  unit : Nat
  closed : Bool
deriving DecidableEq, Repr

namespace Neighbourhood

/-- The numbers that round to a positive double. Below a power of two the doubles are twice as dense,
so there the lower end is half as far away. -/
def ofDyadic (d : Dyadic) : Neighbourhood :=
  let (num, den) := d.fraction
  let gap := num / d.mantissa
  let narrow := d.mantissa = Nat.pow 2 52 ∧ d.exponent ≠ -1074
  { low := 4 * num - (if narrow then gap else 2 * gap)
    value := 4 * num
    high := 4 * num + 2 * gap
    unit := 4 * den
    closed := d.mantissa % 2 = 0 }

/-- Whether a numerator over the unit lies in the interval. -/
def contains (n : Neighbourhood) (x : Nat) : Bool :=
  if n.closed then n.low ≤ x && x ≤ n.high else n.low < x && x < n.high

/-- The same interval with all numbers multiplied by ten. -/
def tenfold (n : Neighbourhood) : Neighbourhood :=
  { n with low := 10 * n.low, value := 10 * n.value, high := 10 * n.high }

/-- The neighbour of the value on the grid of whole numbers that lies in the interval, the nearer one
if both do. -/
def wholeNeighbour? (n : Neighbourhood) : Option Nat :=
  let down := n.value / n.unit
  let up := down + 1
  match n.contains (down * n.unit), n.contains (up * n.unit) with
  | true, true => if 2 * (n.value % n.unit) < n.unit then some down else some up
  | true, false => some down
  | false, true => some up
  | false, false => none

/-- The first grid, from the tenths of `10 ^ exponent` downwards, that has a point in the interval. -/
def search (exponent : Int) : Nat → Neighbourhood → Scientific
  | 0, n => ⟨n.value / n.unit, exponent⟩
  | steps + 1, n =>
    match n.wholeNeighbour? with
    | some digits => ⟨digits, exponent⟩
    | none => search (exponent - 1) steps n.tenfold

end Neighbourhood

/-- Decimal digits of a natural number, none for zero. -/
def digitCount (n : Nat) : Nat := if n = 0 then 0 else (Nat.toDigits 10 n).length

/-- Remove zeros at the end of the digits. -/
def Scientific.strip : Nat → Scientific → Scientific
  | 0, s => s
  | steps + 1, s =>
    if s.digits % 10 = 0 ∧ s.digits ≠ 0 then strip steps ⟨s.digits / 10, s.exponent + 1⟩ else s

/-- The fewest digits that read back as a positive double, the nearest of those. The leading digit
stands at `10 ^ (size - 1)`, and seventeen digits are always enough. -/
def shortestDigits (d : Dyadic) : Scientific :=
  let n := Neighbourhood.ofDyadic d
  -- scaling by `10 ^ 350` makes every positive double at least one
  let size : Int := (digitCount (n.value * Nat.pow 10 350 / n.unit) : Int) - 350
  let start : Int := size
  let scaled : Neighbourhood :=
    if start ≤ 0 then
      let t := Nat.pow 10 start.natAbs
      { n with low := n.low * t, value := n.value * t, high := n.high * t }
    else { n with unit := n.unit * Nat.pow 10 start.natAbs }
  (scaled.search start 18).strip 20

/-- How a number is written: where positional notation ends, and whether a whole number keeps a
fraction. -/
structure NumberStyle where
  /-- numbers below `10 ^ n` in magnitude are written with an exponent -/
  exponentBelow : Option Int
  /-- numbers from `10 ^ n` on are written with an exponent -/
  exponentFrom : Option Int
  /-- a whole number written positionally ends in `.0` -/
  wholeFraction : Bool

/-- Positional always, and a whole number without a fraction: `100`, `0.00001`. -/
def NumberStyle.plain : NumberStyle := ⟨none, none, false⟩

/-- A fraction always, and an exponent below `0.0001` and from `1e16` on. -/
def NumberStyle.explicit : NumberStyle := ⟨some (-4), some 16, true⟩

/-- The text of a natural number in decimal. -/
def natText (n : Nat) : String := String.ofList (Nat.toDigits 10 n)

/-- The text of an integer in decimal. -/
def intText (n : Int) : String :=
  if n < 0 then "-" ++ natText n.natAbs else natText n.natAbs

/-- So many zeros. -/
def zeros (n : Nat) : String := String.ofList (List.replicate n '0')

/-- The number written positionally. -/
def Scientific.positional (s : Scientific) (wholeFraction : Bool) : String :=
  let digits := Nat.toDigits 10 s.digits
  let whole (text : String) : String := if wholeFraction then text ++ ".0" else text
  if 0 ≤ s.exponent then whole (String.ofList digits ++ zeros s.exponent.natAbs)
  else
    let places := s.exponent.natAbs
    if digits.length ≤ places then
      "0." ++ zeros (places - digits.length) ++ String.ofList digits
    else
      String.ofList (digits.take (digits.length - places)) ++ "." ++
        String.ofList (digits.drop (digits.length - places))

/-- The number written with one digit before the point and an exponent. -/
def Scientific.exponential (s : Scientific) : String :=
  let digits := Nat.toDigits 10 s.digits
  let exponent := intText (s.exponent + digits.length - 1)
  match digits with
  | [] => "0e" ++ exponent
  | [d] => String.ofList [d] ++ "e" ++ exponent
  | d :: rest => String.ofList [d] ++ "." ++ String.ofList rest ++ "e" ++ exponent

/-- The digits of a number in a notation. -/
def Scientific.text (s : Scientific) (style : NumberStyle) : String :=
  -- `10 ^ (size - 1)` is the place of the leading digit
  let size := s.exponent + (Nat.toDigits 10 s.digits).length
  let small := match style.exponentBelow with | some n => decide (size ≤ n) | none => false
  let large := match style.exponentFrom with | some n => decide (n < size) | none => false
  if small || large then s.exponential else s.positional style.wholeFraction

/-- The text of a double: its fewest digits in the given notation. -/
def doubleText (style : NumberStyle) (x : Float) : String :=
  match Reading.ofDouble x with
  | .nan => "NaN"
  | .infinite negative => if negative then "-inf" else "inf"
  | .finite negative d =>
    let sign := if negative then "-" else ""
    if d.mantissa = 0 then sign ++ (if style.wholeFraction then "0.0" else "0")
    else sign ++ (shortestDigits d).text style

end EchoLoad.Decimal
