import EchoLoad.Decimal.Double

/-!
# Reading numbers

Whole numbers are decimal digits with an optional sign; a type without negative numbers takes `+`
alone, and a number out of range is no number. Real numbers may have a fraction and an exponent, and
read as the nearest double; `inf`, `infinity` and `nan` are read in any case.
-/

namespace EchoLoad.Decimal

/-- The value of an ASCII digit. -/
def digitValue? (c : Char) : Option Nat :=
  if '0' ≤ c ∧ c ≤ '9' then some (c.toNat - '0'.toNat) else none

/-- The number that a string of digits stands for, continuing one read so far. -/
def digitsFrom? (start : Nat) : List Char → Option Nat
  | [] => some start
  | c :: rest =>
    match digitValue? c with
    | some d => digitsFrom? (10 * start + d) rest
    | none => none

/-- The number that a string of one or more digits stands for. -/
def digits? (cs : List Char) : Option Nat := if cs.isEmpty then none else digitsFrom? 0 cs

/-- A sign, if there is one, and the rest. -/
def splitSign : List Char → Bool × List Char
  | '-' :: rest => (true, rest)
  | '+' :: rest => (false, rest)
  | cs => (false, cs)

/-- A whole number with an optional sign, from `low` to `high`. -/
def signed? (low high : Int) (text : String) : Option Int :=
  let (negative, cs) := splitSign text.toList
  match digits? cs with
  | none => none
  | some n =>
    let value : Int := if negative then -(n : Int) else n
    if low ≤ value ∧ value ≤ high then some value else none

/-- A whole number without a sign, or with `+`, up to `high`. -/
def unsigned? (high : Nat) (text : String) : Option Nat :=
  let cs := match text.toList with | '+' :: rest => rest | cs => cs
  match digits? cs with
  | none => none
  | some n => if n ≤ high then some n else none

/-- A signed 32-bit number. -/
def int32? (text : String) : Option Int32 :=
  (signed? Int32.minValue.toInt Int32.maxValue.toInt text).map Int32.ofInt

/-- The largest 64-bit number. -/
def maxWord : Nat := UInt64.size - 1

/-- A decimal literal without its sign: digits, and the power of ten that they count. -/
structure Numeral where
  digits : Nat
  exponent : Int
deriving DecidableEq, Repr

/-- The nearest double to a literal. Exponents far outside the range of doubles are decided by the
place of the leading digit, without computing the power. -/
def Numeral.toDouble (negative : Bool) (d : Numeral) : Float :=
  if d.digits = 0 then nearestDouble negative 0 1
  else
    let place : Int := d.exponent + (Nat.toDigits 10 d.digits).length
    if place > 310 then infinity negative
    else if place < -330 then nearestDouble negative 0 1
    else if 0 ≤ d.exponent then nearestDouble negative (d.digits * Nat.pow 10 d.exponent.natAbs) 1
    else nearestDouble negative d.digits (Nat.pow 10 d.exponent.natAbs)

/-- The exponent part of a literal: nothing, or `e` and a whole number. -/
def exponentPart? : List Char → Option Int
  | [] => some 0
  | c :: rest =>
    if c = 'e' ∨ c = 'E' then
      let (negative, cs) := splitSign rest
      (digits? cs).map fun n => if negative then -(n : Int) else n
    else none

/-- The digits behind a point, if there is a point, and the rest. -/
def splitFraction : List Char → List Char × List Char
  | '.' :: rest => (rest.takeWhile Char.isDigit, rest.dropWhile Char.isDigit)
  | cs => ([], cs)

/-- A literal without its sign: digits with an optional point among or around them, at least one
digit, and an optional exponent. -/
def decimal? (cs : List Char) : Option Numeral :=
  let whole := cs.takeWhile Char.isDigit
  let (fraction, rest) := splitFraction (cs.dropWhile Char.isDigit)
  match digits? (whole ++ fraction), exponentPart? rest with
  | some n, some e => some ⟨n, e - fraction.length⟩
  | _, _ => none

/-- A real number. -/
def double? (text : String) : Option Float :=
  let (negative, cs) := splitSign text.toList
  let word := String.ofList (cs.map Char.toLower)
  if word = "nan" then some notANumber
  else if word = "inf" ∨ word = "infinity" then some (infinity negative)
  else (decimal? cs).map (·.toDouble negative)

end EchoLoad.Decimal
