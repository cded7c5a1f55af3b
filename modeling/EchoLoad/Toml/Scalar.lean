import EchoLoad.Decimal.Literal
import EchoLoad.Toml.Item
import EchoLoad.Toml.Text

/-!
# Numbers, truth values and dates of TOML

All values that are neither strings nor nested are words without blanks, apart from the one blank that
may stand between a date and a time. The word is cut out first and then read as a whole.
-/

namespace EchoLoad.Toml

/-- Digits with single underscores between them, without the underscores. -/
def digitsBetween? (isDigit : Char → Bool) : List Char → Option (List Char)
  | [] => none
  | [c] => if isDigit c then some [c] else none
  | c :: '_' :: rest =>
    if isDigit c then (digitsBetween? isDigit rest).map (c :: ·) else none
  | c :: rest =>
    if isDigit c then (digitsBetween? isDigit rest).map (c :: ·) else none

/-- Whether a decimal number has no superfluous zero in front. -/
def noLeadingZero : List Char → Bool
  | '0' :: _ :: _ => false
  | _ => true

/-- The digits of a decimal number. -/
def decimalDigits? (cs : List Char) : Option (List Char) :=
  if noLeadingZero cs then digitsBetween? Char.isDigit cs else none

/-- The largest number. -/
def maxInteger : Nat := Nat.pow 2 63 - 1

/-- Digits in a base, as a number in range. -/
def inBase? (base : Nat) (cs : List Char) : Option Int := do
  let digit (c : Char) : Bool := match hexValue? c with | some v => v < base | none => false
  let digits ← digitsBetween? digit cs
  let n := digits.foldl (fun n c => base * n + (hexValue? c).getD 0) 0
  if n ≤ maxInteger then some (n : Int) else none

/-- A whole number: decimal with an optional sign, or in base 16, 8 or 2 without one. -/
def integer? (word : List Char) : Option Int :=
  match word with
  | '0' :: 'x' :: rest => inBase? 16 rest
  | '0' :: 'o' :: rest => inBase? 8 rest
  | '0' :: 'b' :: rest => inBase? 2 rest
  | _ => do
    let (negative, cs) := Decimal.splitSign word
    let digits ← decimalDigits? cs
    let n ← Decimal.digits? digits
    let value : Int := if negative then -(n : Int) else n
    if -(maxInteger : Int) - 1 ≤ value ∧ value ≤ maxInteger then some value else none

/-- The exponent of a real number: a whole number that may start with zeros. -/
def exponent? (cs : List Char) : Option Int := do
  let (negative, cs) := Decimal.splitSign cs
  let digits ← digitsBetween? Char.isDigit cs
  let n ← Decimal.digits? digits
  some (if negative then -(n : Int) else n)

def isExponentMark (c : Char) : Bool := c = 'e' || c = 'E'

/-- A real number: a fraction, an exponent or both after a decimal number. Beyond the largest double
there is no number, but below the smallest one there is negative infinity. -/
def real? (word : List Char) : Option Float :=
  let (negative, cs) := Decimal.splitSign word
  match String.ofList cs with
  | "inf" => some (Decimal.infinity negative)
  | "nan" => some Decimal.notANumber
  | _ => do
    let mantissa := cs.takeWhile fun c => !isExponentMark c
    let mark := cs.dropWhile fun c => !isExponentMark c
    let whole := mantissa.takeWhile (· ≠ '.')
    let wholeDigits ← decimalDigits? whole
    let fraction ← match mantissa.dropWhile (· ≠ '.') with
      | [] => some []
      | _ :: rest => digitsBetween? Char.isDigit rest
    let power ← match mark with
      | [] => some 0
      | _ :: rest => exponent? rest
    if fraction.isEmpty && mark.isEmpty then none
    else do
      let n ← Decimal.digits? (wholeDigits ++ fraction)
      let value := Decimal.Numeral.toDouble negative ⟨n, power - fraction.length⟩
      if value.isInf && !negative then none else some value

/-- A number of exactly so many digits between two bounds, at the front of a word. -/
def field? (count low high : Nat) (cs : List Char) : Option (Nat × List Char) := do
  let digits := cs.take count
  if digits.length < count then none
  else do
    let n ← Decimal.digits? digits
    if low ≤ n ∧ n ≤ high then some (n, cs.drop count) else none

/-- Skip one of some characters. -/
def mark? (marks : List Char) : List Char → Option (List Char)
  | c :: rest => if c ∈ marks then some rest else none
  | [] => none

def isLeapYear (year : Nat) : Bool :=
  year % 4 = 0 && (year % 100 ≠ 0 || year % 400 = 0)

def daysOf (year month : Nat) : Nat :=
  match month with
  | 2 => if isLeapYear year then 29 else 28
  | 4 | 6 | 9 | 11 => 30
  | _ => 31

/-- Skip a date. -/
def date? (cs : List Char) : Option (List Char) := do
  let (year, cs) ← field? 4 0 9999 cs
  let cs ← mark? ['-'] cs
  let (month, cs) ← field? 2 1 12 cs
  let cs ← mark? ['-'] cs
  let (_, cs) ← field? 2 1 (daysOf year month) cs
  some cs

/-- Skip a time of day; its seconds may have a fraction. -/
def time? (cs : List Char) : Option (List Char) := do
  let (_, cs) ← field? 2 0 23 cs
  let cs ← mark? [':'] cs
  let (_, cs) ← field? 2 0 59 cs
  let cs ← mark? [':'] cs
  let (_, cs) ← field? 2 0 60 cs
  match cs with
  | '.' :: rest =>
    if (rest.takeWhile Char.isDigit).isEmpty then none else some (rest.dropWhile Char.isDigit)
  | _ => some cs

/-- Whether a text is the distance of a time from universal time, or nothing. -/
def isOffset (cs : List Char) : Bool :=
  match cs with
  | [] => true
  | ['Z'] => true
  | ['z'] => true
  | _ =>
    (do
      let cs ← mark? ['+', '-'] cs
      let (_, cs) ← field? 2 0 23 cs
      let cs ← mark? [':'] cs
      let (_, cs) ← field? 2 0 59 cs
      if cs.isEmpty then some () else none).isSome

/-- Whether a word is a time, a date, or a date and a time with an optional distance. -/
def isMoment (word : List Char) : Bool :=
  match time? word, date? word with
  | some [], _ => true
  | _, some [] => true
  | _, some (c :: rest) =>
    (c = 'T' || c = 't' || c = ' ') && (match time? rest with | some cs => isOffset cs | none => false)
  | _, none => false

/-- The characters of words. -/
def isWordChar (c : Char) : Bool :=
  c.isAlphanum || c = '_' || c = '+' || c = '-' || c = '.' || c = ':'

/-- The item that a whole word stands for. -/
def wordItem? (word : List Char) : Option Item :=
  match String.ofList word with
  | "true" => some (.boolean true)
  | "false" => some (.boolean false)
  | text =>
    if isMoment word then some (.moment text)
    else match integer? word with
      | some n => some (.integer n)
      | none => (real? word).map .real

/-- A number, a truth value or a date. A date takes the time after a single blank with it. -/
def scalarItem? (cs : List Char) : Taken Item :=
  let word := cs.takeWhile isWordChar
  let rest := cs.dropWhile isWordChar
  match date? word, rest with
  | some [], ' ' :: c :: more =>
    if c.isDigit then
      let time := (c :: more).takeWhile isWordChar
      (wordItem? (word ++ ' ' :: time)).map fun i => (i, (c :: more).dropWhile isWordChar)
    else (wordItem? word).map fun i => (i, rest)
  | _, _ => (wordItem? word).map fun i => (i, rest)

end EchoLoad.Toml
