import EchoLoad.Decimal.Shortest

/-!
# A fixed number of places

A double written with a given number of decimal places: the exact binary value is rounded, a half to
the even neighbour. The sign of the double is kept even where all digits round to zero.
-/

namespace EchoLoad.Decimal

/-- A count of units of `10 ^ -places`, written with that many places. -/
def placesText (units places : Nat) : String :=
  if places = 0 then natText units
  else
    let fraction := natText (units % Nat.pow 10 places)
    natText (units / Nat.pow 10 places) ++ "." ++ zeros (places - fraction.length) ++ fraction

/-- The text of a double with a fixed number of places. -/
def fixedText (places : Nat) (x : Float) : String :=
  match Reading.ofDouble x with
  | .nan => "NaN"
  | .infinite negative => if negative then "-inf" else "inf"
  | .finite negative d =>
    let (num, den) := d.fraction
    (if negative then "-" else "") ++ placesText (roundQuotient (num * Nat.pow 10 places) den) places

/-- A text filled with blanks on the left up to a width. -/
def padLeft (width : Nat) (text : String) : String :=
  String.ofList (List.replicate (width - text.length) ' ') ++ text

end EchoLoad.Decimal
