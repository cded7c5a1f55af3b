import EchoLoad.Arguments.Grammar
import EchoLoad.Decimal.Literal
import EchoLoad.Text.Fields

/-!
# Values of options

How the text of a value is read: as a number, as a name out of a few, or as a path.
-/

namespace EchoLoad.Arguments.Value

/-- The number of a text, if it is one. -/
def number (read? : String → Option β) (text : String) : Except Refusal β :=
  match read? text with
  | some n => .ok n
  | none => .error .badNumber

/-- A count, without a sign or with `+`. -/
def count : String → Except Refusal Nat := number (Decimal.unsigned? Decimal.maxWord)

/-- A number up to `high`; zero may have any sign. -/
def upTo (high : Nat) : String → Except Refusal Nat :=
  number fun text => (Decimal.signed? 0 high text).map Int.toNat

/-- A name out of a few. -/
def choice (ofName? : String → Option β) (text : String) : Except Refusal β :=
  match ofName? text with
  | some x => .ok x
  | none => .error .invalidValue

/-- The path of a file, which is never empty. -/
def path (text : String) : Except Refusal String :=
  if text.isEmpty then .error .invalidValue else .ok text

end EchoLoad.Arguments.Value
