import EchoLoad.Decimal.Literal
import EchoLoad.Decimal.Shortest
import EchoLoad.Text.Fields

/-!
# Workloads and their names

A workload says how long requests are. Its name on a command line is

- `N`: every request has `N` bytes;
- `uniform:MIN:MAX`: all lengths from `MIN` to `MAX` are equally likely;
- `exp:MEAN`: lengths are exponentially distributed, rounded up to whole bytes.

`ofName` reads a name and `name` writes it.
-/

namespace EchoLoad

/-- How long requests are. -/
inductive Workload
  | fixed (length : Int32)
  | uniform (low high : Int32)
  | exponential (mean : Float)
deriving Repr

/-- What is wrong with the name of a workload. -/
inductive WorkloadError
  /-- it has no form that is known -/
  | unknown (name : String)
  /-- it has a known form, but not with these numbers -/
  | invalid (name : String) (reason : String)
deriving DecidableEq, Repr

/-- The text of the error. -/
def WorkloadError.message : WorkloadError → String
  | unknown name => "unknown workload '" ++ name ++ "'"
  | invalid name reason => "invalid workload '" ++ name ++ "': " ++ reason

namespace Workload

/-- Whether a number is positive and finite. -/
def isPositiveFinite (x : Float) : Bool := x > 0.0 && x.isFinite

/-- Read the name of a workload. A whole number is a fixed length whatever its value. -/
def ofName (name : String) : Except WorkloadError Workload :=
  match Decimal.int32? name with
  | some n =>
    if n ≤ 0 then .error (.invalid name "length must be positive") else .ok (.fixed n)
  | none =>
    match Text.fieldsOf ':' name with
    | ["uniform", low, high] =>
      match Decimal.int32? low, Decimal.int32? high with
      | none, _ => .error (.invalid name "bad minimum")
      | some _, none => .error (.invalid name "bad maximum")
      | some low, some high =>
        if low ≤ 0 ∨ high < low then .error (.invalid name "need 0 < MIN <= MAX")
        else .ok (.uniform low high)
    | ["exp", mean] =>
      match Decimal.double? mean with
      | none => .error (.invalid name "bad mean")
      | some mean =>
        if isPositiveFinite mean then .ok (.exponential mean)
        else .error (.invalid name "mean must be positive")
    | _ => .error (.unknown name)

/-- The name of a workload. -/
def name : Workload → String
  | fixed n => Decimal.intText n.toInt
  | uniform low high =>
    "uniform:" ++ Decimal.intText low.toInt ++ ":" ++ Decimal.intText high.toInt
  | exponential mean => "exp:" ++ Decimal.doubleText .plain mean

end Workload

end EchoLoad
