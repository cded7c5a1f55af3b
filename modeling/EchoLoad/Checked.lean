import EchoLoad.Bytes

/-!
# Places that may not exist

To take away more than there is, or to read or write past the end of a string, ends the program. The
operations here give nothing where that would happen, so that of a caller that never gets there it can
be proved that it never does.
-/

namespace EchoLoad.Checked

/-- What is left of `a` without `b`. -/
def minus? (a b : Nat) : Option Nat := if b ≤ a then some (a - b) else none

/-- The bytes from a place on. -/
def suffix? (b : Bytes) (start : Nat) : Option Bytes :=
  if start ≤ b.length then some (b.drop start) else none

/-- The string with `part` written over what stands from a place on. -/
def overwrite? (b : Bytes) (start : Nat) (part : Bytes) : Option Bytes :=
  if start + part.length ≤ b.length then
    some (b.take start ++ (part ++ b.drop (start + part.length)))
  else none

theorem minus?_of_le {a b : Nat} (h : b ≤ a) : minus? a b = some (a - b) := if_pos h

theorem suffix?_of_le {b : Bytes} {start : Nat} (h : start ≤ b.length) :
    suffix? b start = some (b.drop start) := if_pos h

theorem overwrite?_of_le {b part : Bytes} {start : Nat} (h : start + part.length ≤ b.length) :
    overwrite? b start part = some (b.take start ++ (part ++ b.drop (start + part.length))) :=
  if_pos h

end EchoLoad.Checked
