import EchoLoad.Stats.Server
import Mathlib.Algebra.GroupWithZero.Nat

/-!
# The counters of a server after many requests

> `ServerStats.served_recordAll`, `ServerStats.bytes_recordAll`: counting request after request adds their
> number and the sum of their lengths, in 64 bits.
-/

namespace EchoLoad

namespace ServerStats

/-- Count requests of these lengths, one after the other. -/
def recordAll (s : ServerStats) (lengths : List Nat) : ServerStats := lengths.foldl record s

theorem recordAll_cons (s : ServerStats) (length : Nat) (lengths : List Nat) :
    s.recordAll (length :: lengths) = (s.record length).recordAll lengths := rfl

theorem served_recordAll (s : ServerStats) (lengths : List Nat) :
    (s.recordAll lengths).served = s.served + UInt64.ofNat lengths.length := by
  induction lengths generalizing s with
  | nil => exact (UInt64.add_zero _).symm
  | cons length lengths ih =>
    rw [recordAll_cons, ih, record, List.length_cons, Nat.add_comm, UInt64.ofNat_add,
      ← UInt64.add_assoc]
    rfl

theorem bytes_recordAll (s : ServerStats) (lengths : List Nat) :
    (s.recordAll lengths).bytes = s.bytes + UInt64.ofNat lengths.sum := by
  induction lengths generalizing s with
  | nil => exact (UInt64.add_zero _).symm
  | cons length lengths ih =>
    rw [recordAll_cons, ih, record, List.sum_cons, UInt64.ofNat_add, ← UInt64.add_assoc]

theorem requests_recordAll_new (lengths : List Nat) :
    (new.recordAll lengths).requests = lengths.length % 2 ^ 64 := by
  rw [requests, served_recordAll, new, UInt64.zero_add, UInt64.toNat_ofNat']

theorem toNat_bytes_recordAll_new (lengths : List Nat) :
    (new.recordAll lengths).bytes.toNat = lengths.sum % 2 ^ 64 := by
  rw [bytes_recordAll, new, UInt64.zero_add, UInt64.toNat_ofNat']

end ServerStats

end EchoLoad
