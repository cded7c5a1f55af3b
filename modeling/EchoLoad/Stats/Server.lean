/-!
# Statistics of a server port

A worker of a server port, or all workers of a port that share their connections, count the requests
served and their bytes.
-/

namespace EchoLoad

/-- The counters of one worker, or of the workers of a port that share them. Both wrap. -/
structure ServerStats where
  /-- requests served -/
  served : UInt64
  /-- their bytes -/
  bytes : UInt64
deriving DecidableEq, Repr

namespace ServerStats

def new : ServerStats := ⟨0, 0⟩

/-- The number of requests served. -/
def requests (s : ServerStats) : Nat := s.served.toNat

/-- Count a request of so many bytes. -/
def record (s : ServerStats) (length : Nat) : ServerStats :=
  ⟨s.served + 1, s.bytes + UInt64.ofNat length⟩

/-- A request counts once, or not at all where the counter wraps. -/
theorem requests_record_le (s : ServerStats) (length : Nat) :
    (s.record length).requests ≤ s.requests + 1 := by
  have hone : (1 : UInt64).toNat = 1 := rfl
  show (s.served + 1).toNat ≤ s.served.toNat + 1
  rw [UInt64.toNat_add, hone]
  exact Nat.mod_le _ _

end ServerStats

end EchoLoad
