import EchoLoad.Clock
import EchoLoad.Transport.Limits
import EchoLoad.Workload.Basic

/-!
# Options of client ports

A client command starts some ports with the same options. The bound on unanswered requests and the
target bandwidth are those of all ports together; each port gets an equal share.
-/

namespace EchoLoad

/-- What the ports of a client command have in common. -/
structure ClientOptions where
  protocol : Protocol
  ports : Nat
  /-- threads of each port that wait for responses; without one the sender waits itself -/
  receivers : Nat
  /-- unanswered requests of all ports together -/
  clientMax : Nat
  /-- bandwidth of all ports together in GB/s; not positive for as fast as possible -/
  netBw : Float
  workload : Workload
  /-- whether requests are cut to the limit of a transport that could carry longer ones -/
  truncate : Bool
  seed : UInt64
  ringCapacity : Nat
  maxFrameLength : Nat
  batch : Nat

namespace ClientOptions

/-- Unanswered requests of one port: its share, at least one. -/
def portCap (o : ClientOptions) : Nat := max (o.clientMax / max o.ports 1) 1

/-- The longest request of a port. Without cutting it is still the longest frame that a server
takes. -/
def lengthLimit (o : ClientOptions) (limits : TransportLimits) : Int32 :=
  let limit := if limits.bounded || o.truncate then limits.maxMessage else o.maxFrameLength
  Int32.ofNat (min limit (Nat.pow 2 31 - 1))

/-- Requests that one port issues in a second to reach the bandwidth, if there is one to reach. -/
def portRate (o : ClientOptions) (meanLength : Float) : Option Float :=
  if o.netBw > 0.0 then some (1e9 * o.netBw / (meanLength * countToDouble (max o.ports 1)))
  else none

end ClientOptions

end EchoLoad
