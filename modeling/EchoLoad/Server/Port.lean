import EchoLoad.Command.Resolve
import EchoLoad.Log
import EchoLoad.Memory
import EchoLoad.Network.Host
import EchoLoad.Stats.Server

/-!
# Server ports

A server port listens at an address and counts what it serves. The workers of a native port count each
for themselves, those of a stream port together.
-/

namespace EchoLoad

/-- A port that was started. -/
structure ServerPort where
  id : Nat
  protocol : Protocol
  /-- where it listens; port 0 stands for one that the system chose -/
  address : SocketAddress
  stats : List ServerStats

namespace ServerPort

/-- The error of an address that is taken. -/
def addressTaken : SystemError := .ofCode 98

/-- Whether listening for connections at an address has to fail because of the ports that listen
there already. Datagram sockets share their ports. -/
def isTaken (live : List ServerPort) (o : ServerOptions) (port : UInt16) : Bool :=
  o.protocol = .stream && port ≠ 0 &&
    live.any fun p => p.protocol = .stream && p.address.ip = o.bind && p.address.port = port

/-- How many sets of counters a port has. -/
def counters (o : ServerOptions) : Nat :=
  match o.protocol with
  | .native => max o.threads 1
  | .stream => 1

/-- Start a port beside those that are live. -/
def start (h : Host) (live : List ServerPort) (id : Nat) (port : UInt16) (o : ServerOptions) :
    Except StartError ServerPort :=
  match h.bindError o.protocol o.bind with
  | some e => .error (.system e)
  | none =>
    if isTaken live o port then .error (.system addressTaken)
    else
      match h.machine.reserve (max o.threads 1) Memory.threadSize with
      | .error c => .error (.oversized (c := c))
      | .ok () => .ok ⟨id, o.protocol, ⟨o.bind, port⟩, List.replicate (counters o) .new⟩

/-- The log line of a port that has started. -/
def startedLine (p : ServerPort) (threads : Nat) : LogLine where
  level := .info
  message := "Server port started"
  fields :=
    [("server", Decimal.natText p.id), ("protocol", p.protocol.name), ("addr", p.address.text),
     ("threads", Decimal.natText threads)]

end ServerPort

end EchoLoad
