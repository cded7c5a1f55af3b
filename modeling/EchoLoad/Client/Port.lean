import EchoLoad.Client.Options
import EchoLoad.Memory
import EchoLoad.Network.Host
import EchoLoad.Stats.Client

/-!
# Client ports

A client port has a number, counters, and a sender that can be stopped before the port is. To start, a
port needs its transport: a socket of its own for datagrams, or a connection to each of its servers.
-/

namespace EchoLoad

/-- A port that was started. -/
structure ClientPort where
  id : Nat
  stats : ClientStats
  /-- whether it still issues requests -/
  isSending : Bool

namespace ClientPort

/-- The address of a socket that is not told where to be. -/
def anyAddress : IpAddress := .v4 0 0 0 0

/-- The error of opening the transport to some servers, if there is one. -/
def openError (h : Host) (protocol : Protocol) (servers : List SocketAddress) : Option SystemError :=
  match protocol with
  | .native => h.bindError .native anyAddress
  | .stream => servers.findSome? fun a => h.reachError a.ip

/-- Ask for the memory of the samples, the receivers and the events of a port. -/
def reserve (m : Machine) (o : ClientOptions) : Except Breakdown Unit := do
  m.reserve (max o.ringCapacity 1) Memory.counterSize
  m.reserve o.receivers Memory.threadSize
  m.reserve o.batch Memory.eventSize

/-- Start a port. -/
def start (h : Host) (id : Nat) (o : ClientOptions) (servers : List SocketAddress) :
    Except StartError ClientPort :=
  match openError h o.protocol servers with
  | some e => .error (.system e)
  | none =>
    match reserve h.machine o with
    | .error c => .error (.oversized (c := c))
    | .ok () => .ok ⟨id, .new servers.length o.ringCapacity, true⟩

/-- Stop the sender. -/
def stopSender (p : ClientPort) : ClientPort := { p with isSending := false }

end ClientPort

end EchoLoad
