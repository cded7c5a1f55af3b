import EchoLoad.Client.Options
import EchoLoad.Command.Basic
import EchoLoad.Memory
import EchoLoad.Network.Host
import EchoLoad.Settings.Basic
import EchoLoad.Workload.Basic

/-!
# Complete options

A command that starts ports together with the settings: every option that the command leaves out comes
from there. Servers are told apart by numbers; the ports of the first host come first, then those of
the second, and so on.
-/

namespace EchoLoad

/-- Where the servers of a client command are. -/
structure ServerTargets where
  hosts : List String
  firstPort : UInt16
  /-- server ports on each host -/
  ports : Nat
deriving DecidableEq, Repr

/-- The port so many places after the first one; ports go round at the end. -/
def portAt (first : UInt16) (offset : Nat) : UInt16 := first + UInt16.ofNat offset

/-- Why a command has no list of servers. -/
inductive ResolveError
  /-- a host has no address of the kind that servers have -/
  | noAddress (host : String) (error : SystemError)
  /-- memory does not hold the list -/
  | oversized {c : Breakdown}
deriving DecidableEq, Repr

/-- What is made of the list, or how the program breaks off over it. -/
def ResolveError.unbroken {α : Type} : Except Breakdown α → Except ResolveError α
  | .ok a => .ok a
  | .error c => .error (.oversized (c := c))

namespace ServerTargets

open ResolveError (unbroken)

/-- The IPv4 address of a host. -/
def addressOf (h : Host) (name : String) : Except ResolveError IpAddress :=
  match h.addressesOf name with
  | .error e => .error (.noAddress name e)
  | .ok addresses =>
    match addresses.find? IpAddress.isV4 with
    | some ip => .ok ip
    | none => .error (.noAddress name (.described .notFound "no IPv4 address"))

/-- Add so many servers of a host to a list, the first at the given offset. The host is looked up for
each of them. -/
def addPorts (h : Host) (first : UInt16) (name : String) :
    Nat → Nat → Growing SocketAddress → Except ResolveError (Growing SocketAddress)
  | _, 0, g => .ok g
  | offset, count + 1, g => do
    let ip ← addressOf h name
    let g ← unbroken (g.push h.machine Memory.addressSize ⟨ip, portAt first offset⟩)
    addPorts h first name (offset + 1) count g

/-- Add the servers of some hosts to a list. -/
def addHosts (h : Host) (t : ServerTargets) :
    List String → Growing SocketAddress → Except ResolveError (Growing SocketAddress)
  | [], g => .ok g
  | name :: names, g => do
    let g ← addPorts h t.firstPort name 0 t.ports g
    addHosts h t names g

/-- The addresses of all servers in order; the first host without an address is an error. Before the
first host is looked at, room is made for as many servers as the product of hosts and ports comes to. -/
def resolve (h : Host) (t : ServerTargets) : Except ResolveError (List SocketAddress) := do
  let room ← unbroken (h.machine.word "multiply" (t.hosts.length * t.ports))
  let g ← unbroken (Growing.ofRoom h.machine Memory.addressSize room)
  let g ← addHosts h t t.hosts g
  return g.items.toList

end ServerTargets

namespace ClientCommand

/-- The name of the workload. -/
def workloadName (c : ClientCommand) (s : ClientSettings) : String := c.workload.getD s.workload

/-- The options of the ports of a command, when the name of its workload is read. -/
def options (c : ClientCommand) (s : ClientSettings) (stats : StatsSettings) (w : Workload) :
    ClientOptions where
  protocol := c.protocol.getD s.protocol
  ports := max (c.ports.getD s.ports) 1
  receivers := c.receivers.getD s.receivers
  clientMax := c.clientMax.getD s.clientMax
  netBw := c.netBw.getD s.netBw
  workload := w
  truncate := s.truncate && !c.noTruncate
  seed := UInt64.ofNat (c.seed.getD s.seed)
  ringCapacity := stats.ringCapacity
  maxFrameLength := s.maxFrameLength
  batch := s.batch

/-- The servers of a command. -/
def targets (c : ClientCommand) (s : ClientSettings) : ServerTargets where
  hosts := c.hosts.getD s.hosts
  firstPort := UInt16.ofNat (c.firstPort.getD s.firstPort)
  ports := max (c.serverPorts.getD s.serverPorts) 1

/-- Complete a command. -/
def resolve (c : ClientCommand) (s : ClientSettings) (stats : StatsSettings) :
    Except WorkloadError (ClientOptions × ServerTargets) :=
  match Workload.ofName (c.workloadName s) with
  | .error e => .error e
  | .ok w => .ok (c.options s stats w, c.targets s)

end ClientCommand

/-- What the ports of a server command have in common. -/
structure ServerOptions where
  protocol : Protocol
  bind : IpAddress
  /-- threads of each port -/
  threads : Nat
  maxConnections : Nat
  maxFrameLength : Nat
  batch : Nat
deriving DecidableEq, Repr

namespace ServerCommand

/-- The error of an address that cannot be read. -/
def badAddress : SystemError := .described .invalidInput "invalid IP address syntax"

/-- The lowest port of a command; 0 is any free one. -/
def lowestPort (c : ServerCommand) (s : ServerSettings) : UInt16 :=
  UInt16.ofNat (c.firstPort.getD s.firstPort)

/-- How many ports a command starts. -/
def portCount (c : ServerCommand) (s : ServerSettings) : Nat := c.ports.getD s.ports

/-- Complete a command. -/
def resolve (c : ServerCommand) (s : ServerSettings) : Except SystemError ServerOptions :=
  match IpAddress.ofText? s.bind with
  | none => .error badAddress
  | some ip =>
    .ok
      { protocol := c.protocol.getD s.protocol
        bind := ip
        threads := max (c.threads.getD s.threads) 1
        maxConnections := s.maxConnections
        maxFrameLength := s.maxFrameLength
        batch := s.batch }

end ServerCommand

end EchoLoad
