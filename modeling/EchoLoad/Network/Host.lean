import EchoLoad.Fault
import EchoLoad.Memory
import EchoLoad.Network.Address
import EchoLoad.Transport.Protocol

/-!
# The host of a node

What the system lets a node do with sockets: which addresses it may bind them to, which addresses it
can reach, and which addresses a name has. The machine is the one that the node runs on.
-/

namespace EchoLoad

structure Host where
  machine : Machine
  /-- the error of binding a socket for a protocol to an address, if there is one -/
  bindError : Protocol → IpAddress → Option SystemError
  /-- the error of connecting or sending to an address, if there is one -/
  reachError : IpAddress → Option SystemError
  /-- the addresses of a name that is no address itself -/
  lookUp : String → Except SystemError (List IpAddress)

namespace Host

/-- The addresses of a host that is given by name or by address. -/
def addressesOf (h : Host) (name : String) : Except SystemError (List IpAddress) :=
  match IpAddress.ofText? name with
  | some ip => .ok [ip]
  | none => h.lookUp name

/-- Why a host without a network does not bind a socket to an address. Without addresses of its own
it takes no IPv4 address for a foreign one. A connection has no group at its end, and without networks
there is none to give an address its meaning. -/
def isolatedBindError (protocol : Protocol) (ip : IpAddress) : Option SystemError :=
  if ip.isMappedV4 || ip.isUnspecified then none
  else if ip.isScoped || (ip.isGroup && protocol = .stream) then some (.ofCode 22)
  else if ip.isGroup then none
  else some (.ofCode 99)

/-- A host without a single network: sockets can be bound, but nothing can be reached. Its programs check
their sums, and a list can have as many bytes as a process has addresses. -/
def isolated : Host where
  machine := ⟨false, fun bytes => bytes < Nat.pow 2 47⟩
  bindError := isolatedBindError
  reachError := fun _ => some (.ofCode 101)
  lookUp := fun _ =>
    .error (.described .uncategorized
      "failed to lookup address information: Temporary failure in name resolution")

end Host

end EchoLoad
