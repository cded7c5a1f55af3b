import EchoLoad.Framing.Inbound
import EchoLoad.Framing.Outbound

/-!
# The framer of a connection

Both halves of a connection side by side. They share nothing: reading leaves the queue of outgoing
frames alone, and writing leaves the message in progress alone.
-/

namespace EchoLoad.Framing

/-- The two halves of a connection. -/
structure Framer where
  inbound : Inbound
  outbound : Outbound
deriving DecidableEq, Repr

namespace Framer

/-- A fresh connection that takes frames of at most `limit` bytes. -/
def new (limit : Nat) : Framer := ⟨.new limit, .new⟩

/-- Frames waiting to be written. -/
def pending (s : Framer) : Nat := s.outbound.pending

end Framer

end EchoLoad.Framing
