import EchoLoad.Message.Header
import EchoLoad.Transport.Protocol

/-!
# Limits of the transports

A datagram holds at most 65507 bytes, sixteen of which are a preamble. A stream takes frames of any
length; by default its requests are cut to a million bytes all the same.
-/

namespace EchoLoad

/-- The largest datagram. -/
def datagramLimit : Nat := 65507

/-- Bytes in front of the message in a datagram. -/
def preambleSize : Nat := 16

/-- What a transport can carry. -/
structure TransportLimits where
  /-- the longest message, or the length that messages are cut to -/
  maxMessage : Nat
  /-- whether a longer message cannot be sent at all -/
  bounded : Bool
  /-- bytes of the buffer that a receiver needs -/
  receiveBuffer : Nat
deriving DecidableEq, Repr

/-- The limits of the transport of a protocol. -/
def Protocol.limits : Protocol → TransportLimits
  | native => ⟨datagramLimit - preambleSize, true, datagramLimit⟩
  | stream => ⟨1000000, false, 0⟩

end EchoLoad
