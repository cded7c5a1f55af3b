import EchoLoad.Fault

/-!
# Transport errors

What may go wrong when a message is sent or awaited. A sender skips requests to a closed peer and a
receiver goes on after a timeout; a shut-down transport ends both.
-/

namespace EchoLoad

inductive TransportError
  /-- the transport was shut down -/
  | shutdown
  /-- nothing arrived for a while -/
  | timedOut
  /-- the connection to the peer is closed -/
  | peerClosed
  /-- the message is longer than the transport carries -/
  | tooLong (length limit : Nat)
  /-- the system failed a call -/
  | system (error : SystemError)
deriving DecidableEq, Repr

/-- The text of the error. -/
def TransportError.message : TransportError → String
  | shutdown => "transport shut down"
  | timedOut => "no message arrived before the receive timeout"
  | peerClosed => "connection is closed"
  | tooLong length limit =>
    "message of " ++ toString length ++ " bytes exceeds the " ++ toString limit ++ " byte limit"
  | system e => e.text

end EchoLoad
