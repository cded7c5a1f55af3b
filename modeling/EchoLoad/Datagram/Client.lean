import EchoLoad.Datagram.Endpoint
import EchoLoad.Message.Frame
import EchoLoad.Stats.Client

/-!
# Clients of the native transport

A request is one call whose message is a frame, header and body as two pieces. A response gives a
header back; its length is that of the message that arrived, whatever the header says. There is no
table of the requests under way: what a response tells is all that the client goes by.
-/

namespace EchoLoad.Datagram

/-- The pieces of the message of a request. -/
def requestPieces (f : Frame) : List Bytes := [f.header.encode, f.body]

theorem flatten_requestPieces (f : Frame) : (requestPieces f).flatten = f.encode := by
  rw [requestPieces, List.flatten_cons, List.flatten_cons, List.flatten_nil, List.append_nil]
  rfl

/-- The header of a response, or nothing if the message is too short for one. -/
def responseHeader? (message : Bytes) : Option Header :=
  (Header.decode? message).map fun h => { h with length := Int32.ofNat message.length }

/-- A frame that announces its own length comes back with the header that it went with. -/
theorem responseHeader?_encode {f : Frame} (h : f.header.length.toInt = f.length) :
    responseHeader? f.encode = some f.header := by
  have hdecode : Header.decode? f.encode = some f.header := Header.decode?_encode_append _ _
  have hlength : Int32.ofNat f.length = f.header.length := by
    rw [← Int32.ofInt_eq_ofNat, ← h, Int32.ofInt_toInt]
  rw [responseHeader?, hdecode, Option.map_some, Frame.length_encode, hlength]

/-- Waiting once for a response: the header that arrived, if any, and whether the transport is still
open. Giving up after a while is no failure. -/
def waitOnce : Except TransportError (Delivery α) → Option Header × Except TransportError Bool
  | .ok d => (responseHeader? d.message, .ok true)
  | .error .timedOut => (none, .ok true)
  | .error .shutdown => (none, .ok false)
  | .error e => (none, .error e)

/-- A response that was handed on. -/
structure Response where
  call : UInt64
  header : Header
  /-- the tick at which it was handed on -/
  finish : Nat

/-- What waiting once hands on, at a tick: the header that arrived, with the number of its call. -/
def handOn? (finish : Nat) : Except TransportError (Delivery α) → Option Response
  | .ok d => (waitOnce (.ok d)).1.map fun h => ⟨d.call, h, finish⟩
  | .error _ => none

/-- A client port: its socket, its servers, and its counters. -/
structure Client (α : Type) where
  address : α
  servers : List α
  endpoint : Endpoint α
  stats : ClientStats

namespace Client

def start (address : α) (servers : List α) (ringCapacity : Nat) : Client α :=
  ⟨address, servers, .new, .new servers.length ringCapacity⟩

/-- Send a frame to a server: the number of the call and the datagram, unless it is too long or refused.
There is no such call for a server that the client does not have. -/
def send? (c : Client α) (server : Nat) (frame : Frame) (fault : Option SystemError) :
    Option (Except TransportError (UInt64 × Packet α) × Client α) :=
  match c.servers[server]? with
  | none => none
  | some target =>
    let (made, endpoint) := c.endpoint.request (requestPieces frame)
    let packet := made.map fun (call, datagram) => (call, ⟨c.address, target, datagram⟩)
    some (transmit packet fault, { c with endpoint := endpoint })

/-- Wait once for a response, and record it. -/
def wait (c : Client α) (finish : Nat) : Option Response × Client α :=
  let (outcome, endpoint) := c.endpoint.receive .response Protocol.native.limits.receiveBuffer
  let handed := outcome.bind (handOn? finish)
  let record (r : Response) : ClientStats := c.stats.recordResponse r.header (UInt32.ofNat r.finish)
  (handed, { c with endpoint := endpoint, stats := handed.elim c.stats record })

/-- Sending changes the endpoint; the datagram of a call that was taken is the request with its number. -/
theorem send?_eq_some {c d : Client α} {server : Nat} {frame : Frame} {fault : Option SystemError}
    {result : Except TransportError (UInt64 × Packet α)}
    (h : c.send? server frame fault = some (result, d)) :
    d = { c with endpoint := { c.endpoint with nextCall := c.endpoint.nextCall + 1 } } ∧
      ∀ call packet, result = .ok (call, packet) →
        call = c.endpoint.nextCall ∧ c.servers[server]? = some packet.target ∧
          encode .request call (requestPieces frame) = .ok packet.bytes := by
  unfold send? at h
  cases htarget : c.servers[server]? with
  | none =>
    rw [htarget] at h
    cases h
  | some target =>
    rw [htarget] at h
    cases h
    refine ⟨rfl, ?_⟩
    intro call packet hpacket
    have hmade := transmit_eq_ok hpacket
    cases hencode : encode .request c.endpoint.nextCall (requestPieces frame) with
    | error e =>
      rw [hencode] at hmade
      cases hmade
    | ok datagram =>
      rw [hencode] at hmade
      cases hmade
      exact ⟨rfl, rfl, hencode⟩

end Client

end EchoLoad.Datagram
