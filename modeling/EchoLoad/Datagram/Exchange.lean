import EchoLoad.Datagram.Client
import EchoLoad.Datagram.Server

/-!
# A client and its servers

One client port, some servers, and the network between their sockets. A datagram on its way may be lost,
or arrive at the socket that it is for at any time, before or after others; it does not arrive twice or
as another. Everything that is not on its way stands in an endpoint, in a thread of a server, or was
handed on by the client.

`sent` and `handed` are the history: the requests that the transport took, and the responses that the
client handed on, both oldest first.
-/

namespace EchoLoad.Datagram

/-- A request that the transport took. -/
structure Request (α : Type) where
  call : UInt64
  /-- the number and the address of the server that it was sent to -/
  server : Nat
  target : α
  frame : Frame

/-- All that takes part, and what happened so far. -/
structure Exchange (α : Type) where
  client : Client α
  servers : List (Server α)
  inFlight : List (Packet α)
  sent : List (Request α)
  handed : List Response

inductive ExchangeEvent
  /-- the client builds a frame from a header and some bytes, and sends it to one of its servers -/
  | send (server : Nat) (header : Header) (fill : Bytes) (fault : Option SystemError)
  | lose (packet : Nat)
  /-- a datagram arrives at the socket of the client -/
  | arrive (packet : Nat)
  /-- a datagram arrives at the socket of a server -/
  | arriveAt (packet server : Nat)
  | receive (server thread : Nat)
  | reply (server thread : Nat) (fault : Option SystemError)
  /-- the client waits once for a response, and would hand it on at a tick -/
  | wait (finish : Nat)
  | shutDown
  | shutDownAt (server : Nat)

namespace Exchange

/-- Nothing was sent. The servers have an address and some workers each. -/
def start (address : α) (servers : List α) (ringCapacity : Nat) (listening : List (α × Nat)) :
    Exchange α :=
  ⟨.start address servers ringCapacity, listening.map fun l => .start l.1 l.2, [], [], []⟩

/-- The client sends a frame that it built. -/
def sendFrame (x : Exchange α) (server : Nat) (frame : Frame) (fault : Option SystemError) :
    Exchange α :=
  match x.client.send? server frame fault with
  | none => x
  | some (.error _, client) => { x with client := client }
  | some (.ok (call, packet), client) =>
    { x with
      client := client
      inFlight := x.inFlight ++ [packet]
      sent := x.sent ++ [⟨call, server, packet.target, frame⟩] }

def send (x : Exchange α) (server : Nat) (header : Header) (fill : Bytes)
    (fault : Option SystemError) : Exchange α :=
  match Frame.build? header fill with
  | none => x
  | some frame => x.sendFrame server frame fault

/-- A datagram is no longer on its way. -/
def without (x : Exchange α) (packet : Nat) : Exchange α :=
  { x with inFlight := x.inFlight.eraseIdx packet }

variable [DecidableEq α]

def arrive (x : Exchange α) (packet : Nat) : Exchange α :=
  match x.inFlight[packet]? with
  | none => x
  | some p =>
    if p.target = x.client.address then
      { x.without packet with
        client := { x.client with endpoint := x.client.endpoint.arrive p.source p.bytes } }
    else x

def arriveAt (x : Exchange α) (packet server : Nat) : Exchange α :=
  match x.inFlight[packet]?, x.servers[server]? with
  | some p, some s =>
    if p.target = s.address then
      { x.without packet with
        servers := x.servers.set server { s with endpoint := s.endpoint.arrive p.source p.bytes } }
    else x
  | _, _ => x

/-- Something happens at a server, which may send a datagram. -/
def atServer (x : Exchange α) (server : Nat) (f : Server α → Option (Packet α) × Server α) :
    Exchange α :=
  match x.servers[server]? with
  | none => x
  | some s =>
    { x with
      servers := x.servers.set server (f s).2
      inFlight := x.inFlight ++ (f s).1.toList }

def wait (x : Exchange α) (finish : Nat) : Exchange α :=
  { x with
    client := (x.client.wait finish).2
    handed := x.handed ++ (x.client.wait finish).1.toList }

def step (x : Exchange α) : ExchangeEvent → Exchange α
  | .send server header fill fault => x.send server header fill fault
  | .lose packet => x.without packet
  | .arrive packet => x.arrive packet
  | .arriveAt packet server => x.arriveAt packet server
  | .receive server thread => x.atServer server fun s => (none, s.receive thread)
  | .reply server thread fault => x.atServer server fun s => s.reply thread fault
  | .wait finish => x.wait finish
  | .shutDown => { x with client := { x.client with endpoint := x.client.endpoint.shutDown } }
  | .shutDownAt server =>
    x.atServer server fun s => (none, { s with endpoint := s.endpoint.shutDown })

def run (x : Exchange α) (events : List ExchangeEvent) : Exchange α := events.foldl step x

theorem run_cons (x : Exchange α) (e : ExchangeEvent) (events : List ExchangeEvent) :
    x.run (e :: events) = (x.step e).run events := rfl

theorem run_append (x : Exchange α) (events events' : List ExchangeEvent) :
    x.run (events ++ events') = (x.run events).run events' := List.foldl_append

end Exchange

end EchoLoad.Datagram
