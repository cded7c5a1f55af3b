import EchoLoad.Framing.Framer
import EchoLoad.Transport.Error

/-!
# Clients of stream servers

A client has one connection to each of its servers, until that is closed. What a connection does not
take at once stays in its queue, and the number of the server goes into the backlog. The sender retries
one server of the backlog at a time, in three stages between which receivers may close connections: it
picks a server, writes, and updates the backlog.
-/

namespace EchoLoad.Stream

open Framing

/-- The servers with unwritten requests, and the place from which to look for the next one. -/
structure Backlog where
  servers : Array Nat
  next : Nat
deriving DecidableEq, Repr

namespace Backlog

/-- The place of the server to retry, and its number; none if nothing is unwritten. -/
def pick? (b : Backlog) : Option (Nat × Nat) :=
  let index := b.next % b.servers.size
  (b.servers[index]?).map fun server => (index, server)

/-- Take the entry at a place out; the last one comes in its place. -/
def swapRemove (b : Backlog) (index : Nat) : Backlog :=
  match b.servers.back? with
  | none => b
  | some last => { b with servers := (b.servers.setIfInBounds index last).pop }

/-- A server at a place was retried. -/
def update (b : Backlog) (index : Nat) (drained : Bool) : Backlog :=
  if drained then b.swapRemove index else { b with next := index + 1 }

end Backlog

/-- The connections of a client port, by server. -/
structure Client where
  connections : Array (Option Framer)
  backlog : Backlog

/-- What sending or writing led to. -/
structure ClientRun (α : Type) where
  client : Client
  written : Bytes
  result : Except TransportError α

namespace Client

/-- Connections to so many servers. -/
def new (servers frameLimit : Nat) : Client :=
  ⟨Array.replicate servers (some (.new frameLimit)), ⟨#[], 0⟩⟩

/-- Put the connection of a server back. -/
def put (c : Client) (server : Nat) (f : Framer) : Client :=
  { c with connections := c.connections.setIfInBounds server (some f) }

/-- Send a request, given the outcomes of the writes; none if there is no such server. A server goes
into the backlog when its queue starts to fill. -/
def send? (c : Client) (server : Nat) (f : Frame) (writes : List WriteOutcome) :
    Option (ClientRun Unit) :=
  match c.connections[server]? with
  | none => none
  | some none => some ⟨c, [], .error .peerClosed⟩
  | some (some framer) =>
    let run := framer.outbound.enqueue f writes
    let c := c.put server { framer with outbound := run.outbound }
    match run.result with
    | .error e => some ⟨c, run.written, .error (.system e)⟩
    | .ok complete =>
      let waits := !complete && framer.pending = 0
      let backlog :=
        if waits then { c.backlog with servers := c.backlog.servers.push server } else c.backlog
      some ⟨{ c with backlog := backlog }, run.written, .ok ()⟩

/-- Write what waits for a server; says whether nothing is left. For a closed one nothing is. -/
def resume (c : Client) (server : Nat) (writes : List WriteOutcome) : ClientRun Bool :=
  match (c.connections[server]?).join with
  | none => ⟨c, [], .ok true⟩
  | some framer =>
    let run := framer.outbound.drain writes
    ⟨c.put server { framer with outbound := run.outbound }, run.written,
      run.result.mapError .system⟩

/-- Update the backlog after a retry. -/
def settle (c : Client) (index : Nat) (drained : Bool) : Client :=
  { c with backlog := c.backlog.update index drained }

/-- Retry one server of the backlog, with no receiver in between. -/
def flush (c : Client) (writes : List WriteOutcome) : ClientRun Unit :=
  match c.backlog.pick? with
  | none => ⟨c, [], .ok ()⟩
  | some (index, server) =>
    let run := c.resume server writes
    match run.result with
    | .error e => ⟨run.client, run.written, .error e⟩
    | .ok drained => ⟨run.client.settle index drained, run.written, .ok ()⟩

/-- A receiver reads from a server, given the outcomes of the reads: the headers that arrived. A
connection that fails is closed. -/
def receive (c : Client) (mode : ReadMode) (server : Nat) (reads : List ReadOutcome) :
    List Header × Client :=
  match (c.connections[server]?).join with
  | none => ([], c)
  | some framer =>
    let run := framer.inbound.read mode reads
    let kept := match run.result with
      | .ok _ => some { framer with inbound := run.inbound }
      | .error _ => none
    (run.frames.map (·.header), { c with connections := c.connections.setIfInBounds server kept })

/-- Which connections are open. -/
def openServers (c : Client) : List Bool := c.connections.toList.map Option.isSome

end Client

end EchoLoad.Stream
