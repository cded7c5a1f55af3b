import EchoLoad.Stream.Client

/-!
# Clients with receivers

The sender of a client sends requests and retries servers of the backlog, one call after the other.
Receivers share the connections with it and close those that fail. A retry is made in three sections, and
a receiver may come in between any two of them; a request is sent in one section. With no receiver in
between, the three sections are what `Client.flush` does.

A section that looks for a place past the end of an array ends the program, and there is no next state.
-/

namespace EchoLoad.Stream

open Framing

/-- How far the sender is with retrying a server. -/
inductive Retry
  /-- it picked the server at a place of the backlog -/
  | picked (index server : Nat)
  /-- it wrote, and knows whether nothing is left -/
  | written (index server : Nat) (drained : Bool)
deriving DecidableEq, Repr

namespace Retry

/-- The place in the backlog. -/
def index : Retry → Nat
  | picked index _ => index
  | written index _ _ => index

/-- The server that was found there. -/
def server : Retry → Nat
  | picked _ server => server
  | written _ server _ => server

end Retry

/-- A client in the hands of its sender and its receivers. -/
structure SharedClient where
  client : Client
  /-- the retry in progress, if there is one -/
  retry : Option Retry
  /-- what the calls of the sender returned -/
  returns : List (Except TransportError Unit)

/-- One section of a call of the sender or of a receiver. -/
inductive SharedStep
  /-- the sender sends a request, with these outcomes of writes -/
  | send (server : Nat) (frame : Frame) (writes : List WriteOutcome)
  /-- the sender picks a server to retry -/
  | pick
  /-- it writes to that server, with these outcomes -/
  | write (writes : List WriteOutcome)
  /-- it updates the backlog -/
  | settle
  /-- a receiver reads from a server, with these outcomes of reads -/
  | receive (mode : ReadMode) (server : Nat) (reads : List ReadOutcome)

namespace SharedClient

/-- Connections to so many servers. -/
def new (servers frameLimit : Nat) : SharedClient := ⟨.new servers frameLimit, none, []⟩

/-- A call of the sender returned. -/
def returned (s : SharedClient) (client : Client) (result : Except TransportError Unit) :
    SharedClient :=
  ⟨client, none, s.returns ++ [result]⟩

/-- One section; none if it ends the program. A section of the sender that does not fit what it is doing
changes nothing. -/
def step? (s : SharedClient) : SharedStep → Option SharedClient
  | .send server f writes =>
    match s.retry with
    | some _ => some s
    | none => (s.client.send? server f writes).map fun run => s.returned run.client run.result
  | .pick =>
    match s.retry with
    | some _ => some s
    | none =>
      match s.client.backlog.pick? with
      | none => some (s.returned s.client (.ok ()))
      | some (index, server) => some { s with retry := some (.picked index server) }
  | .write writes =>
    match s.retry with
    | some (.picked index server) =>
      if server < s.client.connections.size then
        let run := s.client.resume server writes
        match run.result with
        | .error e => some (s.returned run.client (.error e))
        | .ok drained =>
          some { s with client := run.client, retry := some (.written index server drained) }
      else none
    | _ => some s
  | .settle =>
    match s.retry with
    | some (.written index _ drained) =>
      if drained = true ∧ s.client.backlog.servers.size ≤ index then none
      else some (s.returned (s.client.settle index drained) (.ok ()))
    | _ => some s
  | .receive mode server reads => some { s with client := (s.client.receive mode server reads).2 }

/-- A client after some sections. -/
def run? (s : SharedClient) (steps : List SharedStep) : Option SharedClient := steps.foldlM step? s

end SharedClient

end EchoLoad.Stream
