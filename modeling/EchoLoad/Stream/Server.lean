import EchoLoad.Stream.Connection
import EchoLoad.Stream.Table

/-!
# Stream servers

The workers of a stream server share its connections. A worker that handles a notice goes through
three stages, and between them other workers may act: it looks the token up; it works on the
connection that it found; and if that is to be closed, it takes the token out of the table. Tokens of
closed connections are given out again, so connections are told apart by numbers of their own, in the
order in which they were accepted.
-/

namespace EchoLoad.Stream

open Framing

/-- How far a worker is with a notice. -/
inductive Handling
  /-- it found a connection under a token -/
  | found (token number : Nat)
  /-- reading from that connection failed, and it will take the token out of the table -/
  | failed (token number : Nat)
deriving DecidableEq, Repr

/-- A server: its connections by number, the numbers by token, and what its workers are doing. -/
structure Server where
  trigger : Trigger
  frameLimit : Nat
  connections : Array Connection
  table : Table Nat
  stats : ServerStats
  workers : Array (Option Handling)

/-- What happens on a server. -/
inductive ServerStep
  /-- a connection is accepted -/
  | accept
  /-- a worker looks up the token of a notice -/
  | lookUp (worker token : Nat)
  /-- a worker handles its notice, with these outcomes of reads and writes -/
  | work (worker : Nat) (notice : Notice) (reads : List ReadOutcome) (writes : List WriteOutcome)
  /-- a worker takes the token of a failed connection out of the table -/
  | remove (worker : Nat)

namespace Server

/-- A server with so many workers. -/
def new (workers connectionLimit frameLimit : Nat) : Server :=
  { trigger := .ofThreads workers
    frameLimit := frameLimit
    connections := #[]
    table := .new connectionLimit
    stats := .new
    workers := Array.replicate workers none }

/-- Accept a connection; beyond the limit it is closed at once. -/
def accept (s : Server) : Server :=
  { s with
    connections := s.connections.push (.new s.frameLimit)
    table := (s.table.insert fun _ => .ok s.connections.size).2 }

/-- Put a worker into a stage. -/
def setWorker (s : Server) (worker : Nat) (stage : Option Handling) : Server :=
  { s with workers := s.workers.setIfInBounds worker stage }

/-- What a worker is doing. -/
def stageOf (s : Server) (worker : Nat) : Option Handling := (s.workers[worker]?).join

/-- What a worker does next that handled a notice. -/
def nextStage (token number : Nat) : Except SystemError Bool → Option Handling
  | .ok true => some (.failed token number)
  | _ => none

/-- Put a connection back on which a worker handled a notice. -/
def putBack (s : Server) (worker token number : Nat) (h : Handled) : Server :=
  { s with
    connections := s.connections.setIfInBounds number h.connection
    stats := h.stats
    workers := s.workers.setIfInBounds worker (nextStage token number h.result) }

/-- One step of one worker. A step that does not fit the stage of the worker changes nothing. -/
def step (s : Server) : ServerStep → Server
  | .accept => s.accept
  | .lookUp worker token =>
    match s.stageOf worker with
    | some _ => s
    | none => s.setWorker worker ((s.table.get? token).map fun number => .found token number)
  | .work worker notice reads writes =>
    match s.stageOf worker with
    | some (.found token number) =>
      match s.connections[number]? with
      | none => s
      | some c =>
        s.putBack worker token number (c.handle s.trigger.readMode s.stats notice reads writes)
    | _ => s
  | .remove worker =>
    match s.stageOf worker with
    | some (.failed token _) =>
      { s with table := (s.table.remove token).2 }.setWorker worker none
    | _ => s

/-- A server after some steps. -/
def run (s : Server) (steps : List ServerStep) : Server := steps.foldl step s

end Server

end EchoLoad.Stream
