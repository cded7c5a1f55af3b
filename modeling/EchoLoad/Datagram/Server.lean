import EchoLoad.Datagram.Endpoint
import EchoLoad.Stats.Server

/-!
# Servers of the native transport

A worker receives requests into one buffer, over and over, and sends the bytes of each back to where
they came from. Failed receives are passed over; a worker ends when the transport is shut down, or with
the error of a reply that failed.

The workers of a server receive from the same socket, each in a thread of its own (`Thread`), so the
others may receive and reply between two moves of one. `Worker.serve` is the whole life of a worker, with
nothing said of the others.
-/

namespace EchoLoad.Datagram

/-- A reply: to whom, to which call, and the message. -/
structure Reply (α : Type) where
  peer : α
  call : UInt64
  message : Bytes
deriving DecidableEq, Repr

/-- What a worker does next. -/
inductive WorkerPhase (α : Type)
  | receiving
  | replying (reply : Reply α)
  | ended (result : Except TransportError Unit)

/-- A worker: its buffer, which holds what earlier requests left in it, and its counters. -/
structure Worker where
  buffer : Bytes
  stats : ServerStats

/-- What serving led to. -/
structure ServeRun (α : Type) where
  worker : Worker
  /-- all replies that were tried, oldest first -/
  replies : List (Reply α)
  result : Except TransportError Unit
  /-- what the worker did not get to receive -/
  unreceived : List (Except TransportError (Delivery α))

namespace Worker

/-- A worker that takes messages up to a limit; its buffer has room for the preamble as well. -/
def new (limit : Nat) : Worker := ⟨List.replicate (limit + preambleSize) 0, .new⟩

/-- A message at the front of the buffer; behind it stays what was there. -/
def fillBuffer (w : Worker) (message : Bytes) : Worker :=
  let got := message.take w.buffer.length
  { w with buffer := got ++ w.buffer.drop got.length }

/-- Take a request: the reply to it, and the worker that counted it. -/
def accept (w : Worker) (d : Delivery α) : Reply α × Worker :=
  let length := min d.message.length w.buffer.length
  let w := w.fillBuffer d.message
  (⟨d.peer, d.call, w.buffer.take length⟩, { w with stats := w.stats.record length })

/-- What a worker does with what it received. -/
def received (w : Worker) : Except TransportError (Delivery α) → WorkerPhase α × Worker
  | .ok d => (.replying (w.accept d).1, (w.accept d).2)
  | .error .shutdown => (.ended (.ok ()), w)
  | .error _ => (.receiving, w)

/-- What a worker does after a reply. -/
def replied : Except TransportError Unit → WorkerPhase α
  | .ok () => .receiving
  | .error e => .ended (.error e)

/-- Serve what is received, given the outcomes of the replies; past the last of them replies succeed,
and past the last receive the transport is shut down. -/
def serve (w : Worker) :
    List (Except TransportError (Delivery α)) → List (Except TransportError Unit) → ServeRun α
  | [], _ => ⟨w, [], .ok (), []⟩
  | outcome :: rest, outcomes =>
    match w.received outcome with
    | (.ended result, w) => ⟨w, [], result, rest⟩
    | (.receiving, w) => w.serve rest outcomes
    | (.replying reply, w) =>
      match (replied (outcomes.headD (.ok ())) : WorkerPhase α) with
      | .ended result => ⟨w, [reply], result, rest⟩
      | _ =>
        let run := w.serve rest outcomes.tail
        { run with replies := reply :: run.replies }

theorem length_accept (w : Worker) (d : Delivery α) :
    (w.accept d).2.buffer.length = w.buffer.length := by
  show (d.message.take _ ++ w.buffer.drop _).length = _
  rw [List.length_append, List.length_drop, List.length_take]
  omega

theorem length_received (w : Worker) (outcome : Except TransportError (Delivery α)) :
    (w.received outcome).2.buffer.length = w.buffer.length := by
  cases outcome with
  | ok d => exact w.length_accept d
  | error e => cases e <;> rfl

/-- A request that there is room for is sent back as it came. -/
theorem accept_reply {w : Worker} {d : Delivery α} (h : d.message.length ≤ w.buffer.length) :
    (w.accept d).1 = ⟨d.peer, d.call, d.message⟩ := by
  have hall : d.message.take w.buffer.length = d.message := List.take_of_length_le h
  have hmessage : (w.fillBuffer d.message).buffer.take (min d.message.length w.buffer.length) =
      d.message := by
    rw [fillBuffer, hall, Nat.min_eq_left h, List.take_left]
  rw [accept, hmessage]

end Worker

/-- A worker in its thread. The buffer has room for every datagram. -/
structure Thread (α : Type) where
  worker : Worker
  phase : WorkerPhase α
  roomy : worker.buffer.length = datagramLimit

namespace Thread

def new : Thread α where
  worker := .new messageLimit
  phase := .receiving
  roomy := by
    rw [Worker.new, List.length_replicate]
    rfl

def received (t : Thread α) (outcome : Except TransportError (Delivery α)) : Thread α where
  worker := (t.worker.received outcome).2
  phase := (t.worker.received outcome).1
  roomy := by rw [Worker.length_received, t.roomy]

def replied (t : Thread α) (outcome : Except TransportError Unit) : Thread α :=
  { t with phase := Worker.replied outcome }

end Thread

/-- A server: its socket and the threads that receive from it. -/
structure Server (α : Type) where
  address : α
  endpoint : Endpoint α
  threads : List (Thread α)

namespace Server

def start (address : α) (workers : Nat) : Server α := ⟨address, .new, List.replicate workers .new⟩

/-- A thread that is not in the middle of a reply receives. -/
def receive (s : Server α) (thread : Nat) : Server α :=
  match s.threads[thread]? with
  | none => s
  | some t =>
    match t.phase with
    | .receiving =>
      match s.endpoint.receive .request t.worker.buffer.length with
      | (none, endpoint) => { s with endpoint := endpoint }
      | (some outcome, endpoint) =>
        { s with endpoint := endpoint, threads := s.threads.set thread (t.received outcome) }
    | _ => s

/-- A thread replies, if it has something to reply: the datagram, unless it is refused. -/
def reply (s : Server α) (thread : Nat) (fault : Option SystemError) : Option (Packet α) × Server α :=
  match s.threads[thread]? with
  | none => (none, s)
  | some t =>
    match t.phase with
    | .replying r =>
      match transmit (Endpoint.reply r.call [r.message]) fault with
      | .ok datagram =>
        (some ⟨s.address, r.peer, datagram⟩, { s with threads := s.threads.set thread (t.replied (.ok ())) })
      | .error e => (none, { s with threads := s.threads.set thread (t.replied (.error e)) })
    | _ => (none, s)

end Server

end EchoLoad.Datagram
