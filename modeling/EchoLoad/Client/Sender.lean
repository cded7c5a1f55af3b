import EchoLoad.Message.Frame
import EchoLoad.Schedule.Scheduler
import EchoLoad.Stats.Client
import EchoLoad.Transport.Error

/-!
# The sender of a client port

A sender goes round: it looks whether it shall stop and whether a request may go out; hands the next
request of its schedule to the transport; and moves the schedule on by one gap. While no request may
go out it lets the transport retry what is still unwritten. A port without receivers also waits for the
response to each request before it looks again.

A sender is a machine: `phase` says what it asks of the outside next, and `step` takes the answer.
Responses that other threads of the port record are events of their own, which may come at any time.
An event that does not answer what was asked changes nothing.
-/

namespace EchoLoad

/-- What a sender does next. -/
inductive SenderPhase
  /-- look at the stop flag and the clock -/
  | checking
  /-- let the transport retry what is unwritten, then look again -/
  | flushing
  /-- hand a request to the transport, which was due at `now`; there were `before` responses then -/
  | sending (server : Nat) (frame : Frame) (now before : Nat)
  /-- wait for responses, of which there were `before` when the request went out -/
  | waiting (before : Nat)
  /-- let the transport retry what is unwritten, then wait again -/
  | flushingWhileWaiting (before : Nat)
  /-- nothing: the sender has ended -/
  | ended (result : Except TransportError Unit)
  /-- nothing: there was no entry of a sequence, no counter, or too short a buffer of zeros -/
  | aborted

/-- A sender with the counters of its port. -/
structure Sender where
  scheduler : Scheduler
  stats : ClientStats
  /-- requests that went out -/
  issued : Nat
  /-- the number of the next request -/
  nextId : UInt32
  /-- the zeros that the bodies of requests are cut from -/
  fill : Bytes
  /-- threads of the port that wait for responses -/
  receivers : Nat
  phase : SenderPhase

/-- What happens to a sender. -/
inductive SenderEvent
  /-- the stop flag and the clock were read -/
  | checked (stop : Bool) (now : Nat)
  /-- the transport took a request or failed -/
  | sent (result : Except TransportError Unit)
  /-- the transport retried what was unwritten -/
  | flushed (result : Except TransportError Unit)
  /-- the transport waited for responses; says whether it is still open, and the stop flag then -/
  | waited (result : Except TransportError Bool) (stop : Bool)
  /-- a response was recorded at a tick with the given low bits -/
  | answered (header : Header) (finish : UInt32)

namespace Sender

/-- A sender at its first look at the clock. -/
def start (scheduler : Scheduler) (stats : ClientStats) (firstId : UInt32) (fill : Bytes)
    (receivers : Nat) : Sender :=
  ⟨scheduler, stats, 0, firstId, fill, receivers, .checking⟩

/-- The header of the next request. -/
def headerFor (s : Sender) (chosen : Selection) (now : Nat) : Header where
  length := chosen.length
  issueTime := UInt32.ofNat now
  serverId := Int32.ofNat chosen.server
  messageId := s.nextId

/-- Make the next request of the schedule, due at `now`. -/
def prepare (s : Sender) (now : Nat) : Sender :=
  match s.scheduler.select? with
  | none => { s with phase := .aborted }
  | some (chosen, scheduler) =>
    let s' := { s with scheduler := scheduler, nextId := s.nextId + 1 }
    match Frame.build? (s.headerFor chosen now) s.fill with
    | none => { s' with phase := .aborted }
    | some frame => { s' with phase := .sending chosen.server frame now s.stats.responses }

/-- Look whether to stop, and whether a request may go out. -/
def check (s : Sender) (stop : Bool) (now : Nat) : Sender :=
  if stop then { s with phase := .ended (.ok ()) }
  else if s.scheduler.ready now s.issued s.stats.responses then s.prepare now
  else { s with phase := .flushing }

/-- Move the schedule on after a request that was due at `now`, and go on with `phase`. -/
def advance (s : Sender) (now : Nat) (phase : SenderPhase) : Sender :=
  match s.scheduler.reschedule? now with
  | none => { s with phase := .aborted }
  | some (behind, scheduler) =>
    { s with
      scheduler := scheduler
      stats := if 0 < behind then s.stats.addLag behind else s.stats
      phase := phase }

/-- The transport answered a request. One to a closed server is skipped. -/
def afterSend (s : Sender) (server now before : Nat) : Except TransportError Unit → Sender
  | .error .peerClosed => s.advance now .checking
  | .error e => { s with phase := .ended (.error e) }
  | .ok () =>
    match s.stats.recordIssue? server with
    | none => { s with phase := .aborted }
    | some stats =>
      { s with stats := stats, issued := s.issued + 1 }.advance now
        (if s.receivers = 0 then .waiting before else .checking)

/-- The transport waited for responses. -/
def afterWait (s : Sender) (before : Nat) (stop : Bool) : Except TransportError Bool → Sender
  | .error e => { s with phase := .ended (.error e) }
  | .ok false => { s with phase := .ended (.ok ()) }
  | .ok true =>
    if s.stats.responses ≠ before then { s with phase := .checking }
    else if stop then { s with phase := .ended (.ok ()) }
    else { s with phase := .flushingWhileWaiting before }

/-- What happens changes the sender. -/
def step (s : Sender) : SenderEvent → Sender
  | .answered h finish => { s with stats := s.stats.recordResponse h finish }
  | .checked stop now =>
    match s.phase with
    | .checking => s.check stop now
    | _ => s
  | .sent result =>
    match s.phase with
    | .sending server _ now before => s.afterSend server now before result
    | _ => s
  | .waited result stop =>
    match s.phase with
    | .waiting before => s.afterWait before stop result
    | _ => s
  | .flushed result =>
    match s.phase, result with
    | .flushing, .ok () => { s with phase := .checking }
    | .flushing, .error e => { s with phase := .ended (.error e) }
    | .flushingWhileWaiting before, .ok () =>
      { s with phase := if s.stats.responses = before then .waiting before else .checking }
    | .flushingWhileWaiting _, .error e => { s with phase := .ended (.error e) }
    | _, _ => s

/-- A sender after all that happened. -/
def run (s : Sender) (events : List SenderEvent) : Sender := events.foldl step s

end Sender

end EchoLoad
