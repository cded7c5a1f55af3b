import EchoLoad.Client.Options
import EchoLoad.Client.Sender
import EchoLoad.Log
import EchoLoad.Workload.Mean

/-!
# What a client port will send

Before a port starts, its request sequences are drawn; the seed of a port is that of the command plus
the number of the port. What they will come to on average is told in the log.
-/

namespace EchoLoad

/-- The requests of one port. -/
structure RequestPlan where
  lengthLimit : Int32
  /-- the mean length of the workload, cut to the limit -/
  expectedLength : Float
  sequences : Sequences

namespace RequestPlan

/-- Draw the requests of a port with so many servers. -/
def draw (o : ClientOptions) (servers : Nat) : Random.Draw RequestPlan := do
  let limit := o.lengthLimit o.protocol.limits
  let mean := o.workload.mean limit
  let sequences ← Sequences.draw servers o.workload (o.portRate mean)
  pure ⟨limit, mean, sequences⟩

/-- The source of a port. -/
def sourceOf (o : ClientOptions) (port : Nat) : Random.Source :=
  .ofSeed (o.seed + UInt64.ofNat port)

/-- The requests of a port with so many servers. -/
def ofPort? (o : ClientOptions) (port servers : Nat) : Option RequestPlan :=
  ((draw o servers).run (sourceOf o port)).map (·.1)

/-- The longest request, which is how many zeros a port needs. -/
def longest (p : RequestPlan) : Nat :=
  (p.sequences.clampedLengths p.lengthLimit).foldl (fun most n => max most n.toInt.toNat) 0

/-- The sender of a port with so many servers, when it starts at tick `now`. -/
def sender (p : RequestPlan) (o : ClientOptions) (servers : Nat) (firstId : UInt32) (now : Nat) :
    Sender :=
  .start (.new p.sequences o.portCap p.lengthLimit now) (.new servers o.ringCapacity) firstId
    (List.replicate p.longest 0) o.receivers

/-- Requests in a second, if they do not follow each other at once. -/
def rate (p : RequestPlan) : Option Float :=
  let ticks := total p.sequences.intervals
  if ticks = 0 then none
  else some (countToDouble p.sequences.intervals.length / ticksToSeconds ticks)

/-- A real number in the log. -/
def realField (name : String) (x : Float) : String × String := (name, Decimal.doubleText .explicit x)

/-- The log line of a port that is about to start. -/
def createdLine (p : RequestPlan) (o : ClientOptions) (port : Nat) : LogLine :=
  let average := p.sequences.averageLength p.lengthLimit
  { level := .info
    message := "Client port created"
    fields :=
      [("client", Decimal.natText port), ("protocol", o.protocol.name),
       realField "avg_length_kb" (average * 1e-3),
       realField "expected_length_kb" (p.expectedLength * 1e-3)] ++
      (match p.rate with
      | none => []
      | some r =>
        [realField "rate_kops" (r * 1e-3), realField "expected_mbps" (r * average * 1e-6)]) }

end RequestPlan

end EchoLoad
