import EchoLoad.Decimal.Fixed
import EchoLoad.Log
import EchoLoad.Stats.Client
import EchoLoad.Stats.Percentile
import EchoLoad.Stats.Server

/-!
# Periodic reports

A reporter remembers the totals of the last report and turns the growth since then into rates. The
first report after a start or a reset is only a baseline. Totals that have shrunk, because ports were
stopped, count as unchanged. All totals are machine words, and go round.
-/

namespace EchoLoad

/-- What the servers did in an interval. -/
structure ServerReport where
  kops : Float
  mbps : Float
  averageLength : Float
  /-- requests that each server port served -/
  perServer : List Nat

/-- What the clients did in an interval. -/
structure ClientReport where
  kops : Float
  mbps : Float
  averageLength : Float
  /-- three percentiles of the round-trip times, in microseconds -/
  rttMicros : Option (Float × Float × Float)
  averageRttMicros : Float
  /-- the part of the time that the senders were behind their schedules -/
  lagFraction : Float

/-- What happened in an interval. A side that did nothing is left out. -/
structure Report where
  server : Option ServerReport
  client : Option ClientReport
  /-- requests not answered at the end of the interval -/
  outstanding : Nat

/-- Cumulative totals over all ports at one time. -/
structure Totals where
  clientRpcs : Nat
  clientBytes : Nat
  lag : Nat
  rtt : Nat
  serverRpcs : Nat
  serverBytes : Nat
  perServer : List Nat
deriving DecidableEq, Repr

/-- The sum of some counts, as a machine word. -/
def wordTotal (counts : List Nat) : Nat := total counts % UInt64.size

/-- A sum that does not go round. -/
theorem wordTotal_of_lt {counts : List Nat} (h : total counts < UInt64.size) :
    wordTotal counts = total counts := Nat.mod_eq_of_lt h

namespace Totals

/-- Nothing counted yet. -/
def zero : Totals := ⟨0, 0, 0, 0, 0, 0, []⟩

/-- The totals of some client ports and of some server ports, each given by its workers. -/
def of (clients : List ClientStats) (servers : List (List ServerStats)) : Totals :=
  { clientRpcs := wordTotal (clients.map (·.responses))
    clientBytes := wordTotal (clients.map (·.responseBytes))
    lag := wordTotal (clients.map (·.lag.toNat))
    rtt := wordTotal (clients.map (·.totalRtt))
    serverRpcs := wordTotal (servers.map fun workers => wordTotal (workers.map (·.requests)))
    serverBytes := wordTotal (servers.map fun workers => wordTotal (workers.map (·.bytes.toNat)))
    perServer := servers.map fun workers => wordTotal (workers.map (·.requests)) }

end Totals

/-- Growth of a list of counters; one without a previous value counts from zero. -/
def growth : List Nat → List Nat → List Nat
  | [], _ => []
  | now :: rest, [] => now :: growth rest []
  | now :: rest, before :: earlier => (now - before) :: growth rest earlier

/-- A reporter: how many samples it draws percentiles from, and when it last reported what totals. -/
structure Reporter where
  cdfSamples : Nat
  lastTime : Option Nat
  last : Totals
deriving DecidableEq, Repr

namespace Reporter

/-- A reporter without a baseline. -/
def new (cdfSamples : Nat) : Reporter := ⟨cdfSamples, none, .zero⟩

/-- The same reporter without a baseline. -/
def reset (r : Reporter) : Reporter := new r.cdfSamples

/-- Percentiles of recent round-trip times; each port gives an equal share of the samples. -/
def rttPercentiles (r : Reporter) (clients : List ClientStats) : Option (Float × Float × Float) :=
  let samples := clients.flatMap fun c =>
    c.recentRtts (min (r.cdfSamples / clients.length) c.ring.capacity)
  (percentiles? samples).map fun p =>
    (ticksToMicros p.p50, ticksToMicros p.p99, ticksToMicros p.p999)

/-- The larger of two doubles that are not not-a-number. -/
def larger (x y : Float) : Float := if x < y then y else x

/-- The servers' part of a report, present if any request was served. -/
def serverReport? (before now : Totals) (elapsed : Float) : Option ServerReport :=
  let rpcs := now.serverRpcs - before.serverRpcs
  let bytes := now.serverBytes - before.serverBytes
  if rpcs = 0 then none
  else some
    { kops := countToDouble rpcs / elapsed / 1e3
      mbps := countToDouble bytes / elapsed / 1e6
      averageLength := countToDouble bytes / countToDouble rpcs
      perServer := growth now.perServer before.perServer }

/-- The clients' part of a report, present if any response arrived. -/
def clientReport? (r : Reporter) (clients : List ClientStats) (now : Totals) (elapsed : Float) :
    Option ClientReport :=
  let rpcs := now.clientRpcs - r.last.clientRpcs
  let bytes := now.clientBytes - r.last.clientBytes
  if clients.isEmpty || rpcs = 0 then none
  else some
    { kops := countToDouble rpcs / elapsed / 1e3
      mbps := countToDouble bytes / elapsed / 1e6
      averageLength := countToDouble bytes / countToDouble rpcs
      rttMicros := r.rttPercentiles clients
      averageRttMicros := ticksToMicros (now.rtt - r.last.rtt) / countToDouble rpcs
      lagFraction :=
        ticksToSeconds (now.lag - r.last.lag) / elapsed / countToDouble clients.length }

/-- Report the interval that ends at tick `now`; the first call only takes the baseline. -/
def report (r : Reporter) (now : Nat) (clients : List ClientStats)
    (servers : List (List ServerStats)) : Option Report × Reporter :=
  let totals := Totals.of clients servers
  let made := r.lastTime.map fun previous =>
    let elapsed := larger (ticksToSeconds (now - previous)) 1e-9
    { server := serverReport? r.last totals elapsed
      client := r.clientReport? clients totals elapsed
      outstanding := wordTotal (clients.map (·.outstanding)) : Report }
  (made, { r with lastTime := some now, last := totals })

end Reporter

namespace Report

/-- The log lines of the servers' part. -/
def serverLines (s : ServerReport) : List LogLine :=
  [{ level := .info
     message := "Servers"
     fields :=
       [("kops", Decimal.fixedText 2 s.kops), ("mbps", Decimal.fixedText 2 s.mbps),
        ("avg_length", Decimal.fixedText 1 s.averageLength)] },
   { level := .info
     message := "RPCs per server"
     fields := [("rpcs", " ".intercalate (s.perServer.map Decimal.natText))] }]

/-- The log lines of the clients' part; lag is mentioned from one percent on. -/
def clientLines (c : ClientReport) : List LogLine :=
  let (p50, p99, p999) := c.rttMicros.getD (0.0, 0.0, 0.0)
  { level := .info
    message := "Clients"
    fields :=
      [("kops", Decimal.fixedText 2 c.kops), ("mbps", Decimal.fixedText 2 c.mbps),
       ("p50_us", Decimal.fixedText 2 p50), ("p99_us", Decimal.fixedText 2 p99),
       ("p999_us", Decimal.fixedText 2 p999),
       ("avg_rtt_us", Decimal.fixedText 2 c.averageRttMicros),
       ("avg_length", Decimal.fixedText 1 c.averageLength)] } ::
  (if c.lagFraction ≥ 0.01 then
    [{ level := .info
       message := "Lag due to overload"
       fields := [("lag_pct", Decimal.fixedText 1 (c.lagFraction * 100.0))] }]
  else [])

/-- The log lines of a report. -/
def lines (r : Report) : List LogLine :=
  r.server.toList.flatMap serverLines ++ r.client.toList.flatMap clientLines ++
    (if r.outstanding = 0 then []
    else
      [{ level := .info
         message := "Outstanding client RPCs"
         fields := [("outstanding", Decimal.natText r.outstanding)] }])

end Report

end EchoLoad
