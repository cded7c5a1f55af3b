import EchoLoad.Client.Port
import EchoLoad.Command.Resolve
import EchoLoad.Server.Port
import EchoLoad.Settings.Basic
import EchoLoad.Stats.Dump
import EchoLoad.Stats.Report

/-!
# Nodes

A node owns the ports that its commands started, in the order in which they were started, and the
reporter over them. It also keeps what the last client command asked for, which heads the dumps.
-/

namespace EchoLoad

/-- A running node. -/
structure Node where
  settings : Settings
  clients : List ClientPort
  servers : List ServerPort
  reporter : Reporter
  /-- what the last client command asked for -/
  lastClient : Option DumpInfo

namespace Node

/-- A node without ports. -/
def new (settings : Settings) : Node :=
  ⟨settings, [], [], .new settings.stats.percentileSamples, none⟩

/-- The counters of the client ports. -/
def clientStats (n : Node) : List ClientStats := n.clients.map (·.stats)

/-- The counters of the server ports. -/
def serverStats (n : Node) : List (List ServerStats) := n.servers.map (·.stats)

/-- Report the interval that ends at tick `now`. -/
def report (n : Node) (now : Nat) : Option Report × Node :=
  let (made, reporter) := n.reporter.report now n.clientStats n.serverStats
  (made, { n with reporter := reporter })

/-- The same node without a baseline for reports. -/
def resetReports (n : Node) : Node := { n with reporter := n.reporter.reset }

/-- The head of a dump: the last client command, or the settings if there was none. -/
def dumpInfo (n : Node) : DumpInfo :=
  n.lastClient.getD
    { protocol := n.settings.client.protocol.name
      workload := n.settings.client.workload
      netBw := n.settings.client.netBw
      threads := 0
      serverNodes := n.settings.client.hosts.length
      serverPorts := n.settings.client.serverPorts
      clientMax := n.settings.client.clientMax }

end Node

/-- The two kinds of ports. -/
inductive Role
  | client
  | server
deriving DecidableEq, Repr

def Role.name : Role → String
  | client => "client"
  | server => "server"

/-- Why a command was not carried out. -/
inductive CommandError
  | workload (error : WorkloadError)
  /-- a server host has no address -/
  | unresolved (host : String) (error : SystemError)
  /-- a port could not be started -/
  | setup (role : Role) (index : Nat) (error : SystemError)
  /-- a dump could not be written -/
  | dump (path : String) (error : SystemError)
  /-- memory does not hold what the command asks for -/
  | oversized {c : Breakdown}
deriving DecidableEq, Repr

namespace Breakdown

/-- What is said when the program breaks off. -/
def message : Breakdown → String
  | overflow doing => "attempt to " ++ doing ++ " with overflow"
  | unaddressable => "capacity overflow"
  | exhausted bytes => "memory allocation of " ++ Decimal.natText bytes ++ " bytes failed"

/-- The exit code of a program that breaks off. One without memory left is aborted by a signal. -/
def exitCode : Breakdown → Nat
  | overflow _ | unaddressable => 101
  | exhausted _ => 134

end Breakdown

namespace CommandError

/-- The text of the error. -/
def message : CommandError → String
  | workload e => e.message
  | unresolved host e => "couldn't resolve server host '" ++ host ++ "': " ++ e.text
  | setup role index e =>
    "couldn't start " ++ role.name ++ " port " ++ Decimal.natText index ++ ": " ++ e.text
  | dump path e => "couldn't write '" ++ path ++ "': " ++ e.text
  | oversized (c := c) => c.message

/-- Whether the program ends because of the error. -/
def isFatal : CommandError → Bool
  | workload _ | dump .. => false
  | unresolved .. | setup .. | oversized => true

/-- The exit code of a program that ends because of the error. -/
def exitCode : CommandError → Nat
  | oversized (c := c) => c.exitCode
  | _ => 1

end CommandError

end EchoLoad
