import EchoLoad.Client.Plan
import EchoLoad.Command.Basic
import EchoLoad.Node.Basic

/-!
# Carrying out commands

`Node.execute` carries out one command. Ports are started one after the other, and those that started
before one failed stay. Whatever may have changed which ports there are makes the next report a new
baseline.
-/

namespace EchoLoad

/-- Whether to go on after a command. -/
inductive Flow
  | continue
  | exit
deriving DecidableEq, Repr

/-- What a command led to. -/
structure Executed where
  node : Node
  result : Except CommandError Flow
  log : List LogLine
  /-- the lines written to the file of a dump -/
  dumped : List String

/-- A command that was carried out. -/
def Executed.done (n : Node) (log : List LogLine) : Executed := ⟨n, .ok .continue, log, []⟩

/-- A command that failed. -/
def Executed.failed (n : Node) (e : CommandError) (log : List LogLine) : Executed :=
  ⟨n, .error e, log, []⟩

namespace Node

/-- The log of a client port that has drawn its requests to so many servers. -/
def createdLines (o : ClientOptions) (index servers : Nat) : List LogLine :=
  ((RequestPlan.ofPort? o index servers).map fun p => p.createdLine o index).toList

/-- Start so many client ports, the first with the given number. -/
def startClients (h : Host) (o : ClientOptions) (servers : List SocketAddress) :
    Nat → Nat → Node → Except CommandError Unit × Node × List LogLine
  | _, 0, n => (.ok (), n, [])
  | index, count + 1, n =>
    match ClientPort.start h index o servers with
    | .error (.system e) => (.error (.setup .client index e), n, [])
    | .error (.oversized (c := c)) =>
      (.error (.oversized (c := c)), n, createdLines o index servers.length)
    | .ok port =>
      let (result, n, log) :=
        startClients h o servers (index + 1) count { n with clients := n.clients ++ [port] }
      (result, n, createdLines o index servers.length ++ log)

/-- What a client command asked for. -/
def clientInfo (o : ClientOptions) (t : ServerTargets) : DumpInfo where
  protocol := o.protocol.name
  workload := o.workload.name
  netBw := o.netBw
  threads := o.ports
  serverNodes := t.hosts.length
  serverPorts := t.ports
  clientMax := o.clientMax

/-- Carry out a client command. The numbers of its ports go from the count of live ports up to the
machine word that this and the ports asked for add up to. -/
def executeClient (h : Host) (n : Node) (c : ClientCommand) : Executed :=
  match c.resolve n.settings.client n.settings.stats with
  | .error e => .failed n (.workload e) []
  | .ok (o, t) =>
    match t.resolve h with
    | .error (.noAddress host e) => .failed n (.unresolved host e) []
    | .error (.oversized (c := c)) => .failed n (.oversized (c := c)) []
    | .ok servers =>
      let first := n.clients.length
      match h.machine.word "add" (first + o.ports) with
      | .error c => .failed n (.oversized (c := c)) []
      | .ok stop =>
        match n.startClients h o servers first (stop - first) with
        | (.error e, n, log) => .failed n e log
        | (.ok (), n, log) => .done { n with lastClient := some (clientInfo o t) }.resetReports log

/-- The port number of a server port: ports follow each other from the lowest one on, unless the
system chooses them. -/
def serverPortNumber (lowest : UInt16) (offset : Nat) : UInt16 :=
  if lowest = 0 then 0 else portAt lowest offset

/-- Start so many server ports, the first at the given offset. -/
def startServers (h : Host) (o : ServerOptions) (lowest : UInt16) :
    Nat → Nat → Node → Except CommandError Unit × Node × List LogLine
  | _, 0, n => (.ok (), n, [])
  | offset, count + 1, n =>
    let index := n.servers.length
    match ServerPort.start h n.servers index (serverPortNumber lowest offset) o with
    | .error (.system e) => (.error (.setup .server index e), n, [])
    | .error (.oversized (c := c)) => (.error (.oversized (c := c)), n, [])
    | .ok port =>
      let (result, n, log) :=
        startServers h o lowest (offset + 1) count { n with servers := n.servers ++ [port] }
      (result, n, port.startedLine o.threads :: log)

/-- Carry out a server command. -/
def executeServer (h : Host) (n : Node) (c : ServerCommand) : Executed :=
  match c.resolve n.settings.server with
  | .error e => .failed n (.setup .server 0 e) []
  | .ok o =>
    let lowest := c.lowestPort n.settings.server
    match n.startServers h o lowest 0 (c.portCount n.settings.server) with
    | (.error e, n, log) => .failed n e log
    | (.ok (), n, log) => .done n.resetReports log

/-- Stop one target. -/
def stop (n : Node) : StopTarget → Node
  | .clients => { n with clients := [] }
  | .senders => { n with clients := n.clients.map ClientPort.stopSender }
  | .servers => { n with servers := [] }

/-- The client ports with new counters. -/
def withStats : List ClientPort → List ClientStats → List ClientPort
  | p :: ports, s :: stats => { p with stats := s } :: withStats ports stats
  | ports, _ => ports

/-- Carry out a dump. -/
def executeDump (file : FileOutcome) (time : String) (n : Node) (path : String) : Executed :=
  let run := Dump.run file time n.dumpInfo n.clientStats
  let n := { n with clients := withStats n.clients run.clients }
  match run.result with
  | .error e => ⟨n, .error (.dump path e), [], run.lines⟩
  | .ok samples =>
    let line : LogLine :=
      { level := .info
        message := "Dumped round-trip times"
        fields := [("file", path), ("samples", Decimal.natText samples)] }
    ⟨n, .ok .continue, [line], run.lines⟩

/-- Carry out a command, given the host, what happens to a file that is written, and the time. -/
def execute (h : Host) (file : String → FileOutcome) (time : String) (n : Node) : Command → Executed
  | .client c => n.executeClient h c
  | .server c => n.executeServer h c
  | .stop targets => .done (targets.foldl stop n).resetReports []
  | .dumpTimes path => n.executeDump (file path) time path
  | .log words => .done n [⟨.info, " ".intercalate words, []⟩]
  | .exit => ⟨n, .ok .exit, [], []⟩

end Node

end EchoLoad
