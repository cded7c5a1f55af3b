import EchoLoad.Decimal.Fixed
import EchoLoad.Fault
import EchoLoad.Stats.Client

/-!
# Dumps of round-trip times

A dump writes all samples that the client ports keep to a file, port by port and oldest first, and
empties the rings on the way. Creating the file, each line and the final flush may fail; the rings
of the ports reached by then are empty all the same.
-/

namespace EchoLoad

/-- What the head of a dump says about the run. -/
structure DumpInfo where
  protocol : String
  workload : String
  netBw : Float
  threads : Nat
  serverNodes : Nat
  serverPorts : Nat
  clientMax : Nat

/-- What happens to the file: the error, if any, of creating it, of writing a line by its index, and
of the flush at the end. -/
structure FileOutcome where
  create : Option SystemError
  line : Nat → Option SystemError
  flush : Option SystemError

/-- A file on which everything succeeds. -/
def FileOutcome.good : FileOutcome := ⟨none, fun _ => none, none⟩

/-- A file that cannot be created. -/
def FileOutcome.refused (e : SystemError) : FileOutcome := ⟨some e, fun _ => none, none⟩

/-- A file that can be created and takes nothing. -/
def FileOutcome.failing (e : SystemError) : FileOutcome := ⟨none, fun _ => none, some e⟩

namespace Dump

/-- The lines at the head of a dump made at `time`. -/
def header (time : String) (info : DumpInfo) : List String :=
  ["# Round-trip times measured by rpc-bench at " ++ time,
   "# --protocol " ++ info.protocol ++ ", --workload " ++ info.workload ++ ", --net-bw " ++
     Decimal.fixedText 1 info.netBw ++ " --threads " ++ Decimal.natText info.threads ++ ",",
   "# --server-nodes " ++ Decimal.natText info.serverNodes ++ " --server-ports " ++
     Decimal.natText info.serverPorts ++ ", --client-max " ++ Decimal.natText info.clientMax,
   "# Length   RTT (usec)"]

/-- The line of a sample. -/
def sampleLine (x : Sample) : String :=
  Decimal.padLeft 8 (Decimal.natText x.length.toNat) ++ " " ++
    Decimal.padLeft 12 (Decimal.fixedText 2 (ticksToMicros x.rtt.toNat))

/-- What became of a dump. -/
structure Run where
  /-- the number of samples written, or what failed -/
  result : Except SystemError Nat
  lines : List String
  clients : List ClientStats

/-- Write some lines, the first of them with the given index; stop at the first that fails. -/
def writeLines (file : FileOutcome) : Nat → List String → List String × Option SystemError
  | _, [] => ([], none)
  | index, l :: rest =>
    match file.line index with
    | some e => ([], some e)
    | none =>
      let (written, failed) := writeLines file (index + 1) rest
      (l :: written, failed)

/-- Empty the ports one after the other and write their samples, the next line having the given
index. -/
def writePorts (file : FileOutcome) (index : Nat) : List ClientStats →
    List String × Option SystemError × List ClientStats
  | [] => ([], none, [])
  | c :: rest =>
    let (samples, c) := c.drainSamples
    match writeLines file index (samples.map sampleLine) with
    | (written, some e) => (written, some e, c :: rest)
    | (written, none) =>
      let (more, failed, rest) := writePorts file (index + written.length) rest
      (written ++ more, failed, c :: rest)

/-- Dump the samples of some ports. -/
def run (file : FileOutcome) (time : String) (info : DumpInfo) (clients : List ClientStats) : Run :=
  match file.create with
  | some e => ⟨.error e, [], clients⟩
  | none =>
    match writeLines file 0 (header time info) with
    | (written, some e) => ⟨.error e, written, clients⟩
    | (written, none) =>
      let (samples, failed, clients) := writePorts file written.length clients
      match failed, file.flush with
      | some e, _ => ⟨.error e, written ++ samples, clients⟩
      | none, some e => ⟨.error e, written ++ samples, clients⟩
      | none, none => ⟨.ok samples.length, written ++ samples, clients⟩

/-- The ports with some indexes, one after the other. A port that is named again has no samples left by
then. -/
def chosen (clients : List ClientStats) (indexes : List Nat) : List ClientStats :=
  indexes.zipIdx.filterMap fun (i, k) =>
    (clients[i]?).map fun c => if (indexes.take k).contains i then c.drainSamples.2 else c

/-- Dump the samples of the ports with some indexes; the run holds all ports. -/
def runChosen (file : FileOutcome) (time : String) (info : DumpInfo) (clients : List ClientStats)
    (indexes : List Nat) : Run :=
  let run := run file time info (chosen clients indexes)
  { run with clients := (indexes.zip run.clients).foldl (fun l (i, c) => l.set i c) clients }

end Dump

end EchoLoad
