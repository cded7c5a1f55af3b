import EchoLoad.Transport.Protocol

/-!
# Settings

What a node is told once, when it starts: the values of options that a command leaves out, how
statistics are kept, and how much is logged. Every value has a default, and a settings file may change
any of them.
-/

namespace EchoLoad

/-- The longest frame on a stream, unless a file says otherwise. -/
def defaultFrameLimit : Nat := 16 * 1024 * 1024

/-- Events that are fetched at once, unless a file says otherwise. -/
def defaultBatch : Nat := 64

/-- Values for client commands. -/
structure ClientSettings where
  protocol : Protocol := .native
  ports : Nat := 1
  receivers : Nat := 1
  clientMax : Nat := 1
  hosts : List String := ["127.0.0.1"]
  firstPort : Nat := 4000
  serverPorts : Nat := 1
  netBw : Float := 0.0
  workload : String := "100"
  truncate : Bool := true
  seed : Nat := 12345
  maxFrameLength : Nat := defaultFrameLimit
  batch : Nat := defaultBatch

/-- Values for server commands. -/
structure ServerSettings where
  protocol : Protocol := .native
  bind : String := "0.0.0.0"
  ports : Nat := 1
  firstPort : Nat := 4000
  threads : Nat := 1
  maxConnections : Nat := 10000
  maxFrameLength : Nat := defaultFrameLimit
  batch : Nat := defaultBatch

/-- How statistics are kept. -/
structure StatsSettings where
  /-- milliseconds between reports -/
  interval : Nat := 1000
  /-- samples that each client port keeps -/
  ringCapacity : Nat := 500000
  /-- samples of all ports together that percentiles are taken from -/
  percentileSamples : Nat := 100000

/-- The level of logging when nobody chooses one. -/
def defaultLogLevel : String := "info"

/-- What a settings file holds. -/
structure FileSettings where
  client : ClientSettings := {}
  server : ServerSettings := {}
  stats : StatsSettings := {}
  logLevel : String := defaultLogLevel

/-- The options of the program itself. All words from the first one on that is none of them are the
command. -/
structure NodeOptions where
  /-- the path of a settings file -/
  file : Option String := none
  logLevel : String := defaultLogLevel
  command : List String := []

/-- All that a node is told when it starts. -/
structure Settings where
  client : ClientSettings := {}
  server : ServerSettings := {}
  stats : StatsSettings := {}
  logLevel : String := defaultLogLevel
  /-- a command to run at once; without one, commands are read one after the other -/
  command : List String := []

/-- Join the options of the program and a file. The level of logging is that of the options, unless
it is the default one. -/
def NodeOptions.merge (o : NodeOptions) (file : FileSettings) : Settings :=
  ⟨file.client, file.server, file.stats,
    if o.logLevel ≠ defaultLogLevel then o.logLevel else file.logLevel, o.command⟩

end EchoLoad
