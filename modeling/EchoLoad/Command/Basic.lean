import EchoLoad.Transport.Protocol

/-!
# Commands

A node is told what to do by commands. The options of the commands that start ports may be left out;
the settings say what they are then.
-/

namespace EchoLoad

/-- The options of a command that starts client ports. -/
structure ClientCommand where
  protocol : Option Protocol := none
  ports : Option Nat := none
  receivers : Option Nat := none
  clientMax : Option Nat := none
  hosts : Option (List String) := none
  firstPort : Option Nat := none
  serverPorts : Option Nat := none
  netBw : Option Float := none
  workload : Option String := none
  noTruncate : Bool := false
  seed : Option Nat := none

/-- The options of a command that starts server ports. -/
structure ServerCommand where
  protocol : Option Protocol := none
  ports : Option Nat := none
  firstPort : Option Nat := none
  threads : Option Nat := none
deriving DecidableEq, Repr

/-- What can be stopped. -/
inductive StopTarget
  | clients
  /-- the senders of the clients; responses are still collected -/
  | senders
  | servers
deriving DecidableEq, Repr

namespace StopTarget

def name : StopTarget → String
  | clients => "clients"
  | senders => "senders"
  | servers => "servers"

def all : List StopTarget := [clients, senders, servers]

/-- The target with a name. -/
def ofName? (text : String) : Option StopTarget := all.find? fun t => t.name = text

theorem ofName?_name (t : StopTarget) : ofName? t.name = some t := by cases t <;> decide

end StopTarget

inductive Command
  /-- start client ports -/
  | client (options : ClientCommand)
  /-- start server ports -/
  | server (options : ServerCommand)
  /-- stop what runs, one target after the other -/
  | stop (targets : List StopTarget)
  /-- write the samples that the client ports keep to a file -/
  | dumpTimes (file : String)
  /-- write a message to the log -/
  | log (words : List String)
  | exit

end EchoLoad
