import EchoLoad.Fault
import EchoLoad.Settings.Basic
import EchoLoad.Toml.Document

/-!
# Settings files

A settings file is a TOML document with the sections `client`, `server`, `stats` and `logging`. A
section is a table, or an array that gives the values in the order of the fields; what it leaves out
keeps its default, and names that are not known are skipped. A value of the wrong kind or out of range
makes the whole file unreadable.
-/

namespace EchoLoad

open Toml (Item)

/-- One value of a section: its name, and how an item changes the section. -/
structure Field (α : Type) where
  name : String
  set : Item → α → Option α

namespace Field

/-- A field whose items are read by `read?`. -/
def of (name : String) (read? : Item → Option β) (put : β → α → α) : Field α :=
  ⟨name, fun item section' => (read? item).map fun x => put x section'⟩

/-- Set the fields that the entries of a table name, one after the other. -/
def setNamed (fields : List (Field α)) : Toml.Entries → α → Option α
  | [], x => some x
  | (name, item) :: rest, x =>
    match fields.find? fun f => f.name = name with
    | none => setNamed fields rest x
    | some f =>
      match f.set item x with
      | none => none
      | some x => setNamed fields rest x

/-- Set the fields in order, as far as there are items. -/
def setInOrder : List (Field α) → List Item → α → Option α
  | f :: fields, item :: items, x =>
    match f.set item x with
    | none => none
    | some x => setInOrder fields items x
  | _, _, x => some x

/-- Change a section by an item. A date holds no name that a section knows. -/
def apply (fields : List (Field α)) (item : Item) (start : α) : Option α :=
  match item with
  | .table _ entries => setNamed fields entries start
  | .array items => setInOrder fields items start
  | .tables items => setInOrder fields (items.map (.table .header)) start
  | .moment _ => some start
  | _ => none

end Field

namespace SettingsFile

/-- A whole number from 0 to `high`. -/
def natural? (high : Nat) : Item → Option Nat
  | .integer n => if 0 ≤ n ∧ n ≤ high then some n.toNat else none
  | _ => none

/-- A count of things in memory. -/
def count? : Item → Option Nat := natural? (UInt64.size - 1)

def text? : Item → Option String
  | .string s => some s
  | _ => none

def truth? : Item → Option Bool
  | .boolean b => some b
  | _ => none

/-- A real number; whole numbers are real. -/
def real? : Item → Option Float
  | .real x => some x
  | .integer n => some (Float.ofInt n)
  | _ => none

def texts? : Item → Option (List String)
  | .array items => items.mapM text?
  | _ => none

/-- Whether an item holds nothing. -/
def isEmpty : Item → Bool
  | .array items => items.isEmpty
  | .table _ entries => entries.isEmpty
  | .tables items => items.isEmpty
  | _ => false

/-- The name of a protocol, alone or as the only name of a table that says nothing about it. -/
def protocol? : Item → Option Protocol
  | .string s => Protocol.ofName? false s
  | .table _ [(name, item)] => if isEmpty item then Protocol.ofName? false name else none
  | _ => none

/-- The fields of the section `client`. -/
def clientFields : List (Field ClientSettings) :=
  [ .of "protocol" protocol? fun x s => { s with protocol := x },
    .of "ports" count? fun x s => { s with ports := x },
    .of "port_receivers" count? fun x s => { s with receivers := x },
    .of "client_max" (natural? (UInt32.size - 1)) fun x s => { s with clientMax := x },
    .of "server_hosts" texts? fun x s => { s with hosts := x },
    .of "first_port" (natural? (UInt16.size - 1)) fun x s => { s with firstPort := x },
    .of "server_ports" count? fun x s => { s with serverPorts := x },
    .of "net_bw" real? fun x s => { s with netBw := x },
    .of "workload" text? fun x s => { s with workload := x },
    .of "truncate" truth? fun x s => { s with truncate := x },
    .of "seed" count? fun x s => { s with seed := x },
    .of "max_frame_len" count? fun x s => { s with maxFrameLength := x },
    .of "batch_size" count? fun x s => { s with batch := x } ]

/-- The fields of the section `server`. -/
def serverFields : List (Field ServerSettings) :=
  [ .of "protocol" protocol? fun x s => { s with protocol := x },
    .of "bind" text? fun x s => { s with bind := x },
    .of "ports" count? fun x s => { s with ports := x },
    .of "first_port" (natural? (UInt16.size - 1)) fun x s => { s with firstPort := x },
    .of "port_threads" count? fun x s => { s with threads := x },
    .of "max_connections" count? fun x s => { s with maxConnections := x },
    .of "max_frame_len" count? fun x s => { s with maxFrameLength := x },
    .of "batch_size" count? fun x s => { s with batch := x } ]

/-- The fields of the section `stats`. -/
def statsFields : List (Field StatsSettings) :=
  [ .of "interval_ms" count? fun x s => { s with interval := x },
    .of "ring_capacity" count? fun x s => { s with ringCapacity := x },
    .of "cdf_samples" count? fun x s => { s with percentileSamples := x } ]

/-- The fields of the section `logging`. -/
def loggingFields : List (Field String) := [.of "level" text? fun x _ => x]

/-- The sections. -/
def sections : List (Field FileSettings) :=
  [ ⟨"client", fun i s => (Field.apply clientFields i s.client).map fun c => { s with client := c }⟩,
    ⟨"server", fun i s => (Field.apply serverFields i s.server).map fun c => { s with server := c }⟩,
    ⟨"stats", fun i s => (Field.apply statsFields i s.stats).map fun c => { s with stats := c }⟩,
    ⟨"logging", fun i s =>
      (Field.apply loggingFields i s.logLevel).map fun c => { s with logLevel := c }⟩ ]

end SettingsFile

/-- Read the text of a settings file. -/
def FileSettings.ofText? (text : String) : Option FileSettings :=
  match Toml.document? text with
  | none => none
  | some entries => Field.setNamed SettingsFile.sections entries {}

/-- Why there are no settings from a file. -/
inductive SettingsError
  /-- the file cannot be read -/
  | unreadable (path : String) (error : SystemError)
  /-- its text holds no settings -/
  | malformed (path : String)
deriving DecidableEq, Repr

/-- The text of the error, up to the place where the reader of the text says what it found. -/
def SettingsError.message : SettingsError → String
  | unreadable path e => "Failed to read config file '" ++ path ++ "': " ++ e.text
  | malformed path => "Failed to parse config file '" ++ path ++ "': "

end EchoLoad
