import EchoLoad.Framing.Framer
import EchoLoad.Stats.Server
import EchoLoad.Stream.Trigger

/-!
# Connections of a stream server

A server connection sends every frame back that it reads. What the peer does not take at once waits in
the queue of the connection; while something waits there, the connection asks to be told when it can
write. `handle` is what a worker does about one notice.
-/

namespace EchoLoad.Stream

open Framing

/-- What a connection wants to be told. -/
inductive Interest
  /-- that there is something to read -/
  | read
  /-- that, and that there is room to write -/
  | readWrite
deriving DecidableEq, Repr

/-- An accepted connection. -/
structure Connection where
  framer : Framer
  interest : Interest
deriving DecidableEq, Repr

/-- A fresh connection that takes frames of at most `limit` bytes. -/
def Connection.new (limit : Nat) : Connection := ⟨.new limit, .read⟩

/-- What sending some frames led to. -/
structure EchoRun where
  outbound : Outbound
  stats : ServerStats
  /-- the bytes that the socket took -/
  written : Bytes
  /-- whether some frame was not written at once, or the error that ended the sending -/
  result : Except SystemError Bool
  /-- the write outcomes that were not used -/
  unused : List WriteOutcome

/-- Count some frames and send each of them back, given the outcomes of the writes. -/
def echo (outbound : Outbound) (stats : ServerStats) : List Frame → List WriteOutcome → EchoRun
  | [], script => ⟨outbound, stats, [], .ok false, script⟩
  | f :: frames, script =>
    let stats := stats.record f.length
    let run := outbound.enqueue f script
    match run.result with
    | .error e => ⟨run.outbound, stats, run.written, .error e, run.unused⟩
    | .ok complete =>
      let later := echo run.outbound stats frames run.unused
      { later with
        written := run.written ++ later.written
        result := later.result.map fun backedUp => !complete || backedUp }

/-- What handling a notice led to. -/
structure Handled where
  connection : Connection
  stats : ServerStats
  /-- the bytes that the socket took -/
  written : Bytes
  /-- whether the connection is to be closed, or the error that ends the worker -/
  result : Except SystemError Bool
  /-- the outcomes of reads that were not used -/
  unread : List ReadOutcome
  /-- the outcomes of writes that were not used -/
  unused : List WriteOutcome

namespace Connection

/-- Write what waits; when nothing is left, writing is of no interest any more. -/
def resume (c : Connection) (stats : ServerStats) (reads : List ReadOutcome)
    (script : List WriteOutcome) : Handled :=
  let run := c.framer.outbound.drain script
  let c := { c with framer := { c.framer with outbound := run.outbound } }
  match run.result with
  | .error e => ⟨c, stats, run.written, .error e, reads, run.unused⟩
  | .ok true => ⟨{ c with interest := .read }, stats, run.written, .ok false, reads, run.unused⟩
  | .ok false => ⟨c, stats, run.written, .ok false, reads, run.unused⟩

/-- Read, send back what was read, and say whether to close. Frames that a read completed before it
failed are still sent back. -/
def readAndEcho (c : Connection) (mode : ReadMode) (stats : ServerStats) (reads : List ReadOutcome)
    (script : List WriteOutcome) : Handled :=
  let got := c.framer.inbound.read mode reads
  let sent := echo c.framer.outbound stats got.frames script
  let c := { c with framer := ⟨got.inbound, sent.outbound⟩ }
  match sent.result with
  | .error e => ⟨c, sent.stats, sent.written, .error e, got.unread, sent.unused⟩
  | .ok backedUp =>
    let c := if backedUp then { c with interest := .readWrite } else c
    let close := match got.result with | .ok _ => false | .error _ => true
    ⟨c, sent.stats, sent.written, .ok close, got.unread, sent.unused⟩

/-- Handle a notice, given the outcomes of the reads and writes. -/
def handle (c : Connection) (mode : ReadMode) (stats : ServerStats) (notice : Notice)
    (reads : List ReadOutcome) (script : List WriteOutcome) : Handled :=
  let first :=
    if notice.asksToRead then c.readAndEcho mode stats reads script
    else ⟨c, stats, [], .ok false, reads, script⟩
  match first.result with
  | .ok false =>
    if notice.writable then
      let second := first.connection.resume first.stats first.unread first.unused
      { second with written := first.written ++ second.written }
    else first
  | _ => first

end Connection

end EchoLoad.Stream
