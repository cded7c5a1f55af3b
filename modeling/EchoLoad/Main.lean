import EchoLoad.Node.Program
import Std.Time.Format

/-!
# The command line

The outermost layer: words and lines come in, log lines and errors go out, dumps are written to files,
and time passes. The sockets are those of an isolated host. What is done with all this is decided
elsewhere.
-/

namespace EchoLoad.CommandLine

/-- The system's error behind a failure. -/
def systemError : IO.Error → SystemError
  | .noFileOrDirectory _ code _ => .ofCode code.toNat
  | .permissionDenied _ code _ => .ofCode code.toNat
  | .inappropriateType _ code _ => .ofCode code.toNat
  | .invalidArgument _ code _ => .ofCode code.toNat
  | .resourceExhausted _ code _ => .ofCode code.toNat
  | .alreadyExists _ code _ => .ofCode code.toNat
  | .otherError code _ => .ofCode code.toNat
  | e => .described .other e.toString

/-- The sockets of the program. -/
def host : Host := .isolated

/-- Show the lines of a log that the settings admit. -/
def showLog (settings : Settings) (lines : List LogLine) : IO Unit :=
  for l in lines do
    if l.level.isShown settings.logLevel then IO.println l.text

/-- The local time as it stands in dumps. -/
def timeText : IO String := do
  let now ← Std.Time.PlainDateTime.now
  pure (now.format "uuuu-MM-dd HH:mm:ss")

/-- Write the lines of a dump; a file that cannot be opened is told to the dump beforehand. -/
def dumpTo (n : Node) (path : String) : IO Executed := do
  let time ← timeText
  let command := Command.dumpTimes path
  match ← (IO.FS.Handle.mk path .write).toBaseIO with
  | .error e => pure (n.execute host (fun _ => .refused (systemError e)) time command)
  | .ok file =>
    let done := n.execute host (fun _ => .good) time command
    match ← (file.putStr (Text.ofLines done.dumped)).toBaseIO with
    | .ok () => pure done
    | .error e => pure { done with result := .error (.dump path (systemError e)), log := [] }

/-- Carry out a command. -/
def carryOut (n : Node) (c : Command) : IO Executed := do
  let done ← match c with
    | .dumpTimes path => dumpTo n path
    | c => pure (n.execute host (fun _ => .good) "" c)
  showLog n.settings done.log
  pure done

/-- Report again and again, at the interval of the settings. -/
partial def reportForever (n : Node) : IO Unit := do
  IO.sleep (UInt32.ofNat (max n.settings.stats.interval 1))
  let (made, n) := n.report (← IO.monoNanosNow)
  if let some report := made then showLog n.settings report.lines
  reportForever n

/-- Carry out the command that the program was started with. -/
def runStartup (n : Node) : IO UInt32 :=
  match Command.ofWords n.settings.command with
  | .error refusal => pure (UInt32.ofNat refusal.exitCode)
  | .ok c => do
    let done ← carryOut n c
    match Reaction.toStartup done.result with
    | .ends code => pure (UInt32.ofNat code)
    | .continues _ => do
      reportForever done.node
      pure 0

/-- Carry out commands from the input, one a line. -/
partial def runLines (input : IO.FS.Stream) (n : Node) : IO UInt32 := do
  let line ← input.getLine
  if line.isEmpty then pure 0
  else
    match Text.words line with
    | [] => runLines input n
    | words =>
      match Command.ofWords words with
      | .error _ => runLines input n
      | .ok c =>
        let done ← carryOut n c
        match Reaction.toLine done.result with
        | .ends code => pure (UInt32.ofNat code)
        | .continues said => do
          if let some text := said then IO.eprintln text
          runLines input done.node

/-- Run the program with some words. -/
def start (args : List String) : IO UInt32 :=
  match NodeOptions.ofWords args with
  | .error refusal => pure (UInt32.ofNat refusal.exitCode)
  | .ok o => do
    let read ← match o.file with
      | none => pure (.ok "")
      | some path =>
        match ← (IO.FS.readFile path).toBaseIO with
        | .ok text => pure (.ok text)
        | .error e => pure (.error (systemError e))
    match Settings.load o fun _ => read with
    | .error e => do
      IO.eprintln ("Error: " ++ e.message)
      pure 1
    | .ok settings => do
      showLog settings [settings.startLine]
      let n := Node.new settings
      if settings.command.isEmpty then runLines (← IO.getStdin) n else runStartup n

end EchoLoad.CommandLine

def main (args : List String) : IO UInt32 := EchoLoad.CommandLine.start args
