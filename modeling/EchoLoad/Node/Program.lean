import EchoLoad.Command.Words
import EchoLoad.Files.Directory
import EchoLoad.Node.Execute
import EchoLoad.Settings.File
import EchoLoad.Text.Lines

/-!
# The program

The program is started with options and perhaps a command. It reads its settings and carries out the
command; after that it reports until it is ended from outside. Without a command it reads commands, one
a line, until one of them ends it, a command fails for good, or there are no more lines. What is wrong
with a line and does not end the program is said on the error output.

The decisions are made here, and `Program.run` goes through a whole run in a directory of files.
-/

namespace EchoLoad

/-- What follows a command. -/
inductive Reaction
  /-- the program ends with a code -/
  | ends (code : Nat)
  /-- it goes on, after saying something on the error output or nothing -/
  | continues (said : Option String)
deriving DecidableEq, Repr

/-- What follows the command that the program was started with; any failure ends it. -/
def Reaction.toStartup : Except CommandError Flow → Reaction
  | .ok .continue => .continues none
  | .ok .exit => .ends 0
  | .error e => .ends e.exitCode

/-- What follows a command from a line. -/
def Reaction.toLine : Except CommandError Flow → Reaction
  | .ok .continue => .continues none
  | .ok .exit => .ends 0
  | .error e => if e.isFatal then .ends e.exitCode else .continues (some e.message)

/-- The settings for some options, given how the settings file was read. -/
def Settings.load (o : NodeOptions) (read : String → Except SystemError String) :
    Except SettingsError Settings :=
  match o.file with
  | none => .ok (o.merge {})
  | some path =>
    match read path with
    | .error e => .error (.unreadable path e)
    | .ok text =>
      match FileSettings.ofText? text with
      | none => .error (.malformed path)
      | some file => .ok (o.merge file)

/-- The log line of a program that has its settings. -/
def Settings.startLine (s : Settings) : LogLine where
  level := .info
  message := "Starting rpc-bench"
  fields :=
    [("client_protocol", s.client.protocol.name), ("server_protocol", s.server.protocol.name),
     ("report_interval_ms", Decimal.natText s.stats.interval)]

/-- A program at work. -/
structure Program where
  node : Node
  files : Directory
  /-- what was said on the error output, line by line -/
  said : List String
  log : List LogLine

namespace Program

/-- What happens to a file that is written in a directory. -/
def fileOutcome (d : Directory) (path : String) : FileOutcome :=
  match d.target path with
  | .error e => .refused e
  | .ok .full => .failing Directory.noSpace
  | .ok _ => .good

/-- Carry out a command in a directory. -/
def execute (h : Host) (time : String) (p : Program) (c : Command) :
    Except CommandError Flow × Program :=
  let done := p.node.execute h (fileOutcome p.files) time c
  let files := match c with
    | .dumpTimes path => p.files.write path (Text.ofLines done.dumped)
    | _ => p.files
  (done.result, { p with node := done.node, files := files, log := p.log ++ done.log })

/-- How a run ends: the exit code, if it ends by itself, and what it leaves. -/
structure Ending where
  code : Option Nat
  said : List String
  files : Directory

/-- Say some texts on the error output, each with a line feed after it. -/
def say (p : Program) (texts : List String) : Program :=
  { p with said := p.said ++ Text.lines (Text.ofLines texts) }

/-- The program ends. -/
def stop (p : Program) (code : Option Nat) : Ending := ⟨code, p.said, p.files⟩

/-- Carry out the command that the program was started with. -/
def runStartup (h : Host) (time : String) (p : Program) (words : List String) : Ending :=
  match Command.ofWords words with
  | .error refusal => p.stop (some refusal.exitCode)
  | .ok c =>
    let (result, p) := p.execute h time c
    match Reaction.toStartup result with
    | .ends code => p.stop (some code)
    | .continues _ => p.stop none

/-- Carry out the commands of some lines. A line without words is passed over, and so is one that is
no command. -/
def runLines (h : Host) (time : String) : Program → List String → Ending
  | p, [] => p.stop (some 0)
  | p, line :: lines =>
    match Text.words line with
    | [] => runLines h time p lines
    | words =>
      match Command.ofWords words with
      | .error _ => runLines h time p lines
      | .ok c =>
        let (result, p) := p.execute h time c
        match Reaction.toLine result with
        | .ends code => p.stop (some code)
        | .continues said => runLines h time (p.say said.toList) lines

/-- What the settings file of a path holds, given the input of the program, which may be that file. -/
def readSettings (files : Directory) (input path : String) : Except SystemError String :=
  if files.isInput path then .ok input else files.read path

/-- The input that is left for commands when the settings were read. -/
def inputLeft (files : Directory) (o : NodeOptions) (input : String) : String :=
  if (o.file.map files.isInput).getD false then "" else input

/-- A whole run, given the words that the program is started with, the text of its input, and the
files of its directory. -/
def run (h : Host) (time : String) (args : List String) (input : String) (files : Directory) :
    Ending :=
  match NodeOptions.ofWords args with
  | .error refusal => ⟨some refusal.exitCode, [], files⟩
  | .ok o =>
    match Settings.load o (readSettings files input) with
    | .error _ => ⟨some 1, [], files⟩
    | .ok settings =>
      let input := inputLeft files o input
      let p : Program := ⟨.new settings, files, [], [settings.startLine]⟩
      if settings.command.isEmpty then runLines h time p (Text.lines input)
      else runStartup h time p settings.command

end Program

end EchoLoad
