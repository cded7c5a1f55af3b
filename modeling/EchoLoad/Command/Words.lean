import EchoLoad.Arguments.Reader
import EchoLoad.Arguments.Value
import EchoLoad.Command.Basic
import EchoLoad.Settings.Basic

/-!
# The words of commands

The grammars of the commands, and of the options of the program itself. `Command.ofWords` reads a
command, `NodeOptions.ofWords` the words that the program was started with.
-/

namespace EchoLoad

open Arguments

namespace ClientCommand

/-- The option that names hosts; it may stand more than once. -/
def hostsOption : Named ClientCommand :=
  ⟨"server-hosts", none, .values fun text c =>
    .ok { c with hosts := some (c.hosts.getD [] ++ Text.fieldsOf ',' text) }⟩

def grammar : Grammar ClientCommand where
  positional := none
  named :=
    [ .reading "protocol" none (Value.choice (Protocol.ofName? false)) fun x c =>
        { c with protocol := some x },
      .reading "ports" none Value.count fun x c => { c with ports := some x },
      .reading "port-receivers" none Value.count fun x c => { c with receivers := some x },
      .reading "client-max" none (Value.upTo (UInt32.size - 1)) fun x c => { c with clientMax := some x },
      hostsOption,
      .reading "first-port" none (Value.upTo (UInt16.size - 1)) fun x c => { c with firstPort := some x },
      .reading "server-ports" none Value.count fun x c => { c with serverPorts := some x },
      .reading "net-bw" none (Value.number Decimal.double?) fun x c => { c with netBw := some x },
      .reading "workload" none .ok fun x c => { c with workload := some x },
      ⟨"no-trunc", none, .flag fun c => { c with noTruncate := true }⟩,
      .reading "seed" none Value.count fun x c => { c with seed := some x },
      .help ]

end ClientCommand

namespace ServerCommand

def grammar : Grammar ServerCommand where
  positional := none
  named :=
    [ .reading "protocol" none (Value.choice (Protocol.ofName? false)) fun x c =>
        { c with protocol := some x },
      .reading "ports" none Value.count fun x c => { c with ports := some x },
      .reading "first-port" none (Value.upTo (UInt16.size - 1)) fun x c => { c with firstPort := some x },
      .reading "port-threads" none Value.count fun x c => { c with threads := some x },
      .help ]

end ServerCommand

namespace StopTarget

/-- One target or more. -/
def grammar : Grammar (List StopTarget) where
  named := [.help]
  positional := some
    { required := true, many := true, verbatim := false
      set := fun words targets => (words.mapM (Value.choice ofName?)).map (targets ++ ·) }

end StopTarget

/-- One file. -/
def fileGrammar : Grammar String where
  named := [.help]
  positional := some
    { required := true, many := false, verbatim := false
      set := fun words file =>
        match words with
        | [] => .ok file
        | word :: _ => Value.path word }

/-- One word or more, kept as they are. -/
def messageGrammar : Grammar (List String) where
  named := [.help]
  positional := some
    { required := true, many := true, verbatim := true
      set := fun words message => .ok (message ++ words) }

/-- Nothing. -/
def emptyGrammar : Grammar Unit := ⟨[.help], none⟩

namespace Command

/-- The names of the commands, with how the words after the name are read. -/
def readers : List (String × (List String → Except Refusal Command)) :=
  [ ("client", fun words => (ClientCommand.grammar.read {} words).map .client),
    ("server", fun words => (ServerCommand.grammar.read {} words).map .server),
    ("stop", fun words => (StopTarget.grammar.read [] words).map .stop),
    ("dump-times", fun words => (fileGrammar.read "" words).map .dumpTimes),
    ("log", fun words => (messageGrammar.read [] words).map .log),
    ("exit", fun words => (emptyGrammar.read () words).map fun _ => .exit) ]

/-- The reader of a command. -/
def reader? (name : String) : Option (List String → Except Refusal Command) :=
  (readers.find? fun r => r.1 = name).map (·.2)

/-- The answer to a request for help on something: the commands and help itself are known, and they
have nothing below them. -/
def helpOn : List String → Refusal
  | [] => .help
  | [name] => if name = "help" ∨ (reader? name).isSome then .help else .unknownCommand
  | _ => .unknownCommand

/-- The answer to a first word that names no command. -/
def refuse (word : String) : Refusal :=
  match Shape.of word with
  | .long name value =>
    if name = "help" then if value.isSome then .unexpectedValue else .help else .unknownArgument
  | .cluster chars => if chars.head? = some 'h' then .help else .unknownArgument
  | _ => .unknownCommand

/-- Read a command. -/
def ofWords : List String → Except Refusal Command
  | [] => .error .missingCommand
  | ["--"] => .error .missingCommand
  | "--" :: word :: _ =>
    if word = "help" ∨ (reader? word).isSome then .error .unknownArgument
    else .error .unknownCommand
  | "help" :: words => .error (helpOn words)
  | word :: words =>
    match reader? word with
    | some read => read words
    | none => .error (refuse word)

end Command

namespace NodeOptions

/-- The options of the program, and the words of its command. -/
def grammar : Grammar NodeOptions where
  named :=
    [ .reading "config" (some 'c') Value.path fun x o => { o with file := some x },
      .reading "log-level" none .ok fun x o => { o with logLevel := x },
      .help,
      ⟨"version", some 'V', .halt .version⟩ ]
  positional := some
    { required := false, many := true, verbatim := true
      set := fun words o => .ok { o with command := o.command ++ words } }

/-- Read the words that the program was started with. -/
def ofWords (words : List String) : Except Refusal NodeOptions := grammar.read {} words

end NodeOptions

end EchoLoad
