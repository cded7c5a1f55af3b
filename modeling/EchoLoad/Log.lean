import EchoLoad.Text.Lines

/-!
# Log lines

A log line has a level, a message and named values. It is written as the level, the message, and
`name=value` for each value, between single blanks. Characters of a message that could command a
terminal are spelled out; line breaks are not, so one entry of the log may take several lines.
-/

namespace EchoLoad

inductive LogLevel
  | error
  | warn
  | info
deriving DecidableEq, Repr

def LogLevel.text : LogLevel → String
  | error => "ERROR"
  | warn => "WARN"
  | info => "INFO"

namespace LogLevel

/-- How grave a line of a level is. -/
def gravity : LogLevel → Nat
  | error => 2
  | warn => 1
  | info => 0

/-- Whether lines of a level are shown under a setting; a setting of any other name shows all. -/
def isShown (setting : String) (level : LogLevel) : Bool :=
  match setting.toLower with
  | "off" => false
  | "error" => 2 ≤ level.gravity
  | "warn" => 1 ≤ level.gravity
  | _ => true

end LogLevel

/-- Whether a terminal may take a character for a command: bell, backspace, form feed, escape, delete,
and the control characters beyond ASCII. -/
def commandsTerminal (c : Char) : Bool :=
  c = '\x07' || c = '\x08' || c = '\x0c' || c = '\x1b' || ('\x7f' ≤ c && c ≤ '\x9f')

/-- A character as it is written in a message. -/
def logged (c : Char) : String :=
  if commandsTerminal c then
    let digits := String.ofList (Nat.toDigits 16 c.toNat)
    if c.toNat < 16 then "\\x0" ++ digits
    else if c.toNat < 128 then "\\x" ++ digits
    else "\\u\x7b" ++ digits ++ "\x7d"
  else c.toString

/-- One entry of the log. -/
structure LogLine where
  level : LogLevel
  message : String
  fields : List (String × String)
deriving DecidableEq, Repr

namespace LogLine

/-- The text of an entry. -/
def text (l : LogLine) : String :=
  l.fields.foldl (fun text (name, value) => text ++ " " ++ name ++ "=" ++ value)
    (l.level.text ++ " " ++ String.join (l.message.toList.map logged))

/-- The lines of an entry, each without white space at its ends. -/
def lines (l : LogLine) : List String := (Text.lines (l.text ++ "\n")).map Text.trim

end LogLine

end EchoLoad
