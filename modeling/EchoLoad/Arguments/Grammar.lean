/-!
# Grammars of argument lists

The words of a command are options, which have names, and values, which stand on their own. A grammar
lists the options that a command knows and says what values it takes; each part says how it changes
the record that the words are read into. How words are told apart is the matter of the reader.
-/

namespace EchoLoad.Arguments

/-- Why a list of words is not carried out. -/
inductive Refusal
  /-- help was asked for -/
  | help
  /-- the version was asked for -/
  | version
  /-- there is no word at all -/
  | missingCommand
  /-- the first word is no command -/
  | unknownCommand
  /-- an option or a value that nothing takes -/
  | unknownArgument
  /-- a value that is none of those allowed, or is missing -/
  | invalidValue
  /-- a value that is no number of its type -/
  | badNumber
  /-- a value for an option that takes none -/
  | unexpectedValue
  /-- an option that may stand once stands twice -/
  | repeated
  /-- a value that must be there is not -/
  | missingArgument
deriving DecidableEq, Repr

/-- The exit code of a program that ends with a refusal: to show what was asked for is no failure. -/
def Refusal.exitCode : Refusal → Nat
  | .help | .version => 0
  | _ => 2

/-- What an option does to the record. -/
inductive Effect (α : Type)
  /-- It takes a value and may stand once. -/
  | value (set : String → α → Except Refusal α)
  /-- It takes a value each time it stands. -/
  | values (add : String → α → Except Refusal α)
  /-- It takes no value and may stand once. -/
  | flag (set : α → α)
  /-- It takes no value and ends the reading. -/
  | halt (refusal : Refusal)

/-- An option: `--long`, and `-c` if it has a short name. -/
structure Named (α : Type) where
  long : String
  short : Option Char
  effect : Effect α

namespace Named

/-- Whether an option takes a value. -/
def takesValue (o : Named α) : Bool :=
  match o.effect with
  | .value _ | .values _ => true
  | .flag _ | .halt _ => false

/-- An option whose value is read by `read` and put into the record. -/
def reading (long : String) (short : Option Char) (read : String → Except Refusal β)
    (put : β → α → α) : Named α :=
  ⟨long, short, .value fun text record => (read text).map fun x => put x record⟩

/-- The option that asks for help. -/
def help : Named α := ⟨"help", some 'h', .halt .help⟩

end Named

/-- The values of a command. -/
structure Positional (α : Type) where
  required : Bool
  /-- whether there may be more than one -/
  many : Bool
  /-- whether all words from the first value on are values, and what is no known option is the first
  value even if it looks like one -/
  verbatim : Bool
  set : List String → α → Except Refusal α

/-- What a command takes. -/
structure Grammar (α : Type) where
  named : List (Named α)
  positional : Option (Positional α)

namespace Grammar

/-- The option with a long name. -/
def long? (g : Grammar α) (name : String) : Option (Named α) := g.named.find? fun o => o.long = name

/-- The option with a short name. -/
def short? (g : Grammar α) (c : Char) : Option (Named α) := g.named.find? fun o => o.short = some c

/-- Whether words with hyphens in front can be values. -/
def isVerbatim (g : Grammar α) : Bool :=
  match g.positional with
  | some p => p.verbatim
  | none => false

end Grammar

end EchoLoad.Arguments
