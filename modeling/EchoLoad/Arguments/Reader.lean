import EchoLoad.Arguments.Grammar

/-!
# Reading argument lists

Words are read from left to right, and the first problem ends the reading. A value given in the same
word as its option, after `=`, takes effect at once. A value in a word of its own does so only when the
next option or a value of the command comes, or when the words end; so an unknown option right behind
it is reported first.
-/

namespace EchoLoad.Arguments

/-- What a word looks like. -/
inductive Shape
  /-- `--` -/
  | separator
  /-- `--name` or `--name=value` -/
  | long (name : String) (value : Option String)
  /-- `-abc`, with at least one character -/
  | cluster (chars : List Char)
  /-- anything else -/
  | plain
deriving DecidableEq, Repr

/-- The shape of a word. -/
def Shape.of (word : String) : Shape :=
  match word.toList with
  | ['-', '-'] => .separator
  | '-' :: '-' :: rest =>
    let name := String.ofList (rest.takeWhile (· ≠ '='))
    match rest.dropWhile (· ≠ '=') with
    | [] => .long name none
    | _ :: value => .long name (some (String.ofList value))
  | '-' :: c :: rest => .cluster (c :: rest)
  | _ => .plain

/-- What was read and has not taken effect. -/
inductive Pending (α : Type)
  | nothing
  /-- an option without its value -/
  | awaiting (option : Named α)
  /-- an option with its value -/
  | valued (option : Named α) (value : String)
  /-- values of the command -/
  | values (words : List String)

/-- A list of words, read up to some place. -/
structure Reading (α : Type) where
  record : α
  /-- the long names of the options that took effect -/
  seen : List String
  pending : Pending α
  /-- whether the command got a value -/
  given : Bool
  /-- whether all words that follow are values -/
  trailing : Bool

namespace Reading

/-- Nothing read yet. -/
def start (record : α) : Reading α := ⟨record, [], .nothing, false, false⟩

/-- An option takes effect on the record, with its value if it takes one. -/
def carryOut (r : Reading α) (o : Named α) (value : String) : Except Refusal (Reading α) :=
  match o.effect with
  | .halt refusal => .error refusal
  | .values add =>
    match add value r.record with
    | .error e => .error e
    | .ok record => .ok { r with record := record, seen := o.long :: r.seen }
  | .value set =>
    if o.long ∈ r.seen then .error .repeated
    else match set value r.record with
      | .error e => .error e
      | .ok record => .ok { r with record := record, seen := o.long :: r.seen }
  | .flag set =>
    if o.long ∈ r.seen then .error .repeated
    else .ok { r with record := set r.record, seen := o.long :: r.seen }

/-- What is pending takes effect. -/
def settle (g : Grammar α) (r : Reading α) : Except Refusal (Reading α) :=
  let r' := { r with pending := .nothing }
  match r.pending with
  | .nothing => .ok r'
  | .awaiting _ => .error .invalidValue
  | .valued o value => r'.carryOut o value
  | .values words =>
    match g.positional with
    | none => .error .unknownArgument
    | some p =>
      match p.set words r.record with
      | .error e => .error e
      | .ok record => .ok { r' with record := record }

/-- An option takes effect after what is pending. -/
def react (g : Grammar α) (r : Reading α) (o : Named α) (value : String) :
    Except Refusal (Reading α) :=
  match r.settle g with
  | .error e => .error e
  | .ok r => r.carryOut o value

/-- An option waits for its value. -/
def await (g : Grammar α) (r : Reading α) (o : Named α) : Except Refusal (Reading α) :=
  match r.settle g with
  | .error e => .error e
  | .ok r => .ok { r with pending := .awaiting o }

/-- Take a word as a value of the command. -/
def push (g : Grammar α) (r : Reading α) (word : String) : Except Refusal (Reading α) :=
  match g.positional with
  | none => .error .unknownArgument
  | some p =>
    if r.given && !p.many then .error .unknownArgument
    else
      match r.pending with
      | .values words =>
        .ok { r with pending := .values (words ++ [word]), trailing := r.trailing || p.verbatim }
      | _ =>
        match r.settle g with
        | .error e => .error e
        | .ok r =>
          .ok { r with
            pending := .values [word], given := true, trailing := r.trailing || p.verbatim }

/-- Take a word as the value of the option that waits for one, or of the command. -/
def take (g : Grammar α) (r : Reading α) (word : String) : Except Refusal (Reading α) :=
  match r.pending with
  | .awaiting o => .ok { r with pending := .valued o word }
  | _ => r.push g word

/-- Read an option with a long name. -/
def readLong (g : Grammar α) (r : Reading α) (word name : String) (value : Option String) :
    Except Refusal (Reading α) :=
  match g.long? name with
  | none => if g.isVerbatim then r.take g word else .error .unknownArgument
  | some o =>
    match value, o.takesValue with
    | some value, true => r.react g o value
    | some _, false => .error .unexpectedValue
    | none, true => r.await g o
    | none, false => r.react g o ""

/-- Read options with short names in one word. The first one that takes a value gets the rest of the
word, without a `=` in front. -/
def readCluster (g : Grammar α) (r : Reading α) : List Char → Except Refusal (Reading α)
  | [] => .ok r
  | c :: rest =>
    match g.short? c with
    | none => .error .unknownArgument
    | some o =>
      if o.takesValue then
        match rest with
        | [] => r.await g o
        | '=' :: value => r.react g o (String.ofList value)
        | value => r.react g o (String.ofList value)
      else
        match r.react g o "" with
        | .error e => .error e
        | .ok r => readCluster g r rest

/-- Read one word. -/
def step (g : Grammar α) (r : Reading α) (word : String) : Except Refusal (Reading α) :=
  if r.trailing then r.push g word
  else match Shape.of word with
    | .separator => .ok { r with trailing := true }
    | .long name value => r.readLong g word name value
    | .cluster chars =>
      if g.isVerbatim && chars.any (fun c => (g.short? c).isNone) then r.take g word
      else r.readCluster g chars
    | .plain => r.take g word

/-- Read some words. -/
def steps (g : Grammar α) : List String → Reading α → Except Refusal (Reading α)
  | [], r => .ok r
  | word :: words, r =>
    match r.step g word with
    | .error e => .error e
    | .ok r => steps g words r

/-- The words end. -/
def finish (g : Grammar α) (r : Reading α) : Except Refusal α :=
  match r.settle g with
  | .error e => .error e
  | .ok r' =>
    match g.positional with
    | some p => if p.required && !r.given then .error .missingArgument else .ok r'.record
    | none => .ok r'.record

end Reading

/-- Read the words of a command into a record. -/
def Grammar.read (g : Grammar α) (start : α) (words : List String) : Except Refusal α :=
  match Reading.steps g words (.start start) with
  | .error e => .error e
  | .ok r => r.finish g

end EchoLoad.Arguments
