/-!
# Blanks, names and strings of TOML

The smallest parts of a document. Each function takes the characters from its place on and gives what
it read with the characters after it, or nothing if its part does not stand there.
-/

namespace EchoLoad.Toml

/-- What was read, and the characters after it. -/
abbrev Taken (α : Type) := Option (α × List Char)

def isBlank (c : Char) : Bool := c = ' ' || c = '\t'

/-- Control characters other than the tab stand neither in comments nor in strings. -/
def isText (c : Char) : Bool := c = '\t' || (' ' ≤ c && c ≠ '\x7f')

def skipBlanks (cs : List Char) : List Char := cs.dropWhile isBlank

/-- A line break. -/
def newline? : List Char → Option (List Char)
  | '\n' :: rest => some rest
  | '\r' :: '\n' :: rest => some rest
  | _ => none

/-- Skip a comment, if there is one, up to the end of its line. -/
def skipComment : List Char → List Char
  | '#' :: rest => rest.dropWhile isText
  | cs => cs

/-- The end of a line: blanks, a comment, and a line break or the end of the document. -/
def lineEnd? (cs : List Char) : Option (List Char) :=
  match skipComment (skipBlanks cs) with
  | [] => some []
  | cs => newline? cs

/-- Skip blanks, comments and line breaks, at most so many of them. -/
def skipLines : Nat → List Char → List Char
  | 0, cs => cs
  | n + 1, cs =>
    let cs := skipComment (skipBlanks cs)
    match newline? cs with
    | some rest => skipLines n rest
    | none => cs

/-- Skip all blanks, comments and line breaks. -/
def skipSpace (cs : List Char) : List Char := skipLines cs.length cs

def hexValue? (c : Char) : Option Nat :=
  if '0' ≤ c ∧ c ≤ '9' then some (c.toNat - '0'.toNat)
  else if 'a' ≤ c ∧ c ≤ 'f' then some (c.toNat - 'a'.toNat + 10)
  else if 'A' ≤ c ∧ c ≤ 'F' then some (c.toNat - 'A'.toNat + 10)
  else none

/-- The character with the number that some hexadecimal digits stand for. -/
def scalar? (digits : List Char) : Option Char := do
  let values ← digits.mapM hexValue?
  let n := values.foldl (fun n v => 16 * n + v) 0
  if n.isValidChar then some (Char.ofNat n) else none

/-- The character that an escape stands for, after its backslash. -/
def escape? : List Char → Taken Char
  | 'b' :: rest => some ('\x08', rest)
  | 't' :: rest => some ('\t', rest)
  | 'n' :: rest => some ('\n', rest)
  | 'f' :: rest => some ('\x0c', rest)
  | 'r' :: rest => some ('\r', rest)
  | '"' :: rest => some ('"', rest)
  | '\\' :: rest => some ('\\', rest)
  | 'u' :: rest =>
    if rest.length < 4 then none
    else (scalar? (rest.take 4)).map fun c => (c, rest.drop 4)
  | 'U' :: rest =>
    if rest.length < 8 then none
    else (scalar? (rest.take 8)).map fun c => (c, rest.drop 8)
  | _ => none

/-- The text of a string on one line up to its closing quote, after so many characters. -/
def lineString (quote : Char) (escapes : Bool) : Nat → List Char → List Char → Taken String
  | 0, _, _ => none
  | _ + 1, _, [] => none
  | n + 1, got, c :: rest =>
    if c = quote then some (String.ofList got.reverse, rest)
    else if escapes && c = '\\' then
      match escape? rest with
      | some (c, rest) => lineString quote escapes n (c :: got) rest
      | none => none
    else if isText c then lineString quote escapes n (c :: got) rest
    else none

/-- Skip all blanks and line breaks. A carriage return on its own is neither. -/
def skipBreaks : List Char → List Char
  | ' ' :: rest => skipBreaks rest
  | '\t' :: rest => skipBreaks rest
  | '\n' :: rest => skipBreaks rest
  | '\r' :: '\n' :: rest => skipBreaks rest
  | cs => cs

/-- Whether a backslash ends its line; then the text goes on after the blanks and line breaks that
follow. -/
def continuation? (cs : List Char) : Option (List Char) :=
  (newline? (skipBlanks cs)).map skipBreaks

/-- The text of a string on several lines up to its three closing quotes. Of four or five quotes in a
row the first one or two belong to the text. -/
def blockString (quote : Char) (escapes : Bool) : Nat → List Char → List Char → Taken String
  | 0, _, _ => none
  | _ + 1, _, [] => none
  | n + 1, got, c :: rest =>
    if c = quote then
      match rest with
      | c2 :: c3 :: rest' =>
        if c2 = quote ∧ c3 = quote then
          match rest' with
          | c4 :: c5 :: more =>
            if c4 = quote ∧ c5 = quote then
              some (String.ofList (quote :: quote :: got).reverse, more)
            else if c4 = quote then some (String.ofList (quote :: got).reverse, c5 :: more)
            else some (String.ofList got.reverse, rest')
          | [c4] =>
            if c4 = quote then some (String.ofList (quote :: got).reverse, [])
            else some (String.ofList got.reverse, rest')
          | [] => some (String.ofList got.reverse, [])
        else blockString quote escapes n (c :: got) rest
      | _ => none
    else if escapes && c = '\\' then
      match continuation? rest with
      | some rest => blockString quote escapes n got rest
      | none =>
        match escape? rest with
        | some (c, rest) => blockString quote escapes n (c :: got) rest
        | none => none
    else
      match newline? (c :: rest) with
      | some rest => blockString quote escapes n ('\n' :: got) rest
      | none => if isText c then blockString quote escapes n (c :: got) rest else none

/-- A string. Double quotes allow escapes, single quotes do not; three quotes of a kind open a string
on several lines, of which a line break right at the start is not part. -/
def string? (cs : List Char) : Taken String :=
  let block (quote : Char) (rest : List Char) : Taken String :=
    let rest := (newline? rest).getD rest
    blockString quote (quote = '"') (rest.length + 1) [] rest
  match cs with
  | '"' :: '"' :: '"' :: rest => block '"' rest
  | '\'' :: '\'' :: '\'' :: rest => block '\'' rest
  | '"' :: rest => lineString '"' true (rest.length + 1) [] rest
  | '\'' :: rest => lineString '\'' false (rest.length + 1) [] rest
  | _ => none

/-- The characters of a name without quotes. -/
def isNameChar (c : Char) : Bool := c.isAlphanum || c = '_' || c = '-'

/-- A name, with or without quotes; strings on several lines are no names. -/
def name? (cs : List Char) : Taken String :=
  match cs with
  | '"' :: rest => lineString '"' true (rest.length + 1) [] rest
  | '\'' :: rest => lineString '\'' false (rest.length + 1) [] rest
  | _ =>
    let word := cs.takeWhile isNameChar
    if word.isEmpty then none else some (String.ofList word, cs.dropWhile isNameChar)

/-- Names with points between them, and blanks around the points: all but the last, and the last. At
most so many names. -/
def key? : Nat → List Char → Taken (List String × String)
  | 0, _ => none
  | n + 1, cs =>
    match name? cs with
    | none => none
    | some (name, rest) =>
      match skipBlanks rest with
      | '.' :: more =>
        match key? n (skipBlanks more) with
        | some ((path, last), rest) => some ((name :: path, last), rest)
        | none => none
      | rest => some (([], name), rest)

end EchoLoad.Toml
