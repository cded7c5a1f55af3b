import EchoLoad.Toml.Scalar

/-!
# TOML documents

A document is a sequence of lines: names with values, and headers that open the table to which the
names after them belong. `document?` gives the table that a document stands for, or nothing if it is
not well formed, gives a name twice, or opens a table twice.
-/

namespace EchoLoad.Toml

/-- How deep arrays and inline tables may nest, and how many names a dotted key may have. -/
def nestingLimit : Nat := 79

mutual

/-- A value, of which `depth` levels may be nested and `size` bounds the characters left. -/
def value? (depth size : Nat) (cs : List Char) : Taken Item :=
  match cs with
  | '"' :: _ => (string? cs).map fun (s, rest) => (.string s, rest)
  | '\'' :: _ => (string? cs).map fun (s, rest) => (.string s, rest)
  | '[' :: rest =>
    match depth with
    | 0 => none
    | depth + 1 => arrayItems? depth size [] (skipSpace rest)
  | '{' :: rest =>
    match depth with
    | 0 => none
    | depth + 1 =>
      match skipBlanks rest with
      | '}' :: rest => some (.table .inline [], rest)
      | rest => inlineEntries? depth size [] rest
  | _ => scalarItem? cs
termination_by (depth, size, 1)

/-- The values of an array up to its closing bracket, after those read so far. -/
def arrayItems? (depth size : Nat) (got : List Item) (cs : List Char) : Taken Item :=
  match cs, size with
  | ']' :: rest, _ => some (.array got.reverse, rest)
  | _, 0 => none
  | cs, size + 1 =>
    match value? depth size cs with
    | none => none
    | some (item, rest) =>
      match skipSpace rest with
      | ',' :: rest => arrayItems? depth size (item :: got) (skipSpace rest)
      | ']' :: rest => some (.array (item :: got).reverse, rest)
      | _ => none
termination_by (depth, size, 2)

/-- The entries of an inline table up to its closing brace, after those read so far. -/
def inlineEntries? (depth size : Nat) (got : Entries) (cs : List Char) : Taken Item :=
  match size with
  | 0 => none
  | size + 1 =>
    match key? nestingLimit (skipBlanks cs) with
    | some ((path, name), '=' :: rest) =>
      match value? depth size (skipBlanks rest) with
      | none => none
      | some (item, rest) =>
        match addUnder path name item .inline got with
        | none => none
        | some got =>
          match skipBlanks rest with
          | ',' :: rest => inlineEntries? depth size got rest
          | '}' :: rest => some (.table .inline got, rest)
          | _ => none
    | _ => none
termination_by (depth, size, 2)

end

/-- A document read so far: the tables that are complete, and the one that is open with the names of
its header. -/
structure Draft where
  root : Entries
  opened : Entries
  path : List String
  name : String
  /-- whether the header stands in double brackets -/
  several : Bool
  /-- whether there was a header yet -/
  headed : Bool

namespace Draft

/-- The start of a document. -/
def new : Draft := ⟨[], [], [], "", false, false⟩

/-- Complete the open table. -/
def close (d : Draft) : Option Entries :=
  if !d.headed then some d.opened
  else if d.several then
    (descend false (fun _ entries =>
      match entries.get? d.name with
      | none => some (entries.put d.name (.tables [d.opened]), ())
      | some (.tables items) => some (entries.put d.name (.tables (items ++ [d.opened])), ())
      | some _ => none) d.path .header d.root).map (·.1)
  else
    (descend false (fun _ entries =>
      match entries.get? d.name with
      | none => some (entries.put d.name (.table .header d.opened), ())
      | some _ => none) d.path .header d.root).map (·.1)

/-- Open a table by a header. What stood on the way to longer headers is kept; anything else of that
name was there before. -/
def openTable (d : Draft) (path : List String) (name : String) : Option Draft := do
  let root ← d.close
  let (root, opened) ← descend false (fun _ entries =>
    match entries.get? name with
    | none => some (entries, [])
    | some (.table .implied sub) => some (entries.erase name, sub)
    | some _ => none) path .header root
  some ⟨root, opened, path, name, false, true⟩

/-- Open one more of several tables by a header in double brackets. -/
def openElement (d : Draft) (path : List String) (name : String) : Option Draft := do
  let root ← d.close
  let (root, _) ← descend false (fun _ entries =>
    match entries.get? name with
    | none => some (entries, ())
    | some (.tables _) => some (entries, ())
    | some _ => none) path .header root
  some ⟨root, [], path, name, true, true⟩

/-- Add a name with its value to the open table. -/
def add (d : Draft) (path : List String) (name : String) (item : Item) : Option Draft := do
  let opened ← addUnder path name item .header d.opened
  some { d with opened := opened }

end Draft

/-- One line: a header, a name with its value, or nothing but a comment. -/
def line? (d : Draft) (cs : List Char) : Option (Draft × List Char) :=
  match skipBlanks cs with
  | '[' :: '[' :: rest => do
    let ((path, name), rest) ← key? nestingLimit (skipBlanks rest)
    match rest with
    | ']' :: ']' :: rest => do
      let d ← d.openElement path name
      let rest ← lineEnd? rest
      some (d, rest)
    | _ => none
  | '[' :: rest => do
    let ((path, name), rest) ← key? nestingLimit (skipBlanks rest)
    match rest with
    | ']' :: rest => do
      let d ← d.openTable path name
      let rest ← lineEnd? rest
      some (d, rest)
    | _ => none
  | cs =>
    match lineEnd? cs with
    | some rest => some (d, rest)
    | none => do
      let ((path, name), rest) ← key? nestingLimit cs
      match rest with
      | '=' :: rest => do
        let (item, rest) ← value? nestingLimit rest.length (skipBlanks rest)
        let d ← d.add path name item
        let rest ← lineEnd? rest
        some (d, rest)
      | _ => none

/-- The lines of a document, at most so many. -/
def lines? : Nat → Draft → List Char → Option Draft
  | 0, _, _ => none
  | _, d, [] => some d
  | n + 1, d, cs =>
    match line? d cs with
    | some (d, rest) => lines? n d rest
    | none => none

/-- The table that a document stands for. A byte order mark in front is skipped. -/
def document? (text : String) : Option Entries := do
  let cs := match text.toList with | '\ufeff' :: rest => rest | cs => cs
  let d ← lines? (cs.length + 1) .new cs
  d.close

end EchoLoad.Toml
