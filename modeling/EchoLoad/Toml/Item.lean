/-!
# TOML items

A TOML document is a table: names with items, each name once. How a table came about decides what may
be added to it later, so every table keeps its form: a table written inline is complete, one opened
by a header cannot be opened again, and one that only stands on the way to another may still get a
header of its own.
-/

namespace EchoLoad.Toml

/-- How a table came about. -/
inductive Form
  /-- written between braces -/
  | inline
  /-- opened by a header -/
  | header
  /-- on the way to a table with a longer header -/
  | implied
  /-- on the way to the last part of a dotted key -/
  | dotted
deriving DecidableEq, Repr

/-- What a name may stand for. -/
inductive Item
  | string (text : String)
  | integer (value : Int)
  | real (value : Float)
  | boolean (value : Bool)
  /-- a date, a time, or both; only its form is checked -/
  | moment (text : String)
  | array (items : List Item)
  | table (form : Form) (entries : List (String × Item))
  /-- tables opened one after the other by headers in double brackets -/
  | tables (items : List (List (String × Item)))

/-- The names of a table with their items, in the order in which they were written. -/
abbrev Entries := List (String × Item)

namespace Entries

/-- The item of a name. -/
def get? (entries : Entries) (name : String) : Option Item :=
  (entries.find? fun e => e.1 = name).map (·.2)

/-- The same entries without a name. -/
def erase (entries : Entries) (name : String) : Entries := entries.filter fun e => e.1 ≠ name

/-- The same entries with another item for a name; a new name comes last. -/
def put (entries : Entries) (name : String) (item : Item) : Entries :=
  if entries.any fun e => e.1 = name then
    entries.map fun e => if e.1 = name then (name, item) else e
  else entries ++ [(name, item)]

end Entries

/-- Go down a path of names from a table of a given form and act on the table at its end. Tables that
are missing on the way are made. A table written inline is not entered, and by a dotted key neither is
one with a header; of several tables the last one is meant. -/
def descend (dotted : Bool) (act : Form → Entries → Option (Entries × α)) :
    List String → Form → Entries → Option (Entries × α)
  | [], form, entries => act form entries
  | name :: path, _, entries =>
    match entries.get? name with
    | none => do
      let form := if dotted then Form.dotted else .implied
      let (sub, x) ← descend dotted act path form []
      some (entries.put name (.table form sub), x)
    | some (.table .inline _) => none
    | some (.table form sub) =>
      if dotted && form = .header then none
      else do
        let (sub, x) ← descend dotted act path form sub
        some (entries.put name (.table form sub), x)
    | some (.tables items) => do
      let last ← items.getLast?
      let (sub, x) ← descend dotted act path .header last
      some (entries.put name (.tables (items.dropLast ++ [sub])), x)
    | some _ => none

/-- Add an item under a dotted key. The table that gets it must have come about by dotted keys exactly
if the key is dotted, and must not have the name yet. -/
def addUnder (path : List String) (name : String) (item : Item) (form : Form) (entries : Entries) :
    Option Entries :=
  (descend true (fun form entries =>
    if (form = .dotted) = (path = []) then none
    else if (entries.get? name).isSome then none
    else some (entries ++ [(name, item)], ())) path form entries).map (·.1)

end EchoLoad.Toml
