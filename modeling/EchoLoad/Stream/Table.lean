import EchoLoad.Fault

/-!
# Tables of connections

A table gives every connection a token. The token that was freed last is given out again first; only
if none is free a new one is made. A table never holds more than `limit` connections.
-/

namespace EchoLoad.Stream

/-- Connections by token. -/
structure Table (α : Type) where
  limit : Nat
  slots : Array (Option α)
  /-- tokens that were freed and not given out again, the last one first -/
  free : List Nat
deriving Repr

namespace Table

/-- An empty table. -/
def new (limit : Nat) : Table α := ⟨limit, #[], []⟩

/-- Connections in the table. -/
def live (t : Table α) : Nat := t.slots.countP Option.isSome

/-- The token that the next connection gets. -/
def nextToken (t : Table α) : Nat := t.free.headD t.slots.size

/-- Put a connection into the slot of a token, or into a new slot. -/
def fill (t : Table α) (token : Nat) (x : α) : Table α :=
  if token < t.slots.size then { t with slots := t.slots.setIfInBounds token (some x) }
  else { t with slots := t.slots.push (some x) }

/-- Insert a connection made for a token, which may fail. A full table takes none; that is no
failure. -/
def insert (t : Table α) (make : Nat → Except SystemError α) :
    Except SystemError (Option Nat) × Table α :=
  if t.limit ≤ t.live then (.ok none, t)
  else
    match make t.nextToken with
    | .error e => (.error e, t)
    | .ok x => (.ok (some t.nextToken), { t.fill t.nextToken x with free := t.free.tail })

/-- The connection with a token. -/
def get? (t : Table α) (token : Nat) : Option α := (t.slots[token]?).join

/-- Take the connection with a token out of the table. -/
def remove (t : Table α) (token : Nat) : Option α × Table α :=
  match t.get? token with
  | none => (none, t)
  | some x =>
    (some x, { t with slots := t.slots.setIfInBounds token none, free := token :: t.free })

/-- Change the connection with a token. -/
def update (t : Table α) (token : Nat) (x : α) : Table α :=
  { t with slots := t.slots.modify token fun old => old.map fun _ => x }

/-- Take all connections out of the table; tells how many there were. -/
def clear (t : Table α) : Nat × Table α := (t.live, .new t.limit)

end Table

end EchoLoad.Stream
