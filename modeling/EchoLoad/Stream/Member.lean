import EchoLoad.Network.Address
import EchoLoad.Stream.Connection
import EchoLoad.Stream.Table

/-!
# Members of a table

What a table knows of a connection: where its peer is, the token under which notices of it come, and what
the system was asked to tell about it. The token is given by the table that takes the connection. If the
system then refuses to tell about it, the table has not taken it.
-/

namespace EchoLoad.Stream

/-- A connection, with what a table knows of it. -/
structure Member (α : Type) where
  connection : α
  peer : SocketAddress
  token : Nat
  /-- what the system was asked to tell, if it was asked -/
  interest : Option Interest
deriving DecidableEq, Repr

namespace Member

/-- A connection that no table has taken; no table gives its token. -/
def new (x : α) (peer : SocketAddress) : Member α := ⟨x, peer, UInt64.size - 1, none⟩

/-- Ask the system to tell something, which it may refuse. It is not asked for what it tells already. -/
def setInterest (m : Member α) (interest : Interest) (refusal : Option SystemError) :
    Except SystemError (Member α) :=
  if m.interest = some interest then .ok m
  else
    match refusal with
    | some e => .error e
    | none => .ok { m with interest := some interest }

/-- What a table makes of a connection that it takes under a token. -/
def enter (m : Member α) (interest : Interest) (refusal : Option SystemError) (token : Nat) :
    Except SystemError (Member α) :=
  { m with token := token }.setInterest interest refusal

end Member

namespace Table

/-- What can be asked of a table. -/
inductive Call (α : Type)
  /-- to take a connection and have the system tell something about it, which it may refuse -/
  | insert (m : Member α) (interest : Interest) (refusal : Option SystemError)
  | get (token : Nat)
  | remove (token : Nat)
  | clear

/-- What a table answers. -/
inductive Answer (α : Type)
  /-- the token given to the connection, if there was room -/
  | inserted (outcome : Except SystemError (Option Nat))
  | found (m : Option (Member α))
  /-- the peer of the connection that was removed, if there was one -/
  | removed (peer : Option SocketAddress)
  /-- how many connections there were -/
  | cleared (count : Nat)

/-- Carry out a call. -/
def serve (t : Table (Member α)) : Call α → Answer α × Table (Member α)
  | .insert m interest refusal =>
    let (outcome, t) := t.insert (m.enter interest refusal)
    (.inserted outcome, t)
  | .get token => (.found (t.get? token), t)
  | .remove token =>
    let (m, t) := t.remove token
    (.removed (m.map (·.peer)), t)
  | .clear =>
    let (count, t) := t.clear
    (.cleared count, t)

/-- A call with its answer. -/
structure Exchange (α : Type) where
  call : Call α
  answer : Answer α

/-- Carry out calls one after the other; gives them with their answers. -/
def serveAll : List (Call α) → Table (Member α) → List (Exchange α) × Table (Member α)
  | [], t => ([], t)
  | c :: calls, t =>
    let (answer, t) := t.serve c
    let (later, t) := serveAll calls t
    (⟨c, answer⟩ :: later, t)

end Table

end EchoLoad.Stream
