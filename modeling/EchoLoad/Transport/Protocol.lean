/-!
# Protocols

A port speaks one of two protocols: `native`, in which each message is one datagram, and `stream`, in
which frames follow each other on a connection.
-/

namespace EchoLoad

inductive Protocol
  | native
  | stream
deriving DecidableEq, Repr, Inhabited

namespace Protocol

def name : Protocol → String
  | native => "native"
  | stream => "stream"

/-- All protocols. -/
def all : List Protocol := [native, stream]

/-- The protocol with a name. Where case is ignored, it is ignored for ASCII letters only. -/
def ofName? (ignoreCase : Bool) (text : String) : Option Protocol :=
  let fold (t : String) : List Char := if ignoreCase then t.toList.map Char.toLower else t.toList
  all.find? fun p => fold p.name = fold text

theorem ofName?_name (p : Protocol) : ofName? false p.name = some p := by
  cases p <;> decide

end Protocol

end EchoLoad
