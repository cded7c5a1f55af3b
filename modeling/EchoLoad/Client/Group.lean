import EchoLoad.Client.Plan

/-!
# The senders of a client command

The ports of a command send side by side. All that they have in common is the counter from which each
takes the number of its next message. The events of different ports may follow each other in any order.
-/

namespace EchoLoad

/-- The senders of some ports. -/
structure SenderGroup where
  /-- the number of the next message, whichever port makes it -/
  nextId : UInt32
  senders : List Sender

namespace SenderGroup

/-- The senders of a command whose ports reach so many servers, each with its plan and the tick at which
it starts. -/
def start (o : ClientOptions) (servers : Nat) (firstId : UInt32) (plan : Nat → RequestPlan)
    (now : Nat → Nat) : SenderGroup :=
  ⟨firstId, (List.range o.ports).map fun port => (plan port).sender o servers firstId (now port)⟩

/-- Something happens to the sender of a port. -/
def step (g : SenderGroup) (port : Nat) (e : SenderEvent) : SenderGroup :=
  match g.senders[port]? with
  | none => g
  | some s =>
    let s := { s with nextId := g.nextId }.step e
    ⟨s.nextId, g.senders.set port s⟩

/-- The senders after all that happened. -/
def run (g : SenderGroup) (events : List (Nat × SenderEvent)) : SenderGroup :=
  events.foldl (fun g (port, e) => g.step port e) g

end SenderGroup

end EchoLoad
