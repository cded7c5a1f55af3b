import EchoLoad.Datagram.Codec

/-!
# Endpoints of the native transport

An endpoint numbers the calls it makes, from one on; a call that fails has used up its number all the
same. Once it is shut down nothing is received any more, but messages can still be sent.
-/

namespace EchoLoad.Datagram

/-- A datagram on its way. -/
structure Packet (α : Type) where
  source : α
  target : α
  bytes : Bytes
deriving DecidableEq

/-- The system may refuse a datagram that could be made. -/
def transmit (made : Except TransportError β) (fault : Option SystemError) : Except TransportError β :=
  match made, fault with
  | .ok _, some e => .error (.system e)
  | made, _ => made

theorem transmit_eq_ok {made : Except TransportError β} {fault : Option SystemError} {x : β}
    (h : transmit made fault = .ok x) : made = .ok x := by
  unfold transmit at h
  split at h
  next => cases h
  next => exact h

/-- One end of the native transport, with the datagrams that arrived and were not looked at. -/
structure Endpoint (α : Type) where
  nextCall : UInt64
  isShutDown : Bool
  arrived : List (α × Bytes)

namespace Endpoint

def new : Endpoint α := ⟨1, false, []⟩

/-- The number of a call and the datagram that makes it. -/
def request (e : Endpoint α) (pieces : List Bytes) :
    Except TransportError (UInt64 × Bytes) × Endpoint α :=
  ((encode .request e.nextCall pieces).map fun d => (e.nextCall, d),
    { e with nextCall := e.nextCall + 1 })

/-- The datagram that answers a call. -/
def reply (call : UInt64) (pieces : List Bytes) : Except TransportError Bytes :=
  encode .response call pieces

/-- A datagram arrives. -/
def arrive (e : Endpoint α) (peer : α) (datagram : Bytes) : Endpoint α :=
  { e with arrived := e.arrived ++ [(peer, datagram)] }

/-- Receive a message of a kind; all datagrams in front of it are dropped. If there is none, waiting
for a response gives up after a while, and waiting for a request goes on: it has no result yet. -/
def receive (e : Endpoint α) (kind : Kind) (room : Nat) :
    Option (Except TransportError (Delivery α)) × Endpoint α :=
  if e.isShutDown then (some (.error .shutdown), e)
  else
    match receive? kind room e.arrived, kind with
    | (some d, rest), _ => (some (.ok d), { e with arrived := rest })
    | (none, rest), .response => (some (.error .timedOut), { e with arrived := rest })
    | (none, rest), .request => (none, { e with arrived := rest })

def shutDown (e : Endpoint α) : Endpoint α := { e with isShutDown := true }

/-- A message that is received is that of a datagram that arrived; those behind it stay. Numbers of calls
are not used up. -/
theorem receive_eq {e f : Endpoint α} {kind : Kind} {room : Nat}
    {outcome : Option (Except TransportError (Delivery α))} (h : e.receive kind room = (outcome, f)) :
    f.nextCall = e.nextCall ∧ (∃ front, e.arrived = front ++ f.arrived) ∧
      ∀ d, outcome = some (.ok d) → ∃ front peer datagram,
        e.arrived = front ++ (peer, datagram) :: f.arrived ∧ decode? kind room peer datagram = some d := by
  unfold receive at h
  split at h
  next =>
    cases h
    exact ⟨rfl, ⟨[], rfl⟩, fun d hd => by cases hd⟩
  next =>
    cases hreceived : receive? kind room e.arrived with
    | mk received rest =>
      have hsplit := receive?_eq hreceived
      rw [hreceived] at h
      cases received with
      | some found =>
        cases h
        obtain ⟨front, peer, datagram, harrived, hfound⟩ := hsplit
        refine ⟨rfl, ⟨front ++ [(peer, datagram)], ?_⟩, ?_⟩
        · rw [harrived, List.append_assoc]
          rfl
        · intro d hd
          cases hd
          exact ⟨front, peer, datagram, harrived, hfound⟩
      | none =>
        cases kind <;>
        · cases h
          refine ⟨rfl, ⟨e.arrived, ?_⟩, fun d hd => by cases hd⟩
          show e.arrived = e.arrived ++ rest
          rw [hsplit, List.append_nil]

/-- What alone arrived is received, if it is of the kind. -/
theorem receive_arrive {e : Endpoint α} (hopen : e.isShutDown = false) (hnone : e.arrived = [])
    {kind : Kind} {room : Nat} {peer : α} {datagram : Bytes} {d : Delivery α}
    (hd : decode? kind room peer datagram = some d) :
    (e.arrive peer datagram).receive kind room = (some (.ok d), e) := by
  have hreceive : receive? kind room (e.arrive peer datagram).arrived = (some d, []) := by
    show receive? kind room (e.arrived ++ [(peer, datagram)]) = (some d, [])
    rw [hnone, List.nil_append, receive?, hd]
  have hclosed : ¬ (e.arrive peer datagram).isShutDown = true := by
    show ¬ e.isShutDown = true
    rw [hopen]
    decide
  unfold receive
  rw [if_neg hclosed, hreceive]
  show (_, { e.arrive peer datagram with arrived := [] }) = (_, e)
  rw [← hnone]
  rfl

end Endpoint

end EchoLoad.Datagram
