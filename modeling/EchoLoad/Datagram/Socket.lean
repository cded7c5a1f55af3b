import EchoLoad.Datagram.Endpoint

/-!
# Calls on a datagram socket

A call on a socket may be interrupted, time out or fail. `emit` makes the datagram of a message and hands
it to the system, again while a signal interrupts the call. `await` receives into one buffer, datagram
after datagram, until one is of the kind that it waits for, and leaves the message of that one at the
front of the buffer; what was dropped before has been in the buffer as well.

An endpoint does not know of the buffer, nor of calls that are tried again. What it hands on is what its
socket leaves in the buffer, where nothing more comes in time:

> `Endpoint.receive_eq_await`: receiving at an endpoint is waiting at its socket for the datagrams that
> arrived there, and then for one that does not come.
-/

namespace EchoLoad.Datagram

/-- What became of a message that was to be sent. -/
structure Emission where
  /-- the datagrams that left -/
  datagrams : List Bytes
  result : Except TransportError Unit

/-- The error with which the system refuses a datagram, given its answers to one call after the other.
A call that was interrupted is made again; past the last answer the datagram is taken. -/
def refusal? : List (Option SystemError) → Option SystemError
  | [] => none
  | none :: _ => none
  | some e :: later => if e.kind = .interrupted then refusal? later else some e

/-- Make the datagram of a message and hand it over. -/
def emit (kind : Kind) (call : UInt64) (pieces : List Bytes) (answers : List (Option SystemError)) :
    Emission :=
  match transmit (encode kind call pieces) (refusal? answers) with
  | .ok datagram => ⟨[datagram], .ok ()⟩
  | .error e => ⟨[], .error e⟩

/-- What one receive from a socket gave. -/
inductive Arrival (α : Type)
  | datagram (peer : α) (bytes : Bytes)
  | fault (error : SystemError)

/-- The error that a failed receive ends the wait for a message of a kind with, if it does. The wait for
a response gives up when nothing came in time, that for a request does not. -/
def Kind.failure? (kind : Kind) (e : SystemError) : Option TransportError :=
  match e.kind with
  | .wouldBlock => if kind = .response then some .timedOut else none
  | .timedOut => if kind = .response then some .timedOut else none
  | .interrupted => none
  | _ => some (.system e)

/-- Wait for a message of a kind, receiving into a buffer. There is no result while the wait goes on. -/
def await (kind : Kind) :
    Bytes → List (Arrival α) → Option (Except TransportError (Landed α)) × List (Arrival α)
  | _, [] => (none, [])
  | buffer, .datagram peer bytes :: later =>
    match receiveInto? kind buffer peer bytes with
    | some landed => (some (.ok landed), later)
    | none => await kind (land buffer bytes) later
  | buffer, .fault e :: later =>
    match kind.failure? e with
    | some failure => (some (.error failure), later)
    | none => await kind buffer later

@[simp] theorem length_land (buffer datagram : Bytes) :
    (land buffer datagram).length = buffer.length := by
  simp only [land, List.length_append, List.length_take, List.length_drop]
  omega

namespace Arrival

/-- The datagram that arrived, if it was no failure. -/
def datagram? : Arrival α → Option (α × Bytes)
  | datagram peer bytes => some (peer, bytes)
  | fault _ => none

/-- Datagrams as they arrive at a socket. -/
def ofDatagrams (arrived : List (α × Bytes)) : List (Arrival α) :=
  arrived.map fun x => .datagram x.1 x.2

/-- Nothing came in time. -/
def nothing : Arrival α := .fault (.ofKind .timedOut)

theorem filterMap_ofDatagrams (arrived : List (α × Bytes)) :
    (ofDatagrams arrived ++ [nothing]).filterMap datagram? = arrived := by
  have hall : (ofDatagrams arrived).filterMap datagram? = arrived := by
    rw [ofDatagrams, List.filterMap_map]
    exact List.filterMap_some
  rw [List.filterMap_append, hall]
  exact List.append_nil arrived

end Arrival

/-- Waiting for datagrams that all arrived finds the next of the kind, and nothing but the buffer differs
from looking through them. -/
theorem await_ofDatagrams (kind : Kind) (buffer : Bytes) (arrived : List (α × Bytes)) :
    let wait := await kind buffer (Arrival.ofDatagrams arrived ++ [.nothing])
    (wait.1.map (Except.map Landed.delivery), wait.2.filterMap Arrival.datagram?) =
      match receive? kind buffer.length arrived with
      | (some d, rest) => (some (.ok d), rest)
      | (none, rest) => (if kind = .response then some (.error .timedOut) else none, rest) := by
  induction arrived generalizing buffer with
  | nil => cases kind <;> rfl
  | cons first rest ih =>
    obtain ⟨peer, bytes⟩ := first
    have hdelivery := receiveInto?_delivery kind buffer peer bytes
    have hawait : await kind buffer (Arrival.ofDatagrams ((peer, bytes) :: rest) ++ [.nothing]) =
        match receiveInto? kind buffer peer bytes with
        | some landed => (some (.ok landed), Arrival.ofDatagrams rest ++ [.nothing])
        | none => await kind (land buffer bytes) (Arrival.ofDatagrams rest ++ [.nothing]) := rfl
    dsimp only
    rw [hawait, receive?, ← hdelivery]
    cases receiveInto? kind buffer peer bytes with
    | none =>
      have hrest := ih (land buffer bytes)
      rw [length_land] at hrest
      exact hrest
    | some landed => exact congrArg (Prod.mk _) (Arrival.filterMap_ofDatagrams rest)

/-- **Receiving at an endpoint is waiting at its socket**, as long as the endpoint is not shut down. -/
theorem Endpoint.receive_eq_await {e : Endpoint α} (hopen : e.isShutDown = false) (kind : Kind)
    (buffer : Bytes) :
    let wait := await kind buffer (Arrival.ofDatagrams e.arrived ++ [.nothing])
    e.receive kind buffer.length =
      (wait.1.map (Except.map Landed.delivery),
        { e with arrived := wait.2.filterMap Arrival.datagram? }) := by
  intro wait
  have hwait : (wait.1.map (Except.map Landed.delivery), wait.2.filterMap Arrival.datagram?) = _ :=
    await_ofDatagrams kind buffer e.arrived
  obtain ⟨hresult, hleft⟩ := Prod.ext_iff.mp hwait
  dsimp only at hresult hleft
  have hclosed : ¬ e.isShutDown = true := by
    rw [hopen]
    decide
  unfold receive
  rw [if_neg hclosed, hresult, hleft]
  rcases receive? kind buffer.length e.arrived with ⟨_ | d, rest⟩
  · cases kind <;> rfl
  · rfl

end EchoLoad.Datagram
