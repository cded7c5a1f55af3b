import EchoLoad.Datagram.Exchange
import Mathlib.Algebra.Order.BigOperators.Group.List
import Mathlib.Algebra.Order.Ring.Nat

/-!
# What an exchange cannot make more of

A message moves from the network to a socket, from there into a thread, back onto the network and so on,
and each move may lose it but makes no second one. This is counted with a `Tally`, which says how much a
datagram, a thread, a response and a request weigh, such that no single move makes anything heavier:

> `Tally.covers_run`: what is under way, together with what was handed on, never weighs more than the
> requests that were sent.

Which messages a tally counts is left open here. That no move adds weight is asked of a tally for each
move by itself; what remains is where the things that move come from and where they go.
-/

namespace EchoLoad.Datagram

/-! ## Sums over changed lists -/

theorem sum_map_eraseIdx {β : Type} {l : List β} {i : Nat} {x : β} (f : β → Nat)
    (h : l[i]? = some x) : ((l.eraseIdx i).map f).sum + f x = (l.map f).sum := by
  obtain ⟨hi, rfl⟩ := List.getElem?_eq_some_iff.mp h
  rw [← ((List.getElem_cons_eraseIdx_perm hi).map f).sum_eq, List.map_cons, List.sum_cons, Nat.add_comm]

theorem sum_map_set {β : Type} {l : List β} {i : Nat} {x : β} (f : β → Nat) (h : l[i]? = some x)
    (y : β) : ((l.set i y).map f).sum + f x = (l.map f).sum + f y := by
  have hrest := sum_map_eraseIdx f h
  obtain ⟨hi, rfl⟩ := List.getElem?_eq_some_iff.mp h
  rw [((List.set_perm_cons_eraseIdx hi y).map f).sum_eq, List.map_cons, List.sum_cons]
  omega

theorem sum_map_eraseIdx_le {β : Type} (f : β → Nat) (l : List β) (i : Nat) :
    ((l.eraseIdx i).map f).sum ≤ (l.map f).sum :=
  ((List.eraseIdx_sublist l i).map f).sum_le_sum fun _ _ => Nat.zero_le _

/-! ## Tallies -/

/-- Weights that no move adds to. -/
structure Tally (α : Type) where
  /-- the weight of a datagram that is for an address -/
  packet : α → Bytes → Nat
  /-- the weight of a thread of the server with an address -/
  thread : α → Thread α → Nat
  response : Response → Nat
  request : Request α → Nat
  fresh : ∀ address, thread address .new = 0
  sent : ∀ (r : Request α) {datagram : Bytes}, r.frame.header.length.toInt = r.frame.length →
    encode .request r.call (requestPieces r.frame) = .ok datagram →
      packet r.target datagram ≤ request r
  received : ∀ (address : α) {t : Thread α} {peer : α} {datagram : Bytes} {d : Delivery α},
    t.phase = .receiving → decode? .request datagramLimit peer datagram = some d →
      thread address (t.received (.ok d)) ≤ packet address datagram + thread address t
  passed : ∀ (address : α) {t : Thread α} (e : TransportError), t.phase = .receiving →
    thread address (t.received (.error e)) ≤ thread address t
  replied : ∀ (address : α) {t : Thread α} {r : Reply α} {datagram : Bytes},
    t.phase = .replying r → encode .response r.call [r.message] = .ok datagram →
      packet r.peer datagram + thread address (t.replied (.ok ())) ≤ thread address t
  refused : ∀ (address : α) {t : Thread α} {r : Reply α} (e : TransportError),
    t.phase = .replying r → thread address (t.replied (.error e)) ≤ thread address t
  handed : ∀ (address : α) {finish : Nat} {peer : α} {datagram : Bytes} {d : Delivery α} {r : Response},
    decode? .response datagramLimit peer datagram = some d → handOn? finish (.ok d) = some r →
      response r ≤ packet address datagram

namespace Tally

variable {α : Type} (T : Tally α)

def packets (l : List (Packet α)) : Nat := (l.map fun p => T.packet p.target p.bytes).sum

/-- What arrived at an address and was not looked at. -/
def waiting (address : α) (l : List (α × Bytes)) : Nat := (l.map fun p => T.packet address p.2).sum

def server (s : Server α) : Nat :=
  T.waiting s.address s.endpoint.arrived + (s.threads.map (T.thread s.address)).sum

/-- What the requests that were sent weigh is enough for all that came of them: what is on its way, what
is at the sockets and in the threads, and what was handed on. -/
def Covers (x : Exchange α) : Prop :=
  T.packets x.inFlight + T.waiting x.client.address x.client.endpoint.arrived + (x.servers.map T.server).sum +
    (x.handed.map T.response).sum ≤ (x.sent.map T.request).sum

theorem packets_append (l m : List (Packet α)) : T.packets (l ++ m) = T.packets l + T.packets m := by
  unfold packets
  rw [List.map_append, List.sum_append]

theorem packets_singleton (source target : α) (datagram : Bytes) :
    T.packets [⟨source, target, datagram⟩] = T.packet target datagram := Nat.add_zero _

/-! ### Endpoints -/

theorem waiting_arrive (address : α) (e : Endpoint α) (peer : α) (datagram : Bytes) :
    T.waiting address (e.arrive peer datagram).arrived =
      T.waiting address e.arrived + T.packet address datagram := by
  unfold waiting
  show ((e.arrived ++ [(peer, datagram)]).map _).sum = _
  rw [List.map_append, List.sum_append]
  rfl

/-- Receiving takes from what arrived; what a received message weighed there is gone. -/
theorem waiting_receive (address : α) {e f : Endpoint α} {kind : Kind} {room : Nat}
    {outcome : Option (Except TransportError (Delivery α))} (h : e.receive kind room = (outcome, f)) :
    T.waiting address f.arrived ≤ T.waiting address e.arrived ∧
      ∀ d, outcome = some (.ok d) → ∃ peer datagram, decode? kind room peer datagram = some d ∧
        T.packet address datagram + T.waiting address f.arrived ≤ T.waiting address e.arrived := by
  obtain ⟨-, ⟨passed, hpassed⟩, hreceived⟩ := Endpoint.receive_eq h
  constructor
  · unfold waiting
    rw [hpassed, List.map_append, List.sum_append]
    omega
  · intro d hd
    obtain ⟨front, peer, datagram, harrived, hdecode⟩ := hreceived d hd
    refine ⟨peer, datagram, hdecode, ?_⟩
    unfold waiting
    rw [harrived, List.map_append, List.sum_append, List.map_cons, List.sum_cons]
    dsimp only
    omega

/-! ### Servers -/

theorem server_receive (s : Server α) (i : Nat) : T.server (s.receive i) ≤ T.server s := by
  unfold Server.receive
  cases hthread : s.threads[i]? with
  | none => exact Nat.le_refl _
  | some t =>
    dsimp only
    cases hphase : t.phase with
    | replying r => exact Nat.le_refl _
    | ended result => exact Nat.le_refl _
    | receiving =>
      dsimp only
      -- a buffer with room for every datagram cuts off nothing of a message
      rw [t.roomy]
      cases hreceive : s.endpoint.receive .request datagramLimit with
      | mk outcome rest =>
        obtain ⟨hrest, htaken⟩ := T.waiting_receive s.address hreceive
        cases outcome with
        | none => exact Nat.add_le_add_right hrest _
        | some outcome =>
          have hset := sum_map_set (T.thread s.address) hthread (t.received outcome)
          show T.waiting s.address rest.arrived + ((s.threads.set i (t.received outcome)).map (T.thread s.address)).sum ≤
            T.waiting s.address s.endpoint.arrived + (s.threads.map (T.thread s.address)).sum
          cases outcome with
          | error e =>
            have hpassed := T.passed s.address e hphase
            omega
          | ok d =>
            obtain ⟨peer, datagram, hdecode, hleft⟩ := htaken d rfl
            have hreceived := T.received s.address hphase hdecode
            omega

theorem server_reply (s : Server α) (i : Nat) (fault : Option SystemError) :
    T.packets (s.reply i fault).1.toList + T.server (s.reply i fault).2 ≤ T.server s := by
  have hnothing : T.packets [] + T.server s ≤ T.server s := Nat.le_of_eq (Nat.zero_add _)
  unfold Server.reply
  cases hthread : s.threads[i]? with
  | none => exact hnothing
  | some t =>
    dsimp only
    cases hphase : t.phase with
    | receiving => exact hnothing
    | ended result => exact hnothing
    | replying r =>
      dsimp only
      cases hmade : transmit (Endpoint.reply r.call [r.message]) fault with
      | error e =>
        have hset := sum_map_set (T.thread s.address) hthread (t.replied (.error e))
        have hrefused := T.refused s.address e hphase
        show T.packets [] + (T.waiting s.address s.endpoint.arrived +
          ((s.threads.set i (t.replied (.error e))).map (T.thread s.address)).sum) ≤
            T.waiting s.address s.endpoint.arrived + (s.threads.map (T.thread s.address)).sum
        have hnone : T.packets [] = 0 := rfl
        omega
      | ok datagram =>
        have hset := sum_map_set (T.thread s.address) hthread (t.replied (.ok ()))
        have hreplied := T.replied s.address hphase (transmit_eq_ok hmade)
        show T.packets [⟨s.address, r.peer, datagram⟩] + (T.waiting s.address s.endpoint.arrived +
          ((s.threads.set i (t.replied (.ok ()))).map (T.thread s.address)).sum) ≤
            T.waiting s.address s.endpoint.arrived + (s.threads.map (T.thread s.address)).sum
        rw [packets_singleton]
        omega

theorem client_wait (c : Client α) (finish : Nat) :
    T.waiting (c.wait finish).2.address (c.wait finish).2.endpoint.arrived +
      ((c.wait finish).1.toList.map T.response).sum ≤ T.waiting c.address c.endpoint.arrived := by
  cases hreceive : c.endpoint.receive .response datagramLimit with
  | mk outcome rest =>
    obtain ⟨hrest, htaken⟩ := T.waiting_receive c.address hreceive
    have hendpoint : (c.wait finish).2.endpoint = rest := congrArg Prod.snd hreceive
    have hhanded : (c.wait finish).1 = outcome.bind (handOn? finish) :=
      congrArg (fun received => received.1.bind (handOn? finish)) hreceive
    rw [hendpoint, hhanded]
    show T.waiting c.address rest.arrived + _ ≤ _
    cases hon : outcome.bind (handOn? finish) with
    | none => exact hrest
    | some r =>
      obtain ⟨result, rfl, hr⟩ := Option.bind_eq_some_iff.mp hon
      cases result with
      | error e => cases hr
      | ok d =>
        obtain ⟨peer, datagram, hdecode, hleft⟩ := htaken d rfl
        have hweight := T.handed c.address hdecode hr
        rw [Option.toList_some, List.map_singleton, List.sum_singleton]
        omega

/-! ### Moves of an exchange -/

variable {T} {x : Exchange α}

theorem covers_start (T : Tally α) (address : α) (servers : List α) (ringCapacity : Nat)
    (listening : List (α × Nat)) : T.Covers (.start address servers ringCapacity listening) := by
  have hserver (a : α) (workers : Nat) : T.server (.start a workers) = 0 := by
    have hthreads : ((List.replicate workers (.new : Thread α)).map (T.thread a)).sum = 0 := by
      rw [List.map_replicate, List.sum_replicate, T.fresh, Nat.nsmul_eq_mul, Nat.mul_zero]
    show 0 + ((List.replicate workers (.new : Thread α)).map (T.thread a)).sum = 0
    rw [hthreads]
  have hservers : ((listening.map fun l => Server.start l.1 l.2).map T.server).sum = 0 := by
    rw [List.map_map, List.sum_eq_zero]
    intro n hn
    obtain ⟨l, -, rfl⟩ := List.mem_map.mp hn
    exact hserver l.1 l.2
  show 0 + 0 + ((listening.map fun l => Server.start l.1 l.2).map T.server).sum + 0 ≤ 0
  rw [hservers]

theorem Covers.send (h : T.Covers x) (server : Nat) (header : Header) (fill : Bytes)
    (fault : Option SystemError) : T.Covers (x.send server header fill fault) := by
  unfold Exchange.send
  cases hbuilt : Frame.build? header fill with
  | none => exact h
  | some frame =>
    obtain ⟨-, hannounced⟩ := Frame.build?_eq_some hbuilt
    show T.Covers (x.sendFrame server frame fault)
    unfold Exchange.sendFrame
    cases hsent : x.client.send? server frame fault with
    | none => exact h
    | some outcome =>
      obtain ⟨result, client⟩ := outcome
      obtain ⟨rfl, hresult⟩ := Client.send?_eq_some hsent
      cases result with
      | error e => exact h
      | ok made =>
        -- only here the history gets longer, by what the new datagram weighs at most
        obtain ⟨call, source, target, datagram⟩ := made
        obtain ⟨-, -, hencode⟩ := hresult _ _ rfl
        have hweight := T.sent ⟨call, server, target, frame⟩ hannounced hencode
        unfold Covers at h ⊢
        dsimp only at hweight ⊢
        rw [packets_append, packets_singleton, List.map_append, List.sum_append, List.map_singleton,
          List.sum_singleton]
        omega

theorem Covers.without (h : T.Covers x) (packet : Nat) : T.Covers (x.without packet) := by
  have hless := sum_map_eraseIdx_le (fun p : Packet α => T.packet p.target p.bytes) x.inFlight packet
  unfold Covers Exchange.without packets at *
  dsimp only
  omega

/-- Whatever happens at a server, what the datagram that it sends weighs is missing there. -/
theorem Covers.atServer (h : T.Covers x) (server : Nat) {f : Server α → Option (Packet α) × Server α}
    (hf : ∀ s, T.packets (f s).1.toList + T.server (f s).2 ≤ T.server s) :
    T.Covers (x.atServer server f) := by
  unfold Exchange.atServer
  cases hserver : x.servers[server]? with
  | none => exact h
  | some s =>
    have hset := sum_map_set T.server hserver (f s).2
    have hmove := hf s
    unfold Covers at h ⊢
    dsimp only
    rw [packets_append]
    omega

theorem Covers.wait (h : T.Covers x) (finish : Nat) : T.Covers (x.wait finish) := by
  have hmove := T.client_wait x.client finish
  unfold Covers Exchange.wait at *
  dsimp only
  rw [List.map_append, List.sum_append]
  omega

variable [DecidableEq α]

theorem Covers.arrive (h : T.Covers x) (packet : Nat) : T.Covers (x.arrive packet) := by
  unfold Exchange.arrive
  cases hpacket : x.inFlight[packet]? with
  | none => exact h
  | some p =>
    dsimp only
    split
    next htarget =>
      -- a datagram weighs at a socket what it weighed on its way there
      have hless := sum_map_eraseIdx (fun p : Packet α => T.packet p.target p.bytes) hpacket
      rw [htarget] at hless
      unfold Covers Exchange.without packets at *
      dsimp only
      rw [waiting_arrive]
      omega
    next => exact h

theorem Covers.arriveAt (h : T.Covers x) (packet server : Nat) : T.Covers (x.arriveAt packet server) := by
  unfold Exchange.arriveAt
  split
  next p s hpacket hserver =>
    split
    next htarget =>
      have hless := sum_map_eraseIdx (fun p : Packet α => T.packet p.target p.bytes) hpacket
      rw [htarget] at hless
      have hset := sum_map_set T.server hserver
        { s with endpoint := s.endpoint.arrive p.source p.bytes }
      have hmore : T.server { s with endpoint := s.endpoint.arrive p.source p.bytes } =
          T.server s + T.packet s.address p.bytes := by
        show T.waiting s.address (s.endpoint.arrive p.source p.bytes).arrived +
          (s.threads.map (T.thread s.address)).sum = _
        rw [waiting_arrive, Tally.server]
        omega
      unfold Covers Exchange.without packets at *
      dsimp only
      omega
    next => exact h
  next => exact h

theorem Covers.step (h : T.Covers x) (e : ExchangeEvent) : T.Covers (x.step e) := by
  have hquiet (s t : Server α) (hst : T.server t ≤ T.server s) :
      T.packets (none : Option (Packet α)).toList + T.server t ≤ T.server s := by
    rw [Option.toList_none]
    exact Nat.le_trans (Nat.le_of_eq (Nat.zero_add _)) hst
  cases e with
  | send server header fill fault => exact h.send server header fill fault
  | lose packet => exact h.without packet
  | arrive packet => exact h.arrive packet
  | arriveAt packet server => exact h.arriveAt packet server
  | receive server thread =>
    exact h.atServer server fun s => hquiet s _ (T.server_receive s thread)
  | reply server thread fault => exact h.atServer server fun s => T.server_reply s thread fault
  | wait finish => exact h.wait finish
  | shutDown => exact h
  | shutDownAt server => exact h.atServer server fun s => hquiet s _ (Nat.le_refl _)

/-- **No move makes a second of a message.** Whatever is lost, however late it arrives and in whichever
order the threads take turns. -/
theorem covers_run (T : Tally α) (address : α) (servers : List α) (ringCapacity : Nat)
    (listening : List (α × Nat)) (events : List ExchangeEvent) :
    T.Covers ((Exchange.start address servers ringCapacity listening).run events) := by
  have hrun : ∀ x : Exchange α, T.Covers x → T.Covers (x.run events) := by
    induction events with
    | nil => exact fun _ h => h
    | cons e events ih => exact fun x h => ih (x.step e) (h.step e)
  exact hrun _ (T.covers_start address servers ringCapacity listening)

end Tally

end EchoLoad.Datagram
