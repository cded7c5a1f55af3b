import EchoLoad.Datagram.Server
import EchoLoad.Proofs.Stats.Counting

/-!
# What a worker receives is what it sends back

A worker of the native transport runs for as long as receives and replies let it:

> `Worker.serve_echoes`: the replies are the messages that were received, one for one and in order; the
> counters are their number and the sum of their lengths. A worker ends well with the shutdown of the
> transport, and else with the error of the reply that failed, whose request is counted.

`ServeRun.Echoes` says so of a worker with anything in its buffer and its counters, since this is how an
earlier request leaves it. A receive either ends the run (`Worker.echoes_shutdown`,
`Worker.echoes_failed`) or goes in front of one that is known (`Worker.echoes_error`,
`Worker.echoes_ok`).
-/

namespace EchoLoad.Datagram

variable {α : Type}

/-- The reply that sends a message back. -/
def Delivery.echo (d : Delivery α) : Reply α := ⟨d.peer, d.call, d.message⟩

/-- The messages among what was received. -/
def messages (received : List (Except TransportError (Delivery α))) : List (Delivery α) :=
  received.filterMap Except.toOption

theorem messages_ok (d : Delivery α) (received : List (Except TransportError (Delivery α))) :
    messages (.ok d :: received) = d :: messages received := rfl

/-- What a run came to. Nothing in `before` ended it, and `last` did; past what there is to receive the
transport is shut down. -/
structure ServeRun.Echoes (w : Worker) (incoming : List (Except TransportError (Delivery α)))
    (outcomes : List (Except TransportError Unit))
    (before : List (Except TransportError (Delivery α))) (last : Except TransportError (Delivery α))
    (run : ServeRun α) : Prop where
  received : before ++ [last] <+: incoming ++ [.error .shutdown]
  unreceived : run.unreceived = incoming.drop (before.length + 1)
  isOpen : .error .shutdown ∉ before
  replies : run.replies = (messages (before ++ [last])).map Delivery.echo
  counted : run.worker.stats =
    w.stats.recordAll ((messages (before ++ [last])).map (·.message.length))
  succeeded : ∀ o ∈ outcomes.take (messages before).length, o = .ok ()
  ending : (last = .error .shutdown ∧ run.result = .ok ()) ∨
    ∃ d e, last = .ok d ∧ outcomes[(messages before).length]? = some (.error e) ∧
      run.result = .error e

namespace Worker

variable {w : Worker} {incoming before : List (Except TransportError (Delivery α))}
  {outcomes : List (Except TransportError Unit)} {last : Except TransportError (Delivery α)}

theorem stats_accept {d : Delivery α} (h : d.message.length ≤ w.buffer.length) :
    (w.accept d).2.stats = w.stats.record d.message.length := by
  show w.stats.record (min d.message.length w.buffer.length) = _
  rw [Nat.min_eq_left h]

/-! ## What ends a run -/

/-- Past the last receive the transport is shut down. -/
theorem echoes_nil (w : Worker) (outcomes : List (Except TransportError Unit)) :
    (w.serve ([] : List (Except TransportError (Delivery α))) outcomes).Echoes w [] outcomes []
      (.error .shutdown) where
  received := List.prefix_rfl
  unreceived := rfl
  isOpen := List.not_mem_nil
  replies := rfl
  counted := rfl
  succeeded := by simp [messages]
  ending := .inl ⟨rfl, rfl⟩

theorem echoes_shutdown (w : Worker) (incoming : List (Except TransportError (Delivery α)))
    (outcomes : List (Except TransportError Unit)) :
    (w.serve (.error .shutdown :: incoming) outcomes).Echoes w (.error .shutdown :: incoming) outcomes
      [] (.error .shutdown) where
  received := ⟨incoming ++ [.error .shutdown], rfl⟩
  unreceived := rfl
  isOpen := List.not_mem_nil
  replies := rfl
  counted := rfl
  succeeded := by simp [messages]
  ending := .inl ⟨rfl, rfl⟩

/-- A reply that fails ends the run. Its request is counted. -/
theorem echoes_failed {d : Delivery α} (hfits : d.message.length ≤ w.buffer.length)
    (incoming : List (Except TransportError (Delivery α))) (e : TransportError)
    (outcomes : List (Except TransportError Unit)) :
    (w.serve (.ok d :: incoming) (.error e :: outcomes)).Echoes w (.ok d :: incoming)
      (.error e :: outcomes) [] (.ok d) where
  received := ⟨incoming ++ [.error .shutdown], rfl⟩
  unreceived := rfl
  isOpen := List.not_mem_nil
  replies := congrArg (fun r => [r]) (accept_reply hfits)
  counted := stats_accept hfits
  succeeded := by simp [messages]
  ending := .inr ⟨d, e, rfl, rfl, rfl⟩

/-! ## What goes in front of a run -/

theorem serve_error (w : Worker) (incoming : List (Except TransportError (Delivery α)))
    (outcomes : List (Except TransportError Unit)) {e : TransportError} (he : e ≠ .shutdown) :
    w.serve (.error e :: incoming) outcomes = w.serve incoming outcomes := by
  cases e with
  | shutdown => exact absurd rfl he
  | _ => rfl

theorem serve_ok (w : Worker) (d : Delivery α)
    (incoming : List (Except TransportError (Delivery α)))
    {outcomes : List (Except TransportError Unit)} (hreply : outcomes.headD (.ok ()) = .ok ()) :
    w.serve (.ok d :: incoming) outcomes =
      { (w.accept d).2.serve incoming outcomes.tail with
        replies := (w.accept d).1 :: ((w.accept d).2.serve incoming outcomes.tail).replies } := by
  rw [serve, received, hreply]
  rfl

/-- A receive that failed is passed over. -/
theorem echoes_error
    (h : (w.serve incoming outcomes).Echoes w incoming outcomes before last)
    {e : TransportError} (he : e ≠ .shutdown) :
    (w.serve (.error e :: incoming) outcomes).Echoes w (.error e :: incoming) outcomes
      (.error e :: before) last := by
  rw [w.serve_error incoming outcomes he]
  exact {
    received := (List.prefix_cons_inj _).mpr h.received
    unreceived := h.unreceived
    isOpen := List.not_mem_cons_of_ne_of_not_mem (fun h => he (Except.error.inj h).symm) h.isOpen
    replies := h.replies
    counted := h.counted
    succeeded := h.succeeded
    ending := h.ending }

/-- A message is counted and sent back before what comes later. -/
theorem echoes_ok {d : Delivery α} (hfits : d.message.length ≤ w.buffer.length)
    (hreply : outcomes.headD (.ok ()) = .ok ())
    (h : ((w.accept d).2.serve incoming outcomes.tail).Echoes (w.accept d).2 incoming outcomes.tail
      before last) :
    (w.serve (.ok d :: incoming) outcomes).Echoes w (.ok d :: incoming) outcomes (.ok d :: before)
      last := by
  rw [w.serve_ok d incoming hreply]
  refine {
    received := (List.prefix_cons_inj _).mpr h.received
    unreceived := h.unreceived
    isOpen := List.not_mem_cons_of_ne_of_not_mem nofun h.isOpen
    replies := congr (congrArg List.cons (accept_reply hfits)) h.replies
    counted := ?_
    succeeded := ?_
    ending := ?_ }
  · rw [h.counted, stats_accept hfits]
    rfl
  · -- the outcome of this reply stands before those of the later ones, or they are all used up
    have hlater := h.succeeded
    cases outcomes with
    | nil => simp
    | cons o outcomes =>
      rw [messages_ok, List.length_cons, List.take_succ_cons, List.forall_mem_cons]
      exact ⟨hreply, hlater⟩
  · have hending := h.ending
    rw [List.getElem?_tail] at hending
    exact hending

/-- **Serving**, with anything in the buffer and the counters at first. -/
theorem serve_follows (incoming : List (Except TransportError (Delivery α))) (w : Worker)
    (outcomes : List (Except TransportError Unit))
    (hfits : ∀ d, .ok d ∈ incoming → d.message.length ≤ w.buffer.length) :
    ∃ before last, (w.serve incoming outcomes).Echoes w incoming outcomes before last := by
  -- for any worker, as a message that was served stays in the buffer and in the counters
  induction incoming generalizing w outcomes with
  | nil => exact ⟨[], _, w.echoes_nil outcomes⟩
  | cons received incoming ih =>
    have hlater : ∀ d, .ok d ∈ incoming → d.message.length ≤ w.buffer.length :=
      fun d hd => hfits d (List.mem_cons_of_mem _ hd)
    rcases received with e | d
    · by_cases he : e = .shutdown
      · rw [he]
        exact ⟨[], _, w.echoes_shutdown incoming outcomes⟩
      · obtain ⟨before, last, h⟩ := ih w outcomes hlater
        exact ⟨.error e :: before, last, echoes_error h he⟩
    · have hd := hfits d List.mem_cons_self
      cases hreply : outcomes.headD (.ok ()) with
      | ok =>
        obtain ⟨before, last, h⟩ := ih (w.accept d).2 outcomes.tail (by
          rw [w.length_accept d]
          exact hlater)
        exact ⟨.ok d :: before, last, echoes_ok hd hreply h⟩
      | error e =>
        -- past the last outcome replies succeed
        cases outcomes with
        | nil => cases hreply
        | cons o outcomes =>
          rw [show o = .error e from hreply]
          exact ⟨[], _, echoes_failed hd incoming e outcomes⟩

/-- **A worker sends back what it receives.** Messages that fit into the buffer of a worker, and errors,
come to it in any order; its replies succeed or fail; past all this the transport is shut down. Then the
worker receives up to a `last` and no further. It replies to the messages among what it received, one
for one and in order, each time to the sender, with the number of the call and the bytes that came,
whatever an earlier message left in the buffer. The counters are the number of these messages and the
sum of their lengths, as far as 64 bits hold them. No other error than a shutdown ends it. If `last` is
the shutdown, the worker ends well and no reply has failed; else it is a message, the reply to it was
the first that failed, and the worker ends with the error of that reply. -/
theorem serve_echoes {limit : Nat} (incoming : List (Except TransportError (Delivery α)))
    (outcomes : List (Except TransportError Unit))
    (hfits : ∀ d, .ok d ∈ incoming → d.message.length ≤ limit + preambleSize) :
    ∃ run before last, (new limit).serve incoming outcomes = run ∧
      before ++ [last] <+: incoming ++ [.error .shutdown] ∧
      run.unreceived = incoming.drop (before.length + 1) ∧
      .error .shutdown ∉ before ∧
      run.replies = (messages (before ++ [last])).map Delivery.echo ∧
      run.worker.stats.requests = (messages (before ++ [last])).length % 2 ^ 64 ∧
      run.worker.stats.bytes.toNat =
        ((messages (before ++ [last])).map (·.message.length)).sum % 2 ^ 64 ∧
      (∀ o ∈ outcomes.take (messages before).length, o = .ok ()) ∧
      ((last = .error .shutdown ∧ run.result = .ok ()) ∨
        ∃ d e, last = .ok d ∧ outcomes[(messages before).length]? = some (.error e) ∧
          run.result = .error e) := by
  have hroom : (new limit).buffer.length = limit + preambleSize := List.length_replicate
  rw [← hroom] at hfits
  obtain ⟨before, last, h⟩ := serve_follows incoming (new limit) outcomes hfits
  refine ⟨_, before, last, rfl, h.received, h.unreceived, h.isOpen, h.replies, ?_, ?_, h.succeeded,
    h.ending⟩
  · rw [h.counted]
    exact (ServerStats.requests_recordAll_new _).trans (by rw [List.length_map])
  · rw [h.counted]
    exact ServerStats.toNat_bytes_recordAll_new _

/-- A message after a longer one, and one that is not received any more, since a reply failed. -/
theorem serve_echoes_shorter :
    ∃ (run : ServeRun Nat) (before : List (Except TransportError (Delivery Nat)))
      (last : Except TransportError (Delivery Nat)),
      (new 4).serve [.error .timedOut, .ok ⟨[1, 2, 3], 5, 7⟩, .ok ⟨[9], 6, 8⟩, .ok ⟨[4], 5, 9⟩]
        [.ok (), .error .peerClosed] = run ∧
      run.replies = (messages (before ++ [last])).map Delivery.echo ∧
      run.worker.stats.requests = (messages (before ++ [last])).length % 2 ^ 64 ∧
      run.replies = [⟨5, 7, [1, 2, 3]⟩, ⟨6, 8, [9]⟩] ∧
      run.worker.buffer.take 4 = [9, 2, 3, 0] ∧ run.worker.stats = ⟨2, 4⟩ := by
  obtain ⟨run, before, last, hrun, -, -, -, hreplies, hrequests, -⟩ :=
    @serve_echoes Nat 4 [.error .timedOut, .ok ⟨[1, 2, 3], 5, 7⟩, .ok ⟨[9], 6, 8⟩, .ok ⟨[4], 5, 9⟩]
      [.ok (), .error .peerClosed] (by
        intro d hd
        simp only [List.mem_cons, Except.ok.injEq, reduceCtorEq, List.not_mem_nil, false_or,
          or_false] at hd
        rcases hd with rfl | rfl | rfl <;> decide)
  exact ⟨run, before, last, hrun, hreplies, hrequests, by rw [← hrun]; rfl, by rw [← hrun]; rfl,
    by rw [← hrun]; rfl⟩

end Worker

end EchoLoad.Datagram
