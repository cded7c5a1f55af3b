import EchoLoad.Proofs.Client.Trace

/-!
# A sender without receivers goes one request at a time

A port may have no thread that waits for responses. Its sender then waits itself after each request, and
the bound on unanswered requests, whatever it is, does not come into play any more:

> `Sender.run_closedLoop`: when the sender looks whether a request may go out, no request is unanswered,
> and at no moment is there more than one.

The sender does not know which responses it waits for. It compares the number of responses with the one
that it noted before the request went out, so the bound that holds depends on where it is
(`SenderPhase.Allows`): a request goes out when the noted number has caught up with those issued, and the
sender leaves the wait for another look only when the number has grown beyond it.
-/

namespace EchoLoad

/-- Whether a response is counted with an event. -/
def SenderEvent.isAnswer : SenderEvent → Bool
  | answered _ _ => true
  | _ => false

namespace SenderPhase

variable {issued responses : Nat} {phase : SenderPhase}

/-- How many requests may have been issued when so many responses were counted. -/
def Allows (issued responses : Nat) : SenderPhase → Prop
  | checking | flushing => issued ≤ responses
  | sending _ _ _ before => issued ≤ before ∧ before ≤ responses
  | waiting before | flushingWhileWaiting before => issued ≤ before + 1 ∧ before ≤ responses
  | ended _ | aborted => issued ≤ responses + 1

theorem Allows.le (h : phase.Allows issued responses) : issued ≤ responses + 1 := by
  cases phase <;> simp only [Allows] at h <;> omega

theorem Allows.le_of_call (h : phase.Allows issued responses) {call : SendCall}
    (hcall : phase.call? = some call) : issued ≤ responses := by
  cases phase with
  | sending server frame now before => exact h.1.trans h.2
  | _ => cases hcall

/-- Another response leaves everything allowed that was. -/
theorem Allows.answered (h : phase.Allows issued responses) :
    phase.Allows issued (responses + 1) := by
  cases phase <;> simp only [Allows] at h ⊢ <;> omega

end SenderPhase

namespace Sender

/-- A sender that waits for responses itself and has issued no more than it may. -/
structure ClosedLoop (s : Sender) : Prop where
  receivers : s.receivers = 0
  allowed : s.phase.Allows s.issued s.stats.responses

variable {s : Sender}

theorem closedLoop_start (scheduler : Scheduler) (servers ringCapacity : Nat) (firstId : UInt32)
    (fill : Bytes) :
    (start scheduler (.new servers ringCapacity) firstId fill 0).ClosedLoop :=
  ⟨rfl, Nat.le_refl 0⟩

theorem ClosedLoop.rephase (h : s.ClosedLoop) {phase : SenderPhase}
    (hphase : phase.Allows s.issued s.stats.responses) : { s with phase := phase }.ClosedLoop :=
  ⟨h.receivers, hphase⟩

/-- The sender may end wherever it is. -/
theorem ClosedLoop.ended (h : s.ClosedLoop) (result : Except TransportError Unit) :
    { s with phase := .ended result }.ClosedLoop :=
  h.rephase h.allowed.le

theorem ClosedLoop.aborted (h : s.ClosedLoop) : { s with phase := .aborted }.ClosedLoop :=
  h.rephase h.allowed.le

/-- Moving the schedule on counts nothing. -/
theorem closedLoop_advance (hreceivers : s.receivers = 0) (now : Nat) {phase : SenderPhase}
    (hphase : phase.Allows s.issued s.stats.responses) : (s.advance now phase).ClosedLoop := by
  cases hmove : s.scheduler.reschedule? now with
  | none =>
    rw [advance_eq_aborted hmove]
    exact ⟨hreceivers, hphase.le⟩
  | some move =>
    obtain ⟨behind, scheduler⟩ := move
    rw [advance_eq hmove]
    exact ⟨hreceivers, hphase⟩

/-- A request goes out with the number of responses noted, which the requests do not exceed. -/
theorem ClosedLoop.prepare (h : s.ClosedLoop) (hphase : s.phase = .checking) (now : Nat) :
    (s.prepare now).ClosedLoop := by
  have hissued : s.issued ≤ s.stats.responses := by
    have := h.allowed
    rw [hphase] at this
    exact this
  have hlate : s.issued ≤ s.stats.responses + 1 := by omega
  unfold Sender.prepare
  cases s.scheduler.select? with
  | none => exact h.aborted
  | some pick =>
    dsimp only
    cases Frame.build? (s.headerFor pick.1 now) s.fill with
    | none => exact ⟨h.receivers, hlate⟩
    | some frame => exact ⟨h.receivers, hissued, Nat.le_refl _⟩

theorem ClosedLoop.check (h : s.ClosedLoop) (hphase : s.phase = .checking) (stop : Bool) (now : Nat) :
    (s.check stop now).ClosedLoop := by
  unfold Sender.check
  cases stop with
  | true => exact h.ended (.ok ())
  | false =>
    rw [if_neg Bool.false_ne_true]
    split
    · exact h.prepare hphase now
    · have hissued := h.allowed
      rw [hphase] at hissued
      exact h.rephase hissued

/-- A request that was taken is waited for; one that was skipped is not, and needs no response. -/
theorem ClosedLoop.afterSend (h : s.ClosedLoop) {server now before : Nat} {frame : Frame}
    (hphase : s.phase = .sending server frame now before) (result : Except TransportError Unit) :
    (s.afterSend server now before result).ClosedLoop := by
  obtain ⟨hissued, hnoted⟩ : s.issued ≤ before ∧ before ≤ s.stats.responses := by
    have := h.allowed
    rw [hphase] at this
    exact this
  cases result with
  | ok =>
    unfold Sender.afterSend
    cases hcount : s.stats.recordIssue? server with
    | none => exact h.aborted
    | some stats =>
      obtain ⟨-, rfl⟩ := ClientStats.recordIssue?_eq_some hcount
      dsimp only
      rw [if_pos h.receivers]
      have hwaiting : SenderPhase.Allows (s.issued + 1) s.stats.responses (.waiting before) :=
        ⟨Nat.succ_le_succ hissued, hnoted⟩
      apply closedLoop_advance
      · exact h.receivers
      · exact hwaiting
  | error e =>
    cases e with
    | peerClosed =>
      have hchecking : SenderPhase.Allows s.issued s.stats.responses .checking :=
        hissued.trans hnoted
      exact closedLoop_advance h.receivers now hchecking
    | _ => exact h.ended _

/-- The wait is left for another look only if a response was counted since the request went out. -/
theorem ClosedLoop.afterWait (h : s.ClosedLoop) {before : Nat} (hphase : s.phase = .waiting before)
    (stop : Bool) (result : Except TransportError Bool) :
    (s.afterWait before stop result).ClosedLoop := by
  obtain ⟨hissued, hnoted⟩ : s.issued ≤ before + 1 ∧ before ≤ s.stats.responses := by
    have := h.allowed
    rw [hphase] at this
    exact this
  unfold Sender.afterWait
  split
  · exact h.ended _
  · exact h.ended _
  · split
    next hnew =>
      have hchecking : s.issued ≤ s.stats.responses := by omega
      exact h.rephase hchecking
    next =>
      split
      · exact h.ended _
      · exact h.rephase ⟨hissued, hnoted⟩

theorem ClosedLoop.flushed (h : s.ClosedLoop) (result : Except TransportError Unit) :
    (s.step (.flushed result)).ClosedLoop := by
  have hallowed := h.allowed
  cases hphase : s.phase with
  | flushing =>
    rw [hphase] at hallowed
    cases result with
    | ok =>
      have hchecking : SenderPhase.Allows s.issued s.stats.responses .checking := hallowed
      simpa only [step, hphase] using h.rephase hchecking
    | error e => simpa only [step, hphase] using h.ended (.error e)
  | flushingWhileWaiting before =>
    rw [hphase] at hallowed
    obtain ⟨hissued, hnoted⟩ := hallowed
    cases result with
    | ok =>
      simp only [step, hphase]
      split
      · exact h.rephase ⟨hissued, hnoted⟩
      next hnew =>
        have hchecking : s.issued ≤ s.stats.responses := by omega
        exact h.rephase hchecking
    | error e => simpa only [step, hphase] using h.ended (.error e)
  | _ => simpa only [step, hphase] using h

/-- Whatever happens to the sender, it issues no more than it may. -/
theorem ClosedLoop.step (h : s.ClosedLoop) (e : SenderEvent) : (s.step e).ClosedLoop := by
  cases e with
  | answered header finish => exact ⟨h.receivers, h.allowed.answered⟩
  | flushed result => exact h.flushed result
  | checked stop now =>
    cases hphase : s.phase with
    | checking => simpa only [Sender.step, hphase] using h.check hphase stop now
    | _ => simpa only [Sender.step, hphase] using h
  | sent result =>
    cases hphase : s.phase with
    | sending server frame now before =>
      simpa only [Sender.step, hphase] using h.afterSend hphase result
    | _ => simpa only [Sender.step, hphase] using h
  | waited result stop =>
    cases hphase : s.phase with
    | waiting before => simpa only [Sender.step, hphase] using h.afterWait hphase stop result
    | _ => simpa only [Sender.step, hphase] using h

theorem ClosedLoop.run (events : List SenderEvent) :
    ∀ {s : Sender}, s.ClosedLoop → (s.run events).ClosedLoop := by
  induction events with
  | nil => intro s h; exact h
  | cons e events ih => intro s h; exact ih (h.step e)

/-! ## What is counted in a run -/

/-- Responses are counted where they are recorded, and nowhere else. -/
theorem responses_step (s : Sender) (e : SenderEvent) :
    (s.step e).stats.responses = s.stats.responses + if e.isAnswer then 1 else 0 := by
  have hturn := s.turn e
  cases hanswer : e.isAnswer with
  | true =>
    cases e with
    | answered header finish => rfl
    | _ => cases hanswer
  | false =>
    generalize s.step e = t at hturn
    cases hturn with
    | recorded header finish => cases hanswer
    | accepted sending counted moved =>
      obtain ⟨-, rfl⟩ := ClientStats.recordIssue?_eq_some counted
      rfl
    | unmoved sending missing kept =>
      rcases kept with ⟨-, rfl⟩ | ⟨-, counted⟩
      · rfl
      · obtain ⟨-, rfl⟩ := ClientStats.recordIssue?_eq_some counted
        rfl
    | _ => rfl

/-- The counter of requests and the sender's own go together. -/
theorem Turn.requests_eq {t : Sender} {e : SenderEvent} (ht : s.Turn e t)
    (h : s.stats.requests = s.issued) : t.stats.requests = t.issued := by
  cases ht with
  | accepted sending counted moved =>
    obtain ⟨-, rfl⟩ := ClientStats.recordIssue?_eq_some counted
    exact congrArg (· + 1) h
  | unmoved sending missing kept =>
    rcases kept with ⟨rfl, rfl⟩ | ⟨rfl, counted⟩
    · exact h
    · obtain ⟨-, rfl⟩ := ClientStats.recordIssue?_eq_some counted
      exact congrArg (· + 1) h
  | _ => exact h

/-- A request is issued where the transport takes it. -/
theorem Turn.issued_eq {t : Sender} {e : SenderEvent} (ht : s.Turn e t) (halive : t.phase ≠ .aborted) :
    s.phase ≠ .aborted ∧ t.issued = s.issued + (s.exchange? e).toList.countP fun x => x.2.isOk := by
  have hcalling {server now before : Nat} {frame : Frame}
      (h : s.phase = .sending server frame now before) : s.phase ≠ .aborted := by
    rw [h]
    simp
  cases ht with
  | recorded header finish => exact ⟨halive, rfl⟩
  | unasked nothing =>
    rw [nothing]
    exact ⟨halive, rfl⟩
  | turned active uncalled quiet alive =>
    refine ⟨?_, ?_⟩
    · intro h
      rw [h] at active
      cases active
    · rw [exchange?_of_uncalled uncalled]
      rfl
  | issued checking ready selected built =>
    refine ⟨?_, rfl⟩
    rw [checking]
    simp
  | accepted sending counted moved =>
    rw [exchange?_sent (congrArg SenderPhase.call? sending)]
    exact ⟨hcalling sending, rfl⟩
  | skipped sending moved =>
    rw [exchange?_sent (congrArg SenderPhase.call? sending)]
    exact ⟨hcalling sending, rfl⟩
  | failed sending fatal =>
    rw [exchange?_sent (congrArg SenderPhase.call? sending)]
    exact ⟨hcalling sending, rfl⟩
  | unselected checking missing => exact absurd rfl halive
  | unbuilt checking selected missing => exact absurd rfl halive
  | uncounted sending missing => exact absurd rfl halive
  | unmoved sending missing kept => exact absurd rfl halive

/-- The counters of a run that started with fresh ones. -/
structure Tallies (start : Sender) (events : List SenderEvent) : Prop where
  requests : (start.run events).stats.requests = (start.run events).issued
  responses : (start.run events).stats.responses = events.countP SenderEvent.isAnswer
  issued : (start.run events).phase ≠ .aborted →
    (start.run events).issued = (start.exchanges events).countP fun x => x.2.isOk

theorem tallies_run {start : Sender} (hrequests : start.stats.requests = 0)
    (hresponses : start.stats.responses = 0) (hissued : start.issued = 0)
    (events : List SenderEvent) : start.Tallies events := by
  induction events using List.reverseRecOn with
  | nil => exact ⟨hrequests.trans hissued.symm, hresponses, fun _ => hissued⟩
  | append_singleton events e ih =>
    have hturn := (start.run events).turn e
    refine ⟨?_, ?_, ?_⟩
    · rw [run_concat]
      exact hturn.requests_eq ih.requests
    · rw [run_concat, responses_step, ih.responses, List.countP_append, List.countP_singleton]
    · rw [run_concat, exchanges_concat, List.countP_append]
      intro halive
      obtain ⟨hbefore, hone⟩ := hturn.issued_eq halive
      rw [hone, ih.issued hbefore]

/-- **Without receivers there is at most one unanswered request.** The port has fresh counters, any
schedule and any bound on unanswered requests; its transport takes requests, skips them or fails, waits
and retries as it likes, and responses come singly, in bunches, or not at all. When the sender looks
whether a request may go out, and while it hands one over, no request is unanswered; at no moment is
there more than one. So the transport does not take a request before as many responses were recorded as
it took requests before. -/
theorem run_closedLoop (scheduler : Scheduler) (servers ringCapacity : Nat) (firstId : UInt32)
    (fill : Bytes) (events : List SenderEvent) :
    let port := start scheduler (.new servers ringCapacity) firstId fill 0
    let s := port.run events
    (s.phase = .checking → s.issued ≤ s.stats.responses) ∧
      (∀ call, s.phase.call? = some call → s.issued ≤ s.stats.responses) ∧
      s.issued ≤ s.stats.responses + 1 ∧
      s.stats.requests = s.issued ∧
      s.stats.responses = events.countP SenderEvent.isAnswer ∧
      ∀ earlier later call, events = earlier ++ .sent (.ok ()) :: later →
        (port.run earlier).phase.call? = some call →
          (port.exchanges earlier).countP (fun x => x.2.isOk) ≤ earlier.countP SenderEvent.isAnswer := by
  intro port s
  have hloop (events : List SenderEvent) : (port.run events).ClosedLoop :=
    ClosedLoop.run events (closedLoop_start scheduler servers ringCapacity firstId fill)
  have htallies (events : List SenderEvent) : port.Tallies events := tallies_run rfl rfl rfl events
  have hallowed := (hloop events).allowed
  refine ⟨?_, ?_, hallowed.le, (htallies events).requests, (htallies events).responses, ?_⟩
  · intro hchecking
    rw [hchecking] at hallowed
    exact hallowed
  · intro call hcall
    exact hallowed.le_of_call hcall
  · intro earlier later call _ hcall
    have hissued := (hloop earlier).allowed.le_of_call hcall
    have halive : (port.run earlier).phase ≠ .aborted := by
      intro haborted
      rw [haborted] at hcall
      cases hcall
    rw [(htallies earlier).issued halive, (htallies earlier).responses] at hissued
    exact hissued

/-- With room for four unanswered requests, the second one goes out all the same when the first is
answered and not when the sender looks before that, or when a wait brings nothing. -/
theorem run_closedLoop_second :
    let port := start (.new ⟨[0], [16], [0]⟩ 4 16 0) (.new 1 8) 3 [] 0
    let early : List SenderEvent := [.checked false 0, .sent (.ok ()), .checked false 0,
      .waited (.ok true) false, .checked false 0]
    let events := early ++ [.answered default 5, .flushed (.ok ()), .checked false 0, .sent (.ok ())]
    (port.calls early).length = 1 ∧ (port.calls events).length = 2 ∧
      (port.exchanges (events.take 8)).countP (fun x => x.2.isOk) = 1 ∧
      1 ≤ (events.take 8).countP SenderEvent.isAnswer := by
  intro port early events
  have hsplit : events = events.take 8 ++ .sent (.ok ()) :: [] := rfl
  have hcall : (port.run (events.take 8)).phase.call? = some ⟨0, ⟨⟨16, 0, 0, 4⟩, []⟩, 0⟩ := by
    decide +kernel
  have htaken : (port.exchanges (events.take 8)).countP (fun x => x.2.isOk) = 1 := by decide +kernel
  obtain ⟨-, -, -, -, -, hsecond⟩ :=
    run_closedLoop (.new ⟨[0], [16], [0]⟩ 4 16 0) 1 8 3 [] events
  have hanswered := hsecond _ _ _ hsplit hcall
  rw [htaken] at hanswered
  exact ⟨by decide +kernel, by decide +kernel, htaken, hanswered⟩

end Sender

end EchoLoad
