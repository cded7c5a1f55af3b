import EchoLoad.Client.Sender

/-!
# What each event does to a sender

A sender is driven by events; what it does about one depends on its phase. `Sender.Turn` says all that
can come of an event, with everything that was looked at:

> `Sender.turn`: each step of a sender is one of the turns.

So whatever is to hold of all runs is proved turn by turn, and `step` need not be opened again. The
calls of the transport and what they returned are read off a run by `Sender.exchanges`; a call that has
not returned yet stands in the phase.
-/

namespace EchoLoad

/-- A call of the transport: to whom, with which frame, and the tick at which it was let go. -/
structure SendCall where
  server : Nat
  frame : Frame
  now : Nat
deriving DecidableEq

namespace SenderPhase

/-- The call that has not returned. -/
def call? : SenderPhase → Option SendCall
  | sending server frame now _ => some ⟨server, frame, now⟩
  | _ => none

def isOver : SenderPhase → Bool
  | ended _ => true
  | aborted => true
  | _ => false

end SenderPhase

namespace Sender

/-- A call and what it returned. -/
abbrev Exchange := SendCall × Except TransportError Unit

/-- The call that returns with an event. -/
def exchange? (s : Sender) : SenderEvent → Option Exchange
  | .sent result => s.phase.call?.map fun call => (call, result)
  | _ => none

/-- The calls that returned, in order. -/
def exchanges (s : Sender) : List SenderEvent → List Exchange
  | [] => []
  | e :: events => (s.exchange? e).toList ++ (s.step e).exchanges events

/-- All calls, in order; the last of them may not have returned. -/
def calls (s : Sender) (events : List SenderEvent) : List SendCall :=
  (s.exchanges events).map Prod.fst ++ (s.run events).phase.call?.toList

/-- What comes of an event. -/
inductive Turn (s : Sender) : SenderEvent → Sender → Prop
  /-- a response was counted -/
  | recorded (h : Header) (finish : UInt32) :
      Turn s (.answered h finish) { s with stats := s.stats.recordResponse h finish }
  /-- the event is not what the sender waits for -/
  | unasked {e : SenderEvent} (nothing : s.exchange? e = none) : Turn s e s
  /-- the sender looks, waits, or ends, and there is no call before or after -/
  | turned {e : SenderEvent} {phase : SenderPhase} (active : s.phase.isOver = false)
      (uncalled : s.phase.call? = none) (quiet : phase.call? = none) (alive : phase ≠ .aborted) :
      Turn s e { s with phase := phase }
  /-- a request is made and goes to the transport -/
  | issued {now : Nat} {chosen : Selection} {scheduler : Scheduler} {frame : Frame}
      (checking : s.phase = .checking)
      (ready : s.scheduler.ready now s.issued s.stats.responses = true)
      (selected : s.scheduler.select? = some (chosen, scheduler))
      (built : Frame.build? (s.headerFor chosen now) s.fill = some frame) :
      Turn s (.checked false now)
        { s with
          scheduler := scheduler
          nextId := s.nextId + 1
          phase := .sending chosen.server frame now s.stats.responses }
  /-- a cursor is past the end of its sequence -/
  | unselected {now : Nat} (checking : s.phase = .checking) (missing : s.scheduler.select? = none) :
      Turn s (.checked false now) { s with phase := .aborted }
  /-- the zeros are too short for the request -/
  | unbuilt {now : Nat} {chosen : Selection} {scheduler : Scheduler} (checking : s.phase = .checking)
      (selected : s.scheduler.select? = some (chosen, scheduler))
      (missing : Frame.build? (s.headerFor chosen now) s.fill = none) :
      Turn s (.checked false now)
        { s with scheduler := scheduler, nextId := s.nextId + 1, phase := .aborted }
  /-- the transport took the request -/
  | accepted {server now before behind : Nat} {frame : Frame} {stats : ClientStats}
      {scheduler : Scheduler} (sending : s.phase = .sending server frame now before)
      (counted : s.stats.recordIssue? server = some stats)
      (moved : s.scheduler.reschedule? now = some (behind, scheduler)) :
      Turn s (.sent (.ok ()))
        { s with
          scheduler := scheduler
          stats := stats.addLag behind
          issued := s.issued + 1
          phase := if s.receivers = 0 then .waiting before else .checking }
  /-- the request was to a closed server -/
  | skipped {server now before behind : Nat} {frame : Frame} {scheduler : Scheduler}
      (sending : s.phase = .sending server frame now before)
      (moved : s.scheduler.reschedule? now = some (behind, scheduler)) :
      Turn s (.sent (.error .peerClosed))
        { s with scheduler := scheduler, stats := s.stats.addLag behind, phase := .checking }
  /-- the transport failed -/
  | failed {server now before : Nat} {frame : Frame} {e : TransportError}
      (sending : s.phase = .sending server frame now before) (fatal : e ≠ .peerClosed) :
      Turn s (.sent (.error e)) { s with phase := .ended (.error e) }
  /-- the port has no counter for the server -/
  | uncounted {server now before : Nat} {frame : Frame}
      (sending : s.phase = .sending server frame now before)
      (missing : s.stats.recordIssue? server = none) :
      Turn s (.sent (.ok ())) { s with phase := .aborted }
  /-- the cursor of the gaps is past their end -/
  | unmoved {server now before issued : Nat} {frame : Frame} {stats : ClientStats}
      {result : Except TransportError Unit} (sending : s.phase = .sending server frame now before)
      (missing : s.scheduler.reschedule? now = none)
      (kept : (issued = s.issued ∧ stats = s.stats) ∨
        (issued = s.issued + 1 ∧ s.stats.recordIssue? server = some stats)) :
      Turn s (.sent result) { s with stats := stats, issued := issued, phase := .aborted }

/-- Moving the schedule on, after the counters were brought up to date. -/
theorem advance_eq {s : Sender} {now behind : Nat} {scheduler : Scheduler}
    (h : s.scheduler.reschedule? now = some (behind, scheduler)) (phase : SenderPhase) :
    s.advance now phase =
      { s with scheduler := scheduler, stats := s.stats.addLag behind, phase := phase } := by
  unfold advance
  rw [h]
  dsimp only
  by_cases hbehind : 0 < behind
  · rw [if_pos hbehind]
  · have hzero : behind = 0 := by omega
    rw [if_neg hbehind, hzero, ClientStats.addLag_zero]

theorem advance_eq_aborted {s : Sender} {now : Nat} (h : s.scheduler.reschedule? now = none)
    (phase : SenderPhase) : s.advance now phase = { s with phase := .aborted } := by
  unfold advance
  rw [h]

theorem turn_check {s : Sender} (hphase : s.phase = .checking) (stop : Bool) (now : Nat) :
    s.Turn (.checked stop now) (s.check stop now) := by
  have hactive : s.phase.isOver = false := by rw [hphase]; rfl
  have huncalled : s.phase.call? = none := by rw [hphase]; rfl
  unfold check
  cases stop with
  | true => exact .turned hactive huncalled rfl (by simp)
  | false =>
    rw [if_neg Bool.false_ne_true]
    split
    next hready =>
      unfold prepare
      cases hselect : s.scheduler.select? with
      | none => exact .unselected hphase hselect
      | some pick =>
        obtain ⟨chosen, scheduler⟩ := pick
        dsimp only
        cases hbuild : Frame.build? (s.headerFor chosen now) s.fill with
        | none =>
          have hheader : Frame.build? (headerFor _ chosen now) s.fill = none := hbuild
          exact .unbuilt hphase hselect hheader
        | some frame => exact .issued hphase hready hselect hbuild
    next => exact .turned hactive huncalled rfl (by simp)

theorem turn_afterSend {s : Sender} {server now before : Nat} {frame : Frame}
    (hphase : s.phase = .sending server frame now before) (result : Except TransportError Unit) :
    s.Turn (.sent result) (s.afterSend server now before result) := by
  cases result with
  | ok =>
    unfold afterSend
    cases hcount : s.stats.recordIssue? server with
    | none => exact .uncounted hphase hcount
    | some stats =>
      dsimp only
      cases hmove : s.scheduler.reschedule? now with
      | none =>
        -- the request was counted already when the schedule turns out to have no gap for it
        rw [advance_eq_aborted (s := { s with stats := stats, issued := s.issued + 1 }) hmove]
        exact .unmoved hphase hmove (.inr ⟨rfl, hcount⟩)
      | some move =>
        obtain ⟨behind, scheduler⟩ := move
        rw [advance_eq (s := { s with stats := stats, issued := s.issued + 1 }) hmove]
        exact .accepted hphase hcount hmove
  | error e =>
    by_cases hclosed : e = .peerClosed
    · subst hclosed
      show s.Turn _ (s.advance now .checking)
      cases hmove : s.scheduler.reschedule? now with
      | none =>
        rw [advance_eq_aborted hmove]
        exact .unmoved hphase hmove (.inl ⟨rfl, rfl⟩)
      | some move =>
        obtain ⟨behind, scheduler⟩ := move
        rw [advance_eq hmove]
        exact .skipped hphase hmove
    · have hend : s.afterSend server now before (.error e) = { s with phase := .ended (.error e) } := by
        cases e with
        | peerClosed => exact absurd rfl hclosed
        | _ => rfl
      rw [hend]
      exact .failed hphase hclosed

theorem turn_afterWait {s : Sender} {before : Nat} (hphase : s.phase = .waiting before) (stop : Bool)
    (result : Except TransportError Bool) :
    s.Turn (.waited result stop) (s.afterWait before stop result) := by
  have hactive : s.phase.isOver = false := by rw [hphase]; rfl
  have huncalled : s.phase.call? = none := by rw [hphase]; rfl
  unfold afterWait
  split
  · exact .turned hactive huncalled rfl (by simp)
  · exact .turned hactive huncalled rfl (by simp)
  · split
    · exact .turned hactive huncalled rfl (by simp)
    · split
      · exact .turned hactive huncalled rfl (by simp)
      · exact .turned hactive huncalled rfl (by simp)

theorem turn_flushed (s : Sender) (result : Except TransportError Unit) :
    s.Turn (.flushed result) (s.step (.flushed result)) := by
  cases hphase : s.phase with
  | flushing =>
    have hactive : s.phase.isOver = false := by rw [hphase]; rfl
    have huncalled : s.phase.call? = none := by rw [hphase]; rfl
    cases result <;> simp only [step, hphase] <;> exact .turned hactive huncalled rfl (by simp)
  | flushingWhileWaiting before =>
    have hactive : s.phase.isOver = false := by rw [hphase]; rfl
    have huncalled : s.phase.call? = none := by rw [hphase]; rfl
    cases result with
    | error e =>
      simp only [step, hphase]
      exact .turned hactive huncalled rfl (by simp)
    | ok =>
      simp only [step, hphase]
      by_cases hsame : s.stats.responses = before
      · rw [if_pos hsame]
        exact .turned hactive huncalled rfl (by simp)
      · rw [if_neg hsame]
        exact .turned hactive huncalled rfl (by simp)
  | _ =>
    simp only [step, hphase]
    exact .unasked rfl

/-- **Each step is a turn.** -/
theorem turn (s : Sender) (e : SenderEvent) : s.Turn e (s.step e) := by
  cases e with
  | answered h finish => exact .recorded h finish
  | flushed result => exact s.turn_flushed result
  | checked stop now =>
    cases hphase : s.phase with
    | checking =>
      simp only [step, hphase]
      exact turn_check hphase stop now
    | _ =>
      simp only [step, hphase]
      exact .unasked rfl
  | sent result =>
    cases hphase : s.phase with
    | sending server frame now before =>
      simp only [step, hphase]
      exact turn_afterSend hphase result
    | _ =>
      simp only [step, hphase]
      exact .unasked (by rw [exchange?, hphase]; rfl)
  | waited result stop =>
    cases hphase : s.phase with
    | waiting before =>
      simp only [step, hphase]
      exact turn_afterWait hphase stop result
    | _ =>
      simp only [step, hphase]
      exact .unasked rfl

theorem call?_of_exchange? {s : Sender} {e : SenderEvent} {x : Exchange} (hx : s.exchange? e = some x) :
    s.phase.call? = some x.1 := by
  unfold exchange? at hx
  split at hx
  · obtain ⟨c, hc, rfl⟩ := Option.map_eq_some_iff.mp hx
    exact hc
  · cases hx

/-- What holds of each call that is under way holds of all calls of a run. -/
theorem forall_calls {I : Sender → Prop} {P : SendCall → Prop} (hstep : ∀ s e, I s → I (s.step e))
    (hcall : ∀ s c, I s → s.phase.call? = some c → P c) (events : List SenderEvent) :
    ∀ {s : Sender}, I s → ∀ c ∈ s.calls events, P c := by
  induction events with
  | nil =>
    intro s hs c hc
    exact hcall s c hs (Option.mem_toList.mp hc)
  | cons e events ih =>
    intro s hs c hc
    have hcalls : s.calls (e :: events) =
        (s.exchange? e).toList.map Prod.fst ++ (s.step e).calls events := by
      simp only [calls, exchanges, List.map_append, List.append_assoc]
      rfl
    rw [hcalls, List.mem_append] at hc
    rcases hc with hreturned | hlater
    · -- a call that returns was under way
      obtain ⟨x, hx, rfl⟩ := List.mem_map.mp hreturned
      exact hcall s x.1 hs (call?_of_exchange? (Option.mem_toList.mp hx))
    · exact ih (hstep s e hs) c hlater

end Sender

end EchoLoad
