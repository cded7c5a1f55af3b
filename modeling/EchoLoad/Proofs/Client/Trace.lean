import EchoLoad.Proofs.Client.Turns
import Mathlib.Algebra.Order.Ring.Nat
import Mathlib.Data.List.Induction

/-!
# What a sender sends, and what it counts

A sender goes round its sequences once for each call of the transport, whatever becomes of the call, and
it moves its schedule on once for each call that does not end it:

> `SenderSetup.run_trace`: the `k`-th call is the one that the sequences prescribe for `k`, let go when
> it was due and when there was room for it; the counters are those of the calls that were taken, and
> the lag is by how much each call was later than the next one was due.

`Follows` ties the cursors to the number of calls and of those that returned, `Accounts` ties the
counters to what they returned. Both are kept by each turn of a sender (`Sender.Turn`). That it never
gets to where a sequence, a counter or the zeros end follows from the former.
-/

namespace EchoLoad

/-- What a sender starts with. -/
structure SenderSetup where
  sequences : Sequences
  cap : Nat
  limit : Int32
  /-- when the first request is due -/
  start : Nat
  servers : Nat
  ringCapacity : Nat
  firstId : UInt32
  fill : Bytes
  receivers : Nat

namespace SenderSetup

def sender (p : SenderSetup) : Sender :=
  .start (.new p.sequences p.cap p.limit p.start) (.new p.servers p.ringCapacity) p.firstId p.fill
    p.receivers

/-- There is something to go round, all servers are known and have a number that a header can hold, and
there are zeros enough for each length. -/
structure Sound (p : SenderSetup) : Prop where
  servers_ne : p.sequences.servers ≠ []
  lengths_ne : p.sequences.lengths ≠ []
  intervals_ne : p.sequences.intervals ≠ []
  known : ∀ server ∈ p.sequences.servers, server < p.servers
  numbered : ∀ server ∈ p.sequences.servers, server < 2147483648
  filled : ∀ n ∈ p.sequences.lengths, (clampLength n p.limit).1.toInt ≤ p.fill.length

/-- When the request with a number is due: the gaps of all requests before it after the first. -/
def due (p : SenderSetup) : Nat → Nat
  | 0 => p.start
  | k + 1 => p.due k + p.sequences.intervals[k % p.sequences.intervals.length]?.getD 0

/-- The `k`-th call, as the sequences prescribe it. -/
structure Prescribes (p : SenderSetup) (k : Nat) (c : SendCall) : Prop where
  server : p.sequences.servers[k % p.sequences.servers.length]? = some c.server
  serverId : c.frame.header.serverId.toInt = c.server
  messageId : c.frame.header.messageId = p.firstId + UInt32.ofNat k
  issueTime : c.frame.header.issueTime.toNat = c.now % 4294967296
  length : ∃ n, p.sequences.lengths[k % p.sequences.lengths.length]? = some n ∧
    c.frame.header.length.toInt = max 16 (min n.toInt p.limit.toInt)
  announced : c.frame.header.length.toInt = c.frame.encode.length
  due : p.due k ≤ c.now

end SenderSetup

/-- A request was taken, or skipped because its server is closed: the sender goes on. -/
def goesOn : Except TransportError Unit → Bool
  | .ok () => true
  | .error e => e = .peerClosed

namespace SenderSetup

/-- By how much the calls were later than the ones after them were due. -/
def lagOf (p : SenderSetup) (done : List Sender.Exchange) : Nat :=
  (done.zipIdx.map fun (x, k) => if goesOn x.2 then x.1.now - p.due (k + 1) else 0).sum

theorem lagOf_concat (p : SenderSetup) (done : List Sender.Exchange) (x : Sender.Exchange) :
    p.lagOf (done ++ [x]) =
      p.lagOf done + if goesOn x.2 then x.1.now - p.due (done.length + 1) else 0 := by
  unfold lagOf
  rw [List.zipIdx_append, List.map_append, List.sum_append, Nat.zero_add]
  simp only [List.zipIdx_cons, List.zipIdx_nil, List.map_cons, List.map_nil, List.sum_cons,
    List.sum_nil, Nat.add_zero]

end SenderSetup

namespace Sender

/-! ## Calls of a run -/

theorem run_concat (s : Sender) (events : List SenderEvent) (e : SenderEvent) :
    s.run (events ++ [e]) = (s.run events).step e := List.foldl_append

theorem exchanges_concat (events : List SenderEvent) (e : SenderEvent) :
    ∀ s : Sender, s.exchanges (events ++ [e]) =
      s.exchanges events ++ ((s.run events).exchange? e).toList := by
  induction events with
  | nil => intro s; exact List.append_nil _
  | cons first events ih =>
    intro s
    show (s.exchange? first).toList ++ (s.step first).exchanges (events ++ [e]) = _
    rw [ih (s.step first), ← List.append_assoc]
    rfl

theorem exchange?_of_uncalled {s : Sender} (h : s.phase.call? = none) (e : SenderEvent) :
    s.exchange? e = none := by
  unfold exchange?
  split
  · rw [h]
    rfl
  · rfl

theorem isOver_of_call? {s : Sender} {call : SendCall} (h : s.phase.call? = some call) :
    s.phase.isOver = false := by
  cases hphase : s.phase with
  | sending server frame now before => rfl
  | _ =>
    rw [hphase] at h
    cases h

theorem exchange?_sent {s : Sender} {call : SendCall} (h : s.phase.call? = some call)
    (result : Except TransportError Unit) : s.exchange? (.sent result) = some (call, result) := by
  unfold exchange?
  rw [h]
  rfl

/-- A call stays the same when it returns. -/
theorem map_fst_exchange? {s : Sender} {call : SendCall} (h : s.phase.call? = some call)
    (done : List Exchange) (result : Except TransportError Unit) {phase : SenderPhase}
    (quiet : phase.call? = none) :
    (done ++ (s.exchange? (.sent result)).toList).map Prod.fst ++ phase.call?.toList =
      done.map Prod.fst ++ s.phase.call?.toList := by
  rw [exchange?_sent h, h, quiet, List.map_append, List.append_assoc]
  rfl

end Sender

/-! ## The cursors -/

namespace SenderSetup

open Sender

variable {p : SenderSetup} {calls : List SendCall} {done : List Exchange} {s t : Sender}
  {e : SenderEvent}

/-- A sender that made these calls, of which some returned. -/
structure Follows (p : SenderSetup) (calls : List SendCall) (done : List Exchange) (s : Sender) :
    Prop where
  calls_eq : calls = done.map Prod.fst ++ s.phase.call?.toList
  prescribed : ∀ k c, calls[k]? = some c → p.Prescribes k c
  sequences : s.scheduler.sequences = p.sequences
  limit : s.scheduler.lengthLimit = p.limit
  fill : s.fill = p.fill
  counters : s.stats.issuedTo.size = p.servers
  server : s.scheduler.nextServer = calls.length % p.sequences.servers.length
  length : s.scheduler.nextLength = calls.length % p.sequences.lengths.length
  id : s.nextId = p.firstId + UInt32.ofNat calls.length
  alive : s.phase ≠ .aborted
  gap : s.phase.isOver = false →
    s.scheduler.nextInterval = done.length % p.sequences.intervals.length
  due : s.phase.isOver = false → s.scheduler.nextIssue = p.due done.length

theorem follows_start (p : SenderSetup) : p.Follows [] [] p.sender where
  calls_eq := rfl
  prescribed := by
    intro k c hc
    cases hc
  sequences := rfl
  limit := rfl
  fill := rfl
  counters := Array.size_replicate
  server := (Nat.zero_mod _).symm
  length := (Nat.zero_mod _).symm
  id := (UInt32.add_zero _).symm
  alive := by
    show SenderPhase.checking ≠ .aborted
    simp
  gap := fun _ => (Nat.zero_mod _).symm
  due := fun _ => rfl

/-- The sequences prescribe the next call. -/
theorem Follows.prescribes (hp : p.Sound) (h : p.Follows calls done s) {now : Nat}
    {chosen : Selection} {scheduler : Scheduler} {frame : Frame} (checking : s.phase = .checking)
    (ready : s.scheduler.ready now s.issued s.stats.responses = true)
    (selected : s.scheduler.select? = some (chosen, scheduler))
    (built : Frame.build? (s.headerFor chosen now) s.fill = some frame) :
    p.Prescribes calls.length ⟨chosen.server, frame, now⟩ := by
  obtain ⟨hserver, ⟨n, hn, hlength⟩, -⟩ := Scheduler.select?_eq_some selected
  obtain ⟨hheader, hannounced⟩ := Frame.build?_eq_some built
  rw [h.sequences, h.server] at hserver
  rw [h.sequences, h.length] at hn
  rw [h.limit] at hlength
  have hrounded := (s.headerFor chosen now).toInt_roundUp
  have hkept := (s.headerFor chosen now).roundUp_eq
  have hnumbered := hp.numbered _ (List.mem_of_getElem? hserver)
  have hreturned : calls.length = done.length := by
    rw [h.calls_eq, checking, List.length_append, List.length_map]
    rfl
  refine ⟨hserver, ?_, ?_, ?_, ⟨n, hn, ?_⟩, ?_, ?_⟩
  · show frame.header.serverId.toInt = chosen.server
    rw [hheader, hkept]
    exact Int32.toInt_ofNat_of_lt hnumbered
  · show frame.header.messageId = _
    rw [hheader, hkept]
    exact h.id
  · show frame.header.issueTime.toNat = _
    rw [hheader, hkept]
    exact UInt32.toNat_ofNat'
  · show frame.header.length.toInt = _
    rw [hheader, hrounded, ← max_clampLength, ← hlength]
    rfl
  · rw [Frame.length_encode]
    exact hannounced
  · unfold Scheduler.ready at ready
    rw [Bool.and_eq_true] at ready
    have hnow := of_decide_eq_true ready.1
    rw [h.due (by rw [checking]; rfl), ← hreturned] at hnow
    exact hnow

/-! ### The ends of sequences, counters and zeros are never met -/

theorem Follows.select?_ne_none (hp : p.Sound) (h : p.Follows calls done s) :
    s.scheduler.select? ≠ none := by
  apply Scheduler.select?_ne_none
  · rw [h.sequences, h.server]
    exact Nat.mod_lt _ (List.length_pos_iff.mpr hp.servers_ne)
  · rw [h.sequences, h.length]
    exact Nat.mod_lt _ (List.length_pos_iff.mpr hp.lengths_ne)

theorem Follows.build?_ne_none (hp : p.Sound) (h : p.Follows calls done s) {chosen : Selection}
    {scheduler : Scheduler} (selected : s.scheduler.select? = some (chosen, scheduler)) (now : Nat) :
    Frame.build? (s.headerFor chosen now) s.fill ≠ none := by
  obtain ⟨-, ⟨n, hn, hlength⟩, -⟩ := Scheduler.select?_eq_some selected
  rw [h.sequences] at hn
  rw [h.limit] at hlength
  apply Frame.build?_ne_none
  show chosen.length.toInt ≤ _
  rw [hlength, h.fill]
  exact hp.filled n (List.mem_of_getElem? hn)

theorem Follows.reschedule?_ne_none (hp : p.Sound) (h : p.Follows calls done s)
    (hactive : s.phase.isOver = false) (now : Nat) : s.scheduler.reschedule? now ≠ none := by
  apply Scheduler.reschedule?_ne_none
  rw [h.sequences, h.gap hactive]
  exact Nat.mod_lt _ (List.length_pos_iff.mpr hp.intervals_ne)

theorem Follows.recordIssue?_ne_none (hp : p.Sound) (h : p.Follows calls done s) {call : SendCall}
    (hcall : s.phase.call? = some call) : s.stats.recordIssue? call.server ≠ none := by
  have hlast : calls[done.length]? = some call := by
    rw [h.calls_eq, hcall, List.getElem?_append_right (Nat.le_of_eq (List.length_map _)), List.length_map,
      Nat.sub_self]
    rfl
  have hserver := (h.prescribed _ _ hlast).server
  apply ClientStats.recordIssue?_ne_none
  rw [h.counters]
  exact hp.known _ (List.mem_of_getElem? hserver)

/-! ### Turns -/

/-- What moving the schedule on does. -/
theorem Follows.moved (h : p.Follows calls done s) (hactive : s.phase.isOver = false)
    {now behind : Nat} {scheduler : Scheduler}
    (moved : s.scheduler.reschedule? now = some (behind, scheduler)) :
    behind = now - p.due (done.length + 1) ∧
      scheduler = { s.scheduler with
        nextIssue := p.due (done.length + 1)
        nextInterval := (done.length + 1) % p.sequences.intervals.length } := by
  obtain ⟨gap, hgap, hbehind, hscheduler⟩ := Scheduler.reschedule?_eq_some moved
  rw [h.sequences, h.gap hactive] at hgap
  have hdue : p.due (done.length + 1) = s.scheduler.nextIssue + gap := by
    rw [SenderSetup.due, hgap, h.due hactive]
    rfl
  have hcursor : (s.scheduler.nextInterval + 1) % s.scheduler.sequences.intervals.length =
      (done.length + 1) % p.sequences.intervals.length := by
    rw [h.sequences, h.gap hactive, Nat.mod_add_mod]
  refine ⟨by rw [hdue]; exact hbehind, ?_⟩
  rw [hscheduler, hcursor, hdue]

/-- A call returned and the sender goes on. -/
theorem Follows.returned (h : p.Follows calls done s) {call : SendCall}
    (hcall : s.phase.call? = some call) {behind : Nat} {scheduler : Scheduler}
    (moved : s.scheduler.reschedule? call.now = some (behind, scheduler)) {stats : ClientStats}
    (hsize : stats.issuedTo.size = s.stats.issuedTo.size) (issued : Nat)
    (result : Except TransportError Unit) (phase : SenderPhase) (hquiet : phase.call? = none)
    (halive : phase ≠ .aborted) :
    p.Follows calls (done ++ [(call, result)])
      { s with scheduler := scheduler, stats := stats, issued := issued, phase := phase } := by
  have hactive := isOver_of_call? hcall
  obtain ⟨-, rfl⟩ := h.moved hactive moved
  refine ⟨?_, h.prescribed, h.sequences, h.limit, h.fill, hsize.trans h.counters, h.server, h.length,
    h.id, halive, ?_, ?_⟩
  · rw [h.calls_eq, hcall, hquiet, List.map_append]
    exact (List.append_nil _).symm
  · intro _
    rw [List.length_append]
    rfl
  · intro _
    rw [List.length_append]
    rfl

theorem Follows.turn (hp : p.Sound) (h : p.Follows calls done s) (ht : s.Turn e t) :
    ∃ calls', p.Follows calls' (done ++ (s.exchange? e).toList) t := by
  cases ht with
  | recorded header finish =>
    refine ⟨calls, ?_⟩
    show p.Follows calls (done ++ []) _
    rw [List.append_nil]
    exact ⟨h.calls_eq, h.prescribed, h.sequences, h.limit, h.fill, h.counters, h.server, h.length,
      h.id, h.alive, h.gap, h.due⟩
  | unasked nothing =>
    rw [nothing]
    exact ⟨calls, by rw [Option.toList_none, List.append_nil]; exact h⟩
  | turned active uncalled quiet alive =>
    refine ⟨calls, ?_⟩
    rw [exchange?_of_uncalled uncalled, Option.toList_none, List.append_nil]
    refine ⟨?_, h.prescribed, h.sequences, h.limit, h.fill, h.counters, h.server, h.length, h.id, alive,
      fun _ => h.gap active, fun _ => h.due active⟩
    rw [h.calls_eq, uncalled, quiet]
  | @issued now chosen scheduler frame checking ready selected built =>
    obtain ⟨-, -, rfl⟩ := Scheduler.select?_eq_some selected
    have hactive : s.phase.isOver = false := by rw [checking]; rfl
    have hnext := h.prescribes hp checking ready selected built
    refine ⟨calls ++ [⟨chosen.server, frame, now⟩], ?_⟩
    show p.Follows _ (done ++ []) _
    rw [List.append_nil]
    refine ⟨?_, ?_, h.sequences, h.limit, h.fill, h.counters, ?_, ?_, ?_, by simp,
      fun _ => h.gap hactive, fun _ => h.due hactive⟩
    · rw [h.calls_eq, checking]
      exact congrArg (· ++ _) (List.append_nil _)
    · -- the new call comes last, and what was prescribed for the others stays so
      intro k c hc
      rcases Nat.lt_trichotomy k calls.length with hk | rfl | hk
      · rw [List.getElem?_append_left hk] at hc
        exact h.prescribed k c hc
      · rw [List.getElem?_concat_length, Option.some.injEq] at hc
        rw [← hc]
        exact hnext
      · rw [List.getElem?_eq_none (by rw [List.length_append, List.length_singleton]; omega)] at hc
        cases hc
    · rw [h.server, h.sequences, List.length_append, Nat.mod_add_mod]
      rfl
    · rw [h.length, h.sequences, List.length_append, Nat.mod_add_mod]
      rfl
    · rw [h.id, List.length_append, UInt32.ofNat_add, ← UInt32.add_assoc]
      rfl
  | unselected checking missing => exact absurd missing (h.select?_ne_none hp)
  | unbuilt checking selected missing => exact absurd missing (h.build?_ne_none hp selected _)
  | @accepted server now before behind frame stats scheduler sending counted moved =>
    have hcall : s.phase.call? = some ⟨server, frame, now⟩ := congrArg SenderPhase.call? sending
    obtain ⟨hknown, rfl⟩ := ClientStats.recordIssue?_eq_some counted
    refine ⟨calls, ?_⟩
    rw [exchange?_sent hcall]
    apply h.returned hcall moved
    · exact Array.size_set hknown
    · split <;> rfl
    · split <;> simp
  | @skipped server now before behind frame scheduler sending moved =>
    have hcall : s.phase.call? = some ⟨server, frame, now⟩ := congrArg SenderPhase.call? sending
    refine ⟨calls, ?_⟩
    rw [exchange?_sent hcall]
    have hkept : (s.stats.addLag behind).issuedTo.size = s.stats.issuedTo.size := rfl
    exact h.returned hcall moved hkept s.issued _ .checking rfl (by simp)
  | @failed server now before frame error sending fatal =>
    have hcall : s.phase.call? = some ⟨server, frame, now⟩ := congrArg SenderPhase.call? sending
    refine ⟨calls, ?_⟩
    rw [exchange?_sent hcall]
    refine ⟨?_, h.prescribed, h.sequences, h.limit, h.fill, h.counters, h.server, h.length, h.id,
      by simp, ?_, ?_⟩
    · rw [h.calls_eq, hcall, Option.toList_some, Option.toList_some, List.map_append]
      exact (List.append_nil _).symm
    · intro hover
      cases hover
    · intro hover
      cases hover
  | uncounted sending missing =>
    exact absurd missing (h.recordIssue?_ne_none hp (congrArg SenderPhase.call? sending))
  | unmoved sending missing kept =>
    exact absurd missing (h.reschedule?_ne_none hp (by rw [sending]; rfl) _)

/-! ## The counters -/

/-- The counters are those of the calls that returned. -/
structure Accounts (p : SenderSetup) (done : List Exchange) (s : Sender) : Prop where
  requests : s.stats.requests = done.countP fun x => x.2.isOk
  issued : s.issued = done.countP fun x => x.2.isOk
  issuedTo : ∀ server < p.servers,
    s.stats.issuedTo[server]? = some (done.countP fun x => x.2.isOk && x.1.server == server)
  lag : s.stats.lag = UInt64.ofNat (p.lagOf done)

theorem accounts_start (p : SenderSetup) : p.Accounts [] p.sender where
  requests := rfl
  issued := rfl
  issuedTo := by
    intro server hserver
    show (Array.replicate p.servers 0)[server]? = some 0
    rw [Array.getElem?_replicate, if_pos hserver]
  lag := rfl

/-- The schedule was moved on after a call that returned. -/
theorem lag_concat (h : p.Follows calls done s) {call : SendCall}
    (hcall : s.phase.call? = some call) {behind : Nat} {scheduler : Scheduler}
    (moved : s.scheduler.reschedule? call.now = some (behind, scheduler))
    {result : Except TransportError Unit} (hgoesOn : goesOn result = true)
    (hlag : s.stats.lag = UInt64.ofNat (p.lagOf done)) :
    s.stats.lag + UInt64.ofNat behind = UInt64.ofNat (p.lagOf (done ++ [(call, result)])) := by
  have hactive := isOver_of_call? hcall
  obtain ⟨hbehind, -⟩ := h.moved hactive moved
  rw [lagOf_concat, if_pos hgoesOn, UInt64.ofNat_add, hlag, hbehind]

/-- A call that was not taken is not counted. -/
theorem Accounts.refused (ha : p.Accounts done s) (call : SendCall) (error : TransportError) {t : Sender}
    (hrequests : t.stats.requests = s.stats.requests) (hissued : t.issued = s.issued)
    (hissuedTo : t.stats.issuedTo = s.stats.issuedTo)
    (hlag : t.stats.lag = UInt64.ofNat (p.lagOf (done ++ [(call, .error error)]))) :
    p.Accounts (done ++ [(call, .error error)]) t where
  requests := by
    rw [hrequests, List.countP_append, ← ha.requests]
    rfl
  issued := by
    rw [hissued, List.countP_append, ← ha.issued]
    rfl
  issuedTo := by
    intro server hserver
    rw [hissuedTo, List.countP_append]
    exact ha.issuedTo server hserver
  lag := hlag

theorem Accounts.turn (hp : p.Sound) (h : p.Follows calls done s) (ha : p.Accounts done s)
    (ht : s.Turn e t) : p.Accounts (done ++ (s.exchange? e).toList) t := by
  cases ht with
  | recorded header finish =>
    show p.Accounts (done ++ []) _
    rw [List.append_nil]
    exact ⟨ha.requests, ha.issued, ha.issuedTo, ha.lag⟩
  | unasked nothing =>
    rw [nothing, Option.toList_none, List.append_nil]
    exact ha
  | turned active uncalled quiet alive =>
    rw [exchange?_of_uncalled uncalled, Option.toList_none, List.append_nil]
    exact ⟨ha.requests, ha.issued, ha.issuedTo, ha.lag⟩
  | issued checking ready selected built =>
    show p.Accounts (done ++ []) _
    rw [List.append_nil]
    exact ⟨ha.requests, ha.issued, ha.issuedTo, ha.lag⟩
  | unselected checking missing => exact absurd missing (h.select?_ne_none hp)
  | unbuilt checking selected missing => exact absurd missing (h.build?_ne_none hp selected _)
  | @accepted server now before behind frame stats scheduler sending counted moved =>
    have hcall : s.phase.call? = some ⟨server, frame, now⟩ := congrArg SenderPhase.call? sending
    obtain ⟨hknown, rfl⟩ := ClientStats.recordIssue?_eq_some counted
    rw [exchange?_sent hcall]
    refine ⟨?_, ?_, ?_, lag_concat h hcall moved rfl ha.lag⟩
    · rw [Option.toList_some, List.countP_append, ← ha.requests]
      rfl
    · rw [Option.toList_some, List.countP_append, ← ha.issued]
      rfl
    · intro other hother
      have hcount := ha.issuedTo other hother
      rw [Option.toList_some, List.countP_append, List.countP_singleton]
      show (s.stats.issuedTo.set server (s.stats.issuedTo[server] + 1) hknown)[other]? = _
      by_cases hsame : server = other
      · subst hsame
        rw [Array.getElem?_eq_getElem hknown, Option.some.injEq] at hcount
        rw [Array.getElem?_set_self, hcount]
        simp [Except.isOk, Except.toBool]
      · rw [Array.getElem?_set_ne _ hsame, hcount]
        simp [hsame]
  | @skipped server now before behind frame scheduler sending moved =>
    have hcall : s.phase.call? = some ⟨server, frame, now⟩ := congrArg SenderPhase.call? sending
    rw [exchange?_sent hcall]
    exact ha.refused _ .peerClosed rfl rfl rfl (lag_concat h hcall moved (by decide) ha.lag)
  | @failed server now before frame error sending fatal =>
    have hcall : s.phase.call? = some ⟨server, frame, now⟩ := congrArg SenderPhase.call? sending
    have hends : goesOn (.error error) = false := by simp [goesOn, fatal]
    rw [exchange?_sent hcall]
    refine ha.refused _ error rfl rfl rfl ?_
    rw [lagOf_concat, hends]
    exact ha.lag
  | uncounted sending missing =>
    exact absurd missing (h.recordIssue?_ne_none hp (congrArg SenderPhase.call? sending))
  | unmoved sending missing kept =>
    exact absurd missing (h.reschedule?_ne_none hp (by rw [sending]; rfl) _)

/-! ## Runs -/

theorem follows_run (hp : p.Sound) (events : List SenderEvent) :
    p.Follows (p.sender.calls events) (p.sender.exchanges events) (p.sender.run events) ∧
      p.Accounts (p.sender.exchanges events) (p.sender.run events) := by
  induction events using List.reverseRecOn with
  | nil => exact ⟨p.follows_start, p.accounts_start⟩
  | append_singleton events e ih =>
    obtain ⟨h, ha⟩ := ih
    obtain ⟨calls, h'⟩ := h.turn hp (Sender.turn _ e)
    have ha' := ha.turn hp h (Sender.turn _ e)
    rw [← run_concat, ← exchanges_concat] at h' ha'
    -- the calls that the cursors followed are those of the run, which the invariant determines
    have hcalls := h'.calls_eq
    refine ⟨?_, ha'⟩
    rw [Sender.calls, ← hcalls]
    exact h'

end SenderSetup

namespace Sender

/-- A call is made where the sender looked and found that it was time and that there was room. -/
theorem calls_concat (s : Sender) (events : List SenderEvent) (e : SenderEvent) :
    s.calls (events ++ [e]) = s.calls events ∨
      ∃ c, e = .checked false c.now ∧ (s.run events).phase = .checking ∧
        (s.run events).scheduler.ready c.now (s.run events).issued
          (s.run events).stats.responses = true ∧
        s.calls (events ++ [e]) = s.calls events ++ [c] := by
  have hturn := (s.run events).turn e
  unfold calls
  rw [exchanges_concat, run_concat]
  generalize (s.run events).step e = t at hturn
  cases hturn with
  | recorded header finish =>
    left
    show List.map Prod.fst (_ ++ []) ++ _ = _
    rw [List.append_nil]
  | unasked nothing =>
    left
    rw [nothing, Option.toList_none, List.append_nil]
  | turned active uncalled quiet alive =>
    left
    rw [exchange?_of_uncalled uncalled, quiet, uncalled, Option.toList_none, List.append_nil]
  | @issued now chosen scheduler frame checking ready selected built =>
    right
    refine ⟨⟨chosen.server, frame, now⟩, rfl, checking, ready, ?_⟩
    show List.map Prod.fst (_ ++ []) ++ _ = _
    rw [checking, List.append_nil, List.append_assoc]
    rfl
  | unselected checking missing =>
    left
    show List.map Prod.fst (_ ++ []) ++ _ = _
    rw [checking, List.append_nil]
    rfl
  | unbuilt checking selected missing =>
    left
    show List.map Prod.fst (_ ++ []) ++ _ = _
    rw [checking, List.append_nil]
    rfl
  | accepted sending counted moved =>
    left
    exact map_fst_exchange? (congrArg SenderPhase.call? sending) _ _ (by split <;> rfl)
  | skipped sending moved =>
    left
    exact map_fst_exchange? (congrArg SenderPhase.call? sending) _ _ rfl
  | failed sending fatal =>
    left
    exact map_fst_exchange? (congrArg SenderPhase.call? sending) _ _ rfl
  | uncounted sending missing =>
    left
    exact map_fst_exchange? (congrArg SenderPhase.call? sending) _ _ rfl
  | unmoved sending missing kept =>
    left
    exact map_fst_exchange? (congrArg SenderPhase.call? sending) _ _ rfl

/-- The sender looked at the clock, with so many calls made before, and let the next one go. -/
structure LetGo (s : Sender) (events : List SenderEvent) (k now : Nat) : Prop where
  moment : ∃ before after, events = before ++ .checked false now :: after ∧
    (s.calls before).length = k ∧ (s.run before).phase = .checking ∧
    (s.run before).scheduler.ready now (s.run before).issued (s.run before).stats.responses = true

theorem letGo_calls {s : Sender} (hs : s.phase.call? = none) (events : List SenderEvent) :
    ∀ k c, (s.calls events)[k]? = some c → s.LetGo events k c.now := by
  induction events using List.reverseRecOn with
  | nil =>
    intro k c hc
    have hnone : s.calls [] = [] := by
      unfold calls
      show [] ++ s.phase.call?.toList = []
      rw [hs]
      rfl
    rw [hnone] at hc
    cases hc
  | append_singleton events e ih =>
    have hearlier : ∀ k c, (s.calls events)[k]? = some c → s.LetGo (events ++ [e]) k c.now := by
      intro k c hc
      obtain ⟨before, after, hevents, hmoment⟩ := (ih k c hc).moment
      refine ⟨before, after ++ [e], ?_, hmoment⟩
      rw [hevents, List.append_assoc]
      rfl
    intro k c hc
    -- a call that is not new was let go in the run before the event
    rcases s.calls_concat events e with hsame | ⟨last, rfl, hchecking, hready, hcalls⟩
    · rw [hsame] at hc
      exact hearlier k c hc
    · rw [hcalls] at hc
      by_cases hk : k < (s.calls events).length
      · rw [List.getElem?_append_left hk] at hc
        exact hearlier k c hc
      · have hlast := (List.getElem?_eq_some_iff.mp hc).1
        rw [List.length_append, List.length_singleton] at hlast
        have hk' : k = (s.calls events).length := by omega
        rw [hk', List.getElem?_concat_length, Option.some.injEq] at hc
        rw [← hc]
        exact ⟨events, [], rfl, hk'.symm, hchecking, hready⟩

end Sender

/-- **A sender sends what its sequences prescribe.** Whatever the stop flag, the clock and the transport
say, whatever responses are counted meanwhile, and wherever the run is cut, the sender never looks past
the end of a sequence, of its counters or of the zeros. The `k`-th call is the one prescribed for `k`,
let go at a look at the clock at which it was due and there was room, and each call takes one message
number. Of the calls that returned, the counters have those that were taken, in all and by server; the
lag has, for those that did not end the sender, the ticks by which the call was let go after the next
one was due. -/
theorem SenderSetup.run_trace {p : SenderSetup} (hp : p.Sound) (events : List SenderEvent) :
    let s := p.sender.run events
    let calls := p.sender.calls events
    let done := p.sender.exchanges events
    s.phase ≠ .aborted ∧
      (∀ k c, calls[k]? = some c →
        p.Prescribes k c ∧ p.sender.LetGo events k c.now) ∧
      done.map Prod.fst <+: calls ∧
      s.nextId = p.firstId + UInt32.ofNat calls.length ∧
      s.stats.requests = (done.countP fun x => x.2.isOk) ∧
      s.issued = s.stats.requests ∧
      (∀ server < p.servers, s.stats.issuedTo[server]? =
        some (done.countP fun x => x.2.isOk && x.1.server == server)) ∧
      s.stats.lag = UInt64.ofNat (p.lagOf done) := by
  intro s calls done
  obtain ⟨h, ha⟩ := follows_run hp events
  refine ⟨h.alive, ?_, List.prefix_append _ _, h.id, ha.requests, ?_, ha.issuedTo, ha.lag⟩
  · intro k c hc
    exact ⟨h.prescribed k c hc, Sender.letGo_calls rfl events k c hc⟩
  · rw [ha.requests]
    exact ha.issued

/-- Two servers and two lengths, of which one is raised and one cut. The first request is taken, late; the
second goes to a closed server and is skipped; the third is under way. -/
theorem SenderSetup.run_trace_two :
    let p : SenderSetup := ⟨⟨[1, 0], [8, 100], [5]⟩, 2, 18, 10, 2, 1, 4294967295, List.replicate 18 0, 1⟩
    let events : List SenderEvent := [.checked false 17, .sent (.ok ()), .checked false 20,
      .sent (.error .peerClosed), .checked false 20]
    p.Sound ∧ (p.sender.run events).phase ≠ .aborted ∧ (p.sender.run events).nextId = 2 ∧
      (p.sender.run events).stats.requests = 1 ∧
      (p.sender.run events).stats.issuedTo[1]? = some 1 ∧ (p.sender.run events).stats.lag = 2 := by
  intro p events
  have hfilled : ∀ n ∈ p.sequences.lengths, (clampLength n p.limit).1.toInt ≤ p.fill.length :=
    List.forall_mem_cons.mpr ⟨by decide, List.forall_mem_singleton.mpr (by decide)⟩
  have hp : p.Sound := ⟨by decide, by decide, by decide, by decide, by decide, hfilled⟩
  obtain ⟨halive, -, -, hid, hrequests, -, hissued, hlag⟩ := SenderSetup.run_trace hp events
  rw [hid, hrequests, hissued 1 (by decide), hlag]
  exact ⟨hp, halive, by decide +kernel, by decide +kernel, by decide +kernel, by decide +kernel⟩

end EchoLoad
