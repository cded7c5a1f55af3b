import EchoLoad.Proofs.Schedule.Course
import Mathlib.Algebra.GroupWithZero.Nat

/-!
# What a schedule answers

A schedule is asked for the next request, told to set the next issue time, and asked whether a request may
go out. The calls come in any order, and each at any time.

> `Scheduler.serveAll?_answers`: an answer depends on how many calls of each kind came before, and on
> nothing else that happened.

In particular an issue time is the sum of the gaps before it. How late the calls were that set it is told in
their answers, and then forgotten: a schedule does not drift towards the times at which it is asked.
-/

namespace EchoLoad

namespace Sequences

/-- The gap after the request with a number; there is none to wait where no gaps are. -/
def gapAfter (q : Sequences) (k : Nat) : Nat := q.intervals[k % q.intervals.length]?.getD 0

/-- When the request with a number is due, if the first one is due at `first`. -/
def dueAt (q : Sequences) (first k : Nat) : Nat := first + ((List.range k).map q.gapAfter).sum

theorem dueAt_succ (q : Sequences) (first k : Nat) :
    q.dueAt first (k + 1) = q.dueAt first k + q.gapAfter k := by
  rw [dueAt, dueAt, List.range_succ, List.map_append, List.sum_append, List.map_singleton,
    List.sum_singleton, Nat.add_assoc]

end Sequences

/-! ## Calls and answers -/

/-- What a schedule is asked. -/
inductive ScheduleCall
  | select
  | reschedule (now : Nat)
  | ready (now issued completed : Nat)
deriving DecidableEq

namespace ScheduleCall

def isSelect : ScheduleCall → Bool
  | select => true
  | _ => false

def isReschedule : ScheduleCall → Bool
  | reschedule _ => true
  | _ => false

end ScheduleCall

/-- What it says. -/
inductive ScheduleAnswer
  | selected (chosen : Selection)
  | behind (ticks : Nat)
  | ready (yes : Bool)
deriving DecidableEq

namespace Scheduler

def serve? (s : Scheduler) : ScheduleCall → Option (ScheduleAnswer × Scheduler)
  | .select => s.select?.map fun (chosen, t) => (.selected chosen, t)
  | .reschedule now => (s.reschedule? now).map fun (ticks, t) => (.behind ticks, t)
  | .ready now issued completed => some (.ready (s.ready now issued completed), s)

/-- Serve calls one after the other; none if one of them looks past the end of a sequence. -/
def serveAll? (s : Scheduler) : List ScheduleCall → Option (List ScheduleAnswer × Scheduler)
  | [] => some ([], s)
  | call :: calls => do
    let (answer, s) ← s.serve? call
    let (answers, s) ← s.serveAll? calls
    pure (answer :: answers, s)

/-- The answer that a call gets after `n` requests and `m` gaps. -/
inductive Answers (q : Sequences) (cap : Nat) (limit : Int32) (first n m : Nat) :
    ScheduleCall → ScheduleAnswer → Prop
  | selected {server : Nat} {drawn : Int32}
      (next : q.servers[n % q.servers.length]? = some server)
      (length : q.lengths[n % q.lengths.length]? = some drawn) :
      Answers q cap limit first n m .select (.selected ⟨server, (clampLength drawn limit).1⟩)
  | behind (now : Nat) :
      Answers q cap limit first n m (.reschedule now) (.behind (now - q.dueAt first (m + 1)))
  | ready {now issued completed : Nat} {yes : Bool}
      (due : yes = true ↔ q.dueAt first m ≤ now ∧ issued - completed < max 1 cap) :
      Answers q cap limit first n m (.ready now issued completed) (.ready yes)

variable {q : Sequences} {cap first n m : Nat} {limit : Int32} {t : Scheduler}

/-! ## One call -/

theorem Reaches.cap_eq (ht : (new q cap limit first).Reaches n m t) : t.cap = max cap 1 := by
  induction ht with
  | start => rfl
  | select ht selected ih =>
    obtain ⟨-, -, rfl⟩ := select?_eq_some selected
    exact ih
  | reschedule ht moved ih =>
    obtain ⟨gap, -, -, rfl⟩ := reschedule?_eq_some moved
    exact ih

/-- The gap that is taken next. -/
theorem Reaches.gap_eq (ht : (new q cap limit first).Reaches n m t) {gap : Nat}
    (hgap : t.sequences.intervals[t.nextInterval]? = some gap) : gap = q.gapAfter m := by
  have hsequences : t.sequences = q := ht.kept.1
  rw [hsequences, ht.cursors.2.2] at hgap
  rw [Sequences.gapAfter, hgap, Option.getD_some]

/-- The issue time is where as many gaps lead. -/
theorem Reaches.nextIssue_eq (ht : (new q cap limit first).Reaches n m t) :
    t.nextIssue = q.dueAt first m := by
  induction ht with
  | start => rfl
  | select ht selected ih =>
    obtain ⟨-, -, rfl⟩ := select?_eq_some selected
    exact ih
  | reschedule ht moved ih =>
    obtain ⟨gap, hgap, -, rfl⟩ := reschedule?_eq_some moved
    rw [Sequences.dueAt_succ, ← ht.gap_eq hgap, ← ih]

theorem Reaches.ready_iff (ht : (new q cap limit first).Reaches n m t) (now issued completed : Nat) :
    t.ready now issued completed = true ↔
      q.dueAt first m ≤ now ∧ issued - completed < max 1 cap := by
  unfold ready
  rw [Bool.and_eq_true, decide_eq_true_eq, decide_eq_true_eq, ht.nextIssue_eq, ht.cap_eq,
    Nat.max_comm]

/-- A call is answered, and counted where it moves a cursor. -/
theorem Reaches.serve (ht : (new q cap limit first).Reaches n m t) (hservers : q.servers ≠ [])
    (hlengths : q.lengths ≠ []) (hgaps : q.intervals ≠ []) (call : ScheduleCall) :
    ∃ answer u, t.serve? call = some (answer, u) ∧ Answers q cap limit first n m call answer ∧
      (new q cap limit first).Reaches (n + if call.isSelect then 1 else 0)
        (m + if call.isReschedule then 1 else 0) u := by
  cases call with
  | select =>
    obtain ⟨chosen, u, drawn, hselect, hserver, hdrawn, hlength⟩ := ht.selects hservers hlengths
    refine ⟨.selected chosen, u, ?_, ?_, ht.select hselect⟩
    · show t.select?.map _ = _
      rw [hselect]
      rfl
    · have hanswer : Answers q cap limit first n m .select
          (.selected ⟨chosen.server, (clampLength drawn limit).1⟩) := .selected hserver hdrawn
      rw [← hlength] at hanswer
      exact hanswer
  | reschedule now =>
    cases hmoved : t.reschedule? now with
    | none => exact absurd hmoved (ht.reschedules hgaps now)
    | some moved =>
      obtain ⟨behind, u⟩ := moved
      refine ⟨.behind behind, u, ?_, ?_, ht.reschedule hmoved⟩
      · show (t.reschedule? now).map _ = _
        rw [hmoved]
        rfl
      · obtain ⟨gap, hgap, hbehind, -⟩ := reschedule?_eq_some hmoved
        rw [ht.gap_eq hgap, ht.nextIssue_eq, ← Sequences.dueAt_succ] at hbehind
        rw [hbehind]
        exact .behind now
  | ready now issued completed =>
    exact ⟨.ready (t.ready now issued completed), t, rfl, .ready (ht.ready_iff now issued completed), ht⟩

/-! ## All calls -/

theorem add_countP_cons {α : Type} (p : α → Bool) (n : Nat) (a : α) (l : List α) :
    n + (a :: l).countP p = n + (if p a then 1 else 0) + l.countP p := by
  rw [List.countP_cons]
  omega

theorem Reaches.serveAll (ht : (new q cap limit first).Reaches n m t) (hservers : q.servers ≠ [])
    (hlengths : q.lengths ≠ []) (hgaps : q.intervals ≠ []) (calls : List ScheduleCall) :
    ∃ answers u, t.serveAll? calls = some (answers, u) ∧ answers.length = calls.length ∧
      (new q cap limit first).Reaches (n + calls.countP (·.isSelect))
        (m + calls.countP (·.isReschedule)) u ∧
      ∀ k call answer, calls[k]? = some call → answers[k]? = some answer →
        Answers q cap limit first (n + (calls.take k).countP (·.isSelect))
          (m + (calls.take k).countP (·.isReschedule)) call answer := by
  induction calls generalizing n m t with
  | nil =>
    refine ⟨[], t, rfl, rfl, ht, ?_⟩
    intro k call answer hcall
    cases hcall
  | cons call calls ih =>
    obtain ⟨answer, u, hserve, hanswer, hu⟩ := ht.serve hservers hlengths hgaps call
    obtain ⟨answers, v, hserveAll, hlength, hv, hanswers⟩ := ih hu
    refine ⟨answer :: answers, v, ?_, congrArg (· + 1) hlength, ?_, ?_⟩
    · show (t.serve? call >>= _) = _
      rw [hserve]
      show (u.serveAll? calls >>= _) = _
      rw [hserveAll]
      rfl
    · rw [add_countP_cons, add_countP_cons]
      exact hv
    · intro k later got hlater hgot
      cases k with
      | zero =>
        cases hlater
        cases hgot
        exact hanswer
      | succ k =>
        rw [List.take_succ_cons, add_countP_cons, add_countP_cons]
        exact hanswers k later got hlater hgot

/-- **The answers of a schedule depend on the numbers of calls alone.** Over sequences that have anything in
them, calls in any order are all answered. The `n`-th request, from 0, is the one that the sequences have at
`n`, going round; after `m` gaps the next request is due when they are over, whatever times were told; and
the answer to the call that takes the last of them is how far the time it was told is past that. A request
may go out exactly if it is due and fewer than `cap` are unanswered, or none if `cap` is zero. -/
theorem serveAll?_answers (hservers : q.servers ≠ []) (hlengths : q.lengths ≠ [])
    (hgaps : q.intervals ≠ []) (cap : Nat) (limit : Int32) (first : Nat) (calls : List ScheduleCall) :
    ∃ answers t, (new q cap limit first).serveAll? calls = some (answers, t) ∧
      answers.length = calls.length ∧
      t.nextIssue = q.dueAt first (calls.countP (·.isReschedule)) ∧
      ∀ k call answer, calls[k]? = some call → answers[k]? = some answer →
        Answers q cap limit first ((calls.take k).countP (·.isSelect))
          ((calls.take k).countP (·.isReschedule)) call answer := by
  have hstart : (new q cap limit first).Reaches 0 0 _ := .start
  obtain ⟨answers, t, hserve, hlength, ht, hanswers⟩ :=
    hstart.serveAll hservers hlengths hgaps calls
  simp only [Nat.zero_add] at ht hanswers
  exact ⟨answers, t, hserve, hlength, ht.nextIssue_eq, hanswers⟩

/-- Two servers, three lengths and two gaps, of which one is zero. The first request is late by three ticks;
the second is not, as its gap is measured from when it was due. -/
theorem serveAll?_answers_late :
    let q : Sequences := ⟨[1, 0], [8, 100, 30], [5, 0]⟩
    let calls : List ScheduleCall :=
      [.ready 9 0 0, .select, .reschedule 18, .ready 15 3 1, .select, .reschedule 12]
    ∃ answers t, (new q 2 18 10).serveAll? calls = some (answers, t) ∧
      answers = [.ready false, .selected ⟨1, 16⟩, .behind 3, .ready false, .selected ⟨0, 18⟩,
        .behind 0] ∧
      t.nextIssue = 15 ∧ Answers q 2 18 10 2 1 (.reschedule 12) (.behind 0) := by
  intro q calls
  obtain ⟨answers, t, hserve, -, hissue, hanswers⟩ :=
    serveAll?_answers (q := q) (by decide) (by decide) (by decide) 2 18 10 calls
  have hrun : ((new q 2 18 10).serveAll? calls).map Prod.fst = some
      [.ready false, .selected ⟨1, 16⟩, .behind 3, .ready false, .selected ⟨0, 18⟩, .behind 0] := by
    decide
  rw [hserve] at hrun
  have hlist := Option.some.inj hrun
  refine ⟨answers, t, hserve, hlist, hissue, ?_⟩
  exact hanswers 5 (.reschedule 12) (.behind 0) rfl (congrArg (·[5]?) hlist)

end Scheduler

end EchoLoad
