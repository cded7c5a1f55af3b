import EchoLoad.Proofs.Client.Access
import EchoLoad.Proofs.Schedule.Calls
import Mathlib.Data.Nat.ModEq

/-!
# When a schedule repeats itself

A schedule goes round three sequences whose sizes have no common factor. With one gap taken for each
request, its cursors move in lock step, and it takes the product of the sizes until they stand together
again as they did:

> `Scheduler.after?_repeat`: at a positive rate the cursors agree after two numbers of requests exactly
> if these differ by a multiple of all three sizes, which is about 3 · 10¹¹.

Requests that follow each other at once have a single gap, whose cursor does not move. Then it is the
product of the other two sizes.
-/

namespace EchoLoad

open EchoLoad.Random EchoLoad.Random.Drawing

/-! ## Sizes of sequences -/

namespace Sequences

/-- Whether requests are spread out in time at a rate; otherwise they follow each other at once. -/
def isPaced : Option Float → Bool
  | none => false
  | some rate => rate > 0.0

/-- The sizes of sequences that are drawn for a rate. -/
structure Sized (rate : Option Float) (q : Sequences) : Prop where
  servers : q.servers.length = 4729
  lengths : q.lengths.length = 7207
  paced : isPaced rate = true → q.intervals.length = 8783
  unpaced : isPaced rate = false → q.intervals = [0]

variable {σ : Type} {rate : Option Float}

theorem gives_length_drawIntervals (supply : Supply σ) (rate : Option Float) :
    (drawIntervals supply rate).Gives fun gaps =>
      (isPaced rate = true → gaps.length = 8783) ∧ (isPaced rate = false → gaps = [0]) := by
  cases rate with
  | none => exact gives_pure ⟨fun hpaced => absurd hpaced Bool.false_ne_true, fun _ => rfl⟩
  | some rate =>
    unfold drawIntervals isPaced
    dsimp only
    split
    next hpositive =>
      refine ((gives_any _).times intervalCount).imp fun gaps hgaps => ⟨fun _ => hgaps.1, ?_⟩
      intro hunpaced
      exact absurd hpositive (of_decide_eq_false hunpaced)
    next hpositive =>
      exact gives_pure ⟨fun hpaced => absurd (of_decide_eq_true hpaced) hpositive, fun _ => rfl⟩

theorem gives_sized_drawFrom (supply : Supply σ) (servers : Nat) (w : Workload)
    (rate : Option Float) : (drawFrom supply servers w rate).Gives (Sized rate) := by
  refine ((gives_any _).times serverCount).bind fun chosen hchosen => ?_
  refine ((gives_any (w.drawFrom supply)).times lengthCount).bind fun lengths hlengths => ?_
  refine (gives_length_drawIntervals supply rate).bind fun gaps hgaps => gives_pure ?_
  exact ⟨hchosen.1, hlengths.1, hgaps.1, hgaps.2⟩

theorem Sized.nonempty {q : Sequences} (h : q.Sized rate) :
    q.servers ≠ [] ∧ q.lengths ≠ [] ∧ q.intervals ≠ [] := by
  refine ⟨List.ne_nil_of_length_eq_add_one h.servers, List.ne_nil_of_length_eq_add_one h.lengths, ?_⟩
  cases hpaced : isPaced rate with
  | true => exact List.ne_nil_of_length_eq_add_one (h.paced hpaced)
  | false =>
    rw [h.unpaced hpaced]
    exact List.cons_ne_nil 0 []

end Sequences

/-! ## Calls in lock step -/

namespace ScheduleCall

/-- Calls that come to `k` requests: as many were selected as gaps were taken. -/
def InStep (k : Nat) (calls : List ScheduleCall) : Prop :=
  calls.countP (·.isSelect) = k ∧ calls.countP (·.isReschedule) = k

/-- For each reading of the clock, a request is selected and its gap taken. -/
def lockStep (nows : List Nat) : List ScheduleCall :=
  nows.flatMap fun now => [.select, .reschedule now]

theorem inStep_lockStep (nows : List Nat) : InStep nows.length (lockStep nows) := by
  induction nows with
  | nil => exact ⟨rfl, rfl⟩
  | cons now nows ih =>
    have hcons : lockStep (now :: nows) = .select :: .reschedule now :: lockStep nows := rfl
    rw [InStep, hcons, List.countP_cons, List.countP_cons, List.countP_cons, List.countP_cons, ih.1,
      ih.2]
    exact ⟨rfl, rfl⟩

end ScheduleCall

namespace Scheduler

open ScheduleCall

/-- The schedule after some calls. -/
def after? (s : Scheduler) (calls : List ScheduleCall) : Option Scheduler :=
  (s.serveAll? calls).map Prod.snd

/-- Where the cursors stand. -/
def position (s : Scheduler) : Nat × Nat × Nat := (s.nextServer, s.nextLength, s.nextInterval)

variable {q : Sequences} {cap first i j : Nat} {limit : Int32} {s t : Scheduler}

theorem reaches_after (hservers : q.servers ≠ []) (hlengths : q.lengths ≠ [])
    (hgaps : q.intervals ≠ []) (cap : Nat) (limit : Int32) (first : Nat) {calls : List ScheduleCall}
    (hcalls : InStep i calls) :
    ∃ s, (new q cap limit first).after? calls = some s ∧ (new q cap limit first).Reaches i i s := by
  have hstart : (new q cap limit first).Reaches 0 0 _ := .start
  obtain ⟨answers, s, hserve, -, hs, -⟩ := hstart.serveAll hservers hlengths hgaps calls
  rw [hcalls.1, hcalls.2, Nat.zero_add] at hs
  exact ⟨s, congrArg (Option.map Prod.snd) hserve, hs⟩

/-- Two counts agree modulo `n`. -/
theorem mod_eq_mod_iff_dvd_sub (n i j : Nat) : i % n = j % n ↔ (n : Int) ∣ i - j :=
  eq_comm.trans Nat.modEq_iff_dvd

theorem Reaches.pair_eq_iff (hs : (new q cap limit first).Reaches i i s)
    (ht : (new q cap limit first).Reaches j j t)
    (hcoprime : q.servers.length.Coprime q.lengths.length) :
    s.nextServer = t.nextServer ∧ s.nextLength = t.nextLength ↔
      ((q.servers.length * q.lengths.length : Nat) : Int) ∣ i - j := by
  rw [hs.cursors.1, hs.cursors.2.1, ht.cursors.1, ht.cursors.2.1, ← mod_eq_mod_iff_dvd_sub]
  exact Nat.modEq_and_modEq_iff_modEq_mul hcoprime

theorem Reaches.position_eq_iff (hs : (new q cap limit first).Reaches i i s)
    (ht : (new q cap limit first).Reaches j j t)
    (hcoprime : q.servers.length.Coprime q.lengths.length)
    (hgaps : (q.servers.length * q.lengths.length).Coprime q.intervals.length) :
    s.position = t.position ↔
      ((q.servers.length * q.lengths.length * q.intervals.length : Nat) : Int) ∣ i - j := by
  rw [position, position, Prod.mk.injEq, Prod.mk.injEq, ← and_assoc, hs.pair_eq_iff ht hcoprime,
    hs.cursors.2.2, ht.cursors.2.2, ← mod_eq_mod_iff_dvd_sub, ← mod_eq_mod_iff_dvd_sub]
  exact Nat.modEq_and_modEq_iff_modEq_mul hgaps

/-- **Combinations come back after the product of the sizes, and not before.** Over sequences that were
drawn for a port, whatever they were drawn from, each request finds its server, its length and its gap.
At a positive rate there are 4729, 7207 and 8783 of them, and the three cursors stand after `i` requests
where they stand after `j` exactly if `i - j` is a multiple of the product. Without, there is one gap, and
the two other cursors come back together after 4729 times 7207. -/
theorem after?_repeat {σ : Type} {supply : Supply σ} {servers : Nat} {w : Workload}
    {rate : Option Float} {seed rest : σ}
    (hq : Sequences.drawFrom supply servers w rate seed = some (q, rest)) (cap : Nat) (limit : Int32)
    (first : Nat) {i j : Nat} {calls others : List ScheduleCall} (hcalls : InStep i calls)
    (hothers : InStep j others) :
    ∃ s t, (new q cap limit first).after? calls = some s ∧
      (new q cap limit first).after? others = some t ∧
      (Sequences.isPaced rate = true →
        q.servers.length = 4729 ∧ q.lengths.length = 7207 ∧ q.intervals.length = 8783 ∧
        (s.position = t.position ↔ (4729 * 7207 * 8783 : Int) ∣ i - j)) ∧
      (Sequences.isPaced rate = false →
        q.servers.length = 4729 ∧ q.lengths.length = 7207 ∧ q.intervals = [0] ∧
        (s.nextServer = t.nextServer ∧ s.nextLength = t.nextLength ↔
          (4729 * 7207 : Int) ∣ i - j)) := by
  have hsized : q.Sized rate :=
    Sequences.gives_sized_drawFrom supply servers w rate seed q rest hq
  obtain ⟨hservers, hlengths, hgaps⟩ := hsized.nonempty
  obtain ⟨s, hafter, hs⟩ := reaches_after hservers hlengths hgaps cap limit first hcalls
  obtain ⟨t, hafter', ht⟩ := reaches_after hservers hlengths hgaps cap limit first hothers
  refine ⟨s, t, hafter, hafter', fun hpaced => ?_, fun hunpaced => ?_⟩
  · have hintervals := hsized.paced hpaced
    have hiff := hs.position_eq_iff ht
    rw [hsized.servers, hsized.lengths, hintervals] at hiff
    exact ⟨hsized.servers, hsized.lengths, hintervals, hiff (by decide) (by decide)⟩
  · have hiff := hs.pair_eq_iff ht
    rw [hsized.servers, hsized.lengths] at hiff
    exact ⟨hsized.servers, hsized.lengths, hsized.unpaced hunpaced, hiff (by decide)⟩

/-- A million requests in a second, to three servers: the cursors are back at the start after each multiple
of 299341354049 requests, and at no other time. -/
theorem after?_repeat_start :
    ∃ q : Sequences, q.intervals.length = 8783 ∧
      ∀ nows, ∃ s, (new q 4 1000 0).after? (lockStep nows) = some s ∧
        (s.position = (0, 0, 0) ↔ (299341354049 : Int) ∣ nows.length) := by
  have hproper : (Workload.fixed 100).IsProper := by
    show 1 ≤ (100 : Int32).toInt
    decide
  obtain ⟨q, rest, hq⟩ :=
    Sequences.returns_drawFrom RequestPlan.lasting_leastNumbers 3 hproper (some 1e6) ()
  have hpaced : Sequences.isPaced (some 1e6) = true := by decide
  have hnone : InStep 0 [] := ⟨rfl, rfl⟩
  have hrepeat (nows : List Nat) := after?_repeat hq 4 1000 0 (inStep_lockStep nows) hnone
  refine ⟨q, ?_, fun nows => ?_⟩
  · obtain ⟨s, t, -, -, hlaw, -⟩ := hrepeat []
    exact (hlaw hpaced).2.2.1
  · obtain ⟨s, t, hs, ht, hlaw, -⟩ := hrepeat nows
    cases ht
    have hiff := (hlaw hpaced).2.2.2
    rw [Int.natCast_zero, Int.sub_zero] at hiff
    exact ⟨s, hs, hiff⟩

end Scheduler

end EchoLoad
