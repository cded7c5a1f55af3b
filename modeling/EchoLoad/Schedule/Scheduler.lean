import EchoLoad.Schedule.Sequences

/-!
# The schedule of a sender

A scheduler goes round the three sequences with three cursors. Issue times advance by the drawn gap
from the previous *scheduled* time, not from the time a request went out: falling behind is measured
as lag and never made up for by skipping a request.
-/

namespace EchoLoad

/-- The server and the length of a request. -/
structure Selection where
  server : Nat
  length : Int32
deriving DecidableEq, Repr

/-- The schedule of one sender. -/
structure Scheduler where
  sequences : Sequences
  nextServer : Nat
  nextLength : Nat
  nextInterval : Nat
  /-- when the next request is due -/
  nextIssue : Nat
  /-- how many requests may be unanswered, at least one -/
  cap : Nat
  lengthLimit : Int32
deriving DecidableEq, Repr

namespace Scheduler

/-- A schedule whose first request is due at `start`. -/
def new (sequences : Sequences) (cap : Nat) (lengthLimit : Int32) (start : Nat) : Scheduler :=
  ⟨sequences, 0, 0, 0, start, max cap 1, lengthLimit⟩

/-- Whether a request may go out now, after so many were issued and so many answered. -/
def ready (s : Scheduler) (now issued completed : Nat) : Bool :=
  s.nextIssue ≤ now && issued - completed < s.cap

/-- The server and the length of the next request, and the schedule after it; none if a sequence
has nothing at its cursor. -/
def select? (s : Scheduler) : Option (Selection × Scheduler) := do
  let server ← s.sequences.servers[s.nextServer]?
  let length ← s.sequences.lengths[s.nextLength]?
  pure
    (⟨server, (clampLength length s.lengthLimit).1⟩,
      { s with
        nextServer := (s.nextServer + 1) % s.sequences.servers.length
        nextLength := (s.nextLength + 1) % s.sequences.lengths.length })

/-- Move the next issue time on by one gap. Gives how far `now` is already past it. -/
def reschedule? (s : Scheduler) (now : Nat) : Option (Nat × Scheduler) := do
  let interval ← s.sequences.intervals[s.nextInterval]?
  let due := s.nextIssue + interval
  pure
    (now - due,
      { s with
        nextIssue := due
        nextInterval := (s.nextInterval + 1) % s.sequences.intervals.length })

theorem select?_eq_some {s t : Scheduler} {chosen : Selection} (h : s.select? = some (chosen, t)) :
    s.sequences.servers[s.nextServer]? = some chosen.server ∧
      (∃ n, s.sequences.lengths[s.nextLength]? = some n ∧
        chosen.length = (clampLength n s.lengthLimit).1) ∧
      t = { s with
        nextServer := (s.nextServer + 1) % s.sequences.servers.length
        nextLength := (s.nextLength + 1) % s.sequences.lengths.length } := by
  unfold select? at h
  cases hserver : s.sequences.servers[s.nextServer]? with
  | none => simp [hserver] at h
  | some server =>
    cases hlength : s.sequences.lengths[s.nextLength]? with
    | none => simp [hserver, hlength] at h
    | some n =>
      simp only [hserver, hlength, Option.bind_eq_bind, Option.bind_some, Option.pure_def,
        Option.some.injEq, Prod.mk.injEq] at h
      obtain ⟨rfl, rfl⟩ := h
      exact ⟨rfl, ⟨n, rfl, rfl⟩, rfl⟩

theorem select?_ne_none {s : Scheduler} (hserver : s.nextServer < s.sequences.servers.length)
    (hlength : s.nextLength < s.sequences.lengths.length) : s.select? ≠ none := by
  unfold select?
  rw [List.getElem?_eq_getElem hserver, List.getElem?_eq_getElem hlength]
  simp

theorem reschedule?_eq_some {s t : Scheduler} {now behind : Nat}
    (h : s.reschedule? now = some (behind, t)) :
    ∃ gap, s.sequences.intervals[s.nextInterval]? = some gap ∧
      behind = now - (s.nextIssue + gap) ∧
      t = { s with
        nextIssue := s.nextIssue + gap
        nextInterval := (s.nextInterval + 1) % s.sequences.intervals.length } := by
  unfold reschedule? at h
  cases hgap : s.sequences.intervals[s.nextInterval]? with
  | none => simp [hgap] at h
  | some gap =>
    simp only [hgap, Option.bind_eq_bind, Option.bind_some, Option.pure_def, Option.some.injEq,
      Prod.mk.injEq] at h
    obtain ⟨rfl, rfl⟩ := h
    exact ⟨gap, rfl, rfl, rfl⟩

theorem reschedule?_ne_none {s : Scheduler} (now : Nat)
    (hgap : s.nextInterval < s.sequences.intervals.length) : s.reschedule? now ≠ none := by
  unfold reschedule?
  rw [List.getElem?_eq_getElem hgap]
  simp

end Scheduler

end EchoLoad
