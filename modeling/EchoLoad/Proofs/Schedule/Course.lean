import EchoLoad.Schedule.Scheduler

/-!
# The course of a schedule

A schedule moves its cursors in two ways: a request is selected, and the next issue time is set. These
may be done in any order; `Scheduler.Reaches` counts how often each was done.

> `Scheduler.Reaches.cursors`: the cursors stand where as many requests and as many gaps lead.

So a schedule whose sequences have anything in them never looks past their ends
(`Scheduler.Reaches.selects`, `Scheduler.Reaches.reschedules`).
-/

namespace EchoLoad.Scheduler

/-- A schedule after so many requests and so many gaps. -/
inductive Reaches (s : Scheduler) : Nat → Nat → Scheduler → Prop
  | start : Reaches s 0 0 s
  | select {n m : Nat} {t u : Scheduler} {chosen : Selection} (ht : Reaches s n m t)
      (selected : t.select? = some (chosen, u)) : Reaches s (n + 1) m u
  | reschedule {n m now behind : Nat} {t u : Scheduler} (ht : Reaches s n m t)
      (moved : t.reschedule? now = some (behind, u)) : Reaches s n (m + 1) u

variable {s t u : Scheduler} {n m : Nat}

/-- Only the cursors and the issue time move. -/
theorem Reaches.kept (ht : s.Reaches n m t) :
    t.sequences = s.sequences ∧ t.lengthLimit = s.lengthLimit := by
  induction ht with
  | start => exact ⟨rfl, rfl⟩
  | select ht selected ih =>
    obtain ⟨-, -, rfl⟩ := select?_eq_some selected
    exact ih
  | reschedule ht moved ih =>
    obtain ⟨gap, -, -, rfl⟩ := reschedule?_eq_some moved
    exact ih

variable {q : Sequences} {cap first : Nat} {limit : Int32}

theorem Reaches.cursors (ht : (new q cap limit first).Reaches n m t) :
    t.nextServer = n % q.servers.length ∧ t.nextLength = n % q.lengths.length ∧
      t.nextInterval = m % q.intervals.length := by
  induction ht with
  | start => exact ⟨(Nat.zero_mod _).symm, (Nat.zero_mod _).symm, (Nat.zero_mod _).symm⟩
  | select ht selected ih =>
    obtain ⟨hserver, hlength, hgap⟩ := ih
    have hsequences := ht.kept.1
    obtain ⟨-, -, rfl⟩ := select?_eq_some selected
    refine ⟨?_, ?_, hgap⟩
    · rw [hsequences, hserver]
      exact Nat.mod_add_mod ..
    · rw [hsequences, hlength]
      exact Nat.mod_add_mod ..
  | reschedule ht moved ih =>
    obtain ⟨hserver, hlength, hgap⟩ := ih
    have hsequences := ht.kept.1
    obtain ⟨gap, -, -, rfl⟩ := reschedule?_eq_some moved
    refine ⟨hserver, hlength, ?_⟩
    rw [hsequences, hgap]
    exact Nat.mod_add_mod ..

/-- The request with a number goes to the server that the sequence has there. -/
theorem Reaches.server_eq (ht : (new q cap limit first).Reaches n m t) {chosen : Selection}
    (hselect : t.select? = some (chosen, u)) :
    q.servers[n % q.servers.length]? = some chosen.server := by
  have hsequences : t.sequences = q := ht.kept.1
  obtain ⟨hserver, -, -⟩ := select?_eq_some hselect
  rwa [hsequences, ht.cursors.1] at hserver

/-- Its length is the one that the sequence has there, cut to the limit. -/
theorem Reaches.length_eq (ht : (new q cap limit first).Reaches n m t) {chosen : Selection}
    (hselect : t.select? = some (chosen, u)) :
    ∃ drawn, q.lengths[n % q.lengths.length]? = some drawn ∧
      chosen.length = (clampLength drawn limit).1 := by
  obtain ⟨hsequences, hlimit⟩ := ht.kept
  have hsequences : t.sequences = q := hsequences
  have hlimit : t.lengthLimit = limit := hlimit
  obtain ⟨-, hlength, -⟩ := select?_eq_some hselect
  rwa [hsequences, ht.cursors.2.1, hlimit] at hlength

/-- There is a next request, and it is the one that the sequences have at its number. -/
theorem Reaches.selects (ht : (new q cap limit first).Reaches n m t) (hservers : q.servers ≠ [])
    (hlengths : q.lengths ≠ []) :
    ∃ chosen u drawn, t.select? = some (chosen, u) ∧
      q.servers[n % q.servers.length]? = some chosen.server ∧
      q.lengths[n % q.lengths.length]? = some drawn ∧
      chosen.length = (clampLength drawn limit).1 := by
  have hsequences : t.sequences = q := ht.kept.1
  obtain ⟨hserver, hlength, -⟩ := ht.cursors
  cases hselect : t.select? with
  | none =>
    refine absurd hselect (select?_ne_none ?_ ?_)
    · rw [hsequences, hserver]
      exact Nat.mod_lt _ (List.length_pos_iff.mpr hservers)
    · rw [hsequences, hlength]
      exact Nat.mod_lt _ (List.length_pos_iff.mpr hlengths)
  | some pick =>
    obtain ⟨chosen, u⟩ := pick
    obtain ⟨drawn, hdrawn, hclamped⟩ := ht.length_eq hselect
    exact ⟨chosen, u, drawn, rfl, ht.server_eq hselect, hdrawn, hclamped⟩

theorem Reaches.reschedules (ht : (new q cap limit first).Reaches n m t) (hgaps : q.intervals ≠ [])
    (now : Nat) : t.reschedule? now ≠ none := by
  have hsequences : t.sequences = q := ht.kept.1
  apply reschedule?_ne_none
  rw [hsequences, ht.cursors.2.2]
  exact Nat.mod_lt _ (List.length_pos_iff.mpr hgaps)

end EchoLoad.Scheduler
