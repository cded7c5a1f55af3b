import EchoLoad.Proofs.Stream.Turns
import Mathlib.Data.List.Induction

/-!
# Which connection a worker takes out of the table

A worker that saw a connection fail takes the token of that connection out of the table, after it let go
of the connection itself. In between other workers may act, and a token that was freed is given out
again. So what the worker takes out need not be what it saw fail:

> `Server.run_removes_newer`: two workers hold the same failed connection. One takes it out, a new
> connection gets its token, and the other one takes out that.

This is the only way in which it goes wrong:

> `Server.run_removes`: a worker takes out the connection that it saw fail, or a later one; and a later
> one only if, while it held the failed connection, another worker took that out of the table.

So it never goes wrong where no two workers hold one connection at a time (`Server.Exclusive`), and with
one worker there are no two. The history of a run is looked at from its end: what stands under the token
of a worker is the connection that it found, until a step takes it out (`Server.run_live_or_overtaken`).
-/

namespace EchoLoad.Stream

open Framing

namespace Server

/-! ## What stands under the token of a worker -/

/-- All that the table and the workers know was accepted, and under the token of a worker stands nothing
older than the connection that it found there. -/
structure Ordered (s : Server) : Prop where
  sound : s.table.Sound
  inRange : ∀ token number, s.table.get? token = some number → number < s.connections.size
  held : ∀ worker h, s.stageOf worker = some h → h.number < s.connections.size ∧
    ∀ number, s.table.get? h.token = some number → h.number ≤ number

theorem stageOf_new (workers connectionLimit frameLimit worker : Nat) :
    (new workers connectionLimit frameLimit).stageOf worker = none := by
  show ((Array.replicate workers (none : Option Handling))[worker]?).join = none
  rw [Array.getElem?_replicate]
  split <;> rfl

theorem ordered_new (workers connectionLimit frameLimit : Nat) :
    (new workers connectionLimit frameLimit).Ordered where
  sound := Table.sound_new connectionLimit
  inRange := by
    intro token number h
    rw [Table.get?_of_size_le (Nat.zero_le token)] at h
    cases h
  held := by
    intro worker h hw
    rw [stageOf_new] at hw
    cases hw

variable {s t : Server} {e : ServerStep}

theorem Ordered.turn (hs : s.Ordered) (ht : s.Turn e t) : t.Ordered where
  sound := ht.table_sound hs.sound
  inRange := by
    intro token number hlive
    rcases ht.entered hs.sound hlive with hbefore | ⟨-, hlt⟩
    · exact Nat.lt_of_lt_of_le (hs.inRange token number hbefore) ht.size_le
    · exact hlt
  held := by
    intro worker h hw
    -- what is compared was known before the step, but for a connection accepted in it
    have hknown : h.number < s.connections.size ∧
        ∀ number, s.table.get? h.token = some number → h.number ≤ number := by
      rcases ht.held hw with ⟨before, hbefore, htoken, hnumber⟩ | ⟨hlive, -⟩
      · rw [← htoken, ← hnumber]
        exact hs.held worker before hbefore
      · refine ⟨hs.inRange _ _ hlive, fun number hnumber => ?_⟩
        rw [hlive, Option.some.injEq] at hnumber
        exact Nat.le_of_eq hnumber
    refine ⟨Nat.lt_of_lt_of_le hknown.1 ht.size_le, fun number hlive => ?_⟩
    rcases ht.entered hs.sound hlive with hbefore | ⟨hsize, -⟩
    · exact hknown.2 number hbefore
    · rw [hsize]
      exact Nat.le_of_lt hknown.1

theorem Ordered.run (hs : s.Ordered) (steps : List ServerStep) : (s.run steps).Ordered := by
  induction steps generalizing s with
  | nil => exact hs
  | cons e steps ih => exact ih (hs.turn (s.turn e))

/-! ## Connections taken out by another worker -/

/-- While a worker held the connection that it found under a token, another worker, which had seen a
connection under the same token fail, took it out of the table. -/
def Overtaken (s : Server) (steps : List ServerStep) (worker token number : Nat) : Prop :=
  ∃ before rival after held seen, steps = before ++ .remove rival :: after ∧ rival ≠ worker ∧
    (s.run before).stageOf worker = some held ∧ held.token = token ∧ held.number = number ∧
    (s.run before).stageOf rival = some (.failed token seen) ∧
    (s.run before).table.get? token = some number

theorem Overtaken.concat {steps : List ServerStep} {worker token number : Nat}
    (h : s.Overtaken steps worker token number) (e : ServerStep) :
    s.Overtaken (steps ++ [e]) worker token number := by
  obtain ⟨before, rival, after, held, seen, hsteps, hrest⟩ := h
  refine ⟨before, rival, after ++ [e], held, seen, ?_, hrest⟩
  rw [hsteps, List.append_assoc]
  rfl

/-- **What a worker found is there, or was taken out by another worker since.** -/
theorem run_live_or_overtaken (hs : s.Ordered) (hidle : ∀ worker, s.stageOf worker = none)
    (steps : List ServerStep) {worker : Nat} {h : Handling}
    (hw : (s.run steps).stageOf worker = some h) :
    (s.run steps).table.get? h.token = some h.number ∨
      s.Overtaken steps worker h.token h.number := by
  induction steps using List.reverseRecOn generalizing h with
  | nil =>
    have hnone := hidle worker
    rw [show s.run [] = s from rfl, hnone] at hw
    cases hw
  | append_singleton steps e ih =>
    rw [run_concat] at hw ⊢
    have hturn := (s.run steps).turn e
    have hbefore := hs.run steps
    rcases hturn.held hw with ⟨held, hheld, htoken, hnumber⟩ | ⟨hlive, hsame⟩
    · -- the worker held the connection before the step
      have hih := ih hheld
      rw [htoken, hnumber] at hih
      rcases hih with hlive | hovertaken
      · rcases hturn.kept hbefore.sound hlive with hkept | ⟨rival, seen, rfl, hrival, hidle'⟩
        · exact .inl hkept
        · -- the step takes it out, and its worker is idle afterwards
          have hne : rival ≠ worker := by
            rintro rfl
            rw [hidle'] at hw
            cases hw
          exact .inr ⟨steps, rival, [], held, seen, rfl, hne, hheld, htoken, hnumber, hrival, hlive⟩
      · exact .inr (hovertaken.concat e)
    · rw [hsame]
      exact .inl hlive

/-! ## The connection that failed -/

/-- A worker that is about to take a token out handled a notice on the connection that it found there,
and the call said to close it. -/
theorem run_failed (hidle : ∀ worker, s.stageOf worker = none) (steps : List ServerStep)
    {worker token number : Nat}
    (hw : (s.run steps).stageOf worker = some (.failed token number)) :
    ∃ before after notice reads writes c,
      steps = before ++ .work worker notice reads writes :: after ∧
      (s.run before).stageOf worker = some (.found token number) ∧
      (s.run before).connections[number]? = some c ∧
      (c.handle (s.run before).trigger.readMode (s.run before).stats notice reads writes).result =
        .ok true := by
  induction steps using List.reverseRecOn with
  | nil =>
    have hnone := hidle worker
    rw [show s.run [] = s from rfl, hnone] at hw
    cases hw
  | append_singleton steps e ih =>
    rw [run_concat] at hw
    rcases ((s.run steps).turn e).failed hw with hbefore | ⟨notice, reads, writes, c, rfl, hcall⟩
    · obtain ⟨before, after, notice, reads, writes, c, hsteps, hrest⟩ := ih hbefore
      refine ⟨before, after ++ [e], notice, reads, writes, c, ?_, hrest⟩
      rw [hsteps, List.append_assoc]
      rfl
    · exact ⟨steps, [], notice, reads, writes, c, rfl, hcall⟩

/-! ## Workers that keep apart -/

/-- At no moment do two workers hold the same connection. -/
def Exclusive (s : Server) (steps : List ServerStep) : Prop :=
  ∀ before, before <+: steps → ∀ worker rival held held',
    (s.run before).stageOf worker = some held → (s.run before).stageOf rival = some held' →
      held.number = held'.number → worker = rival

/-- Workers that keep apart take out what they saw fail. -/
theorem Exclusive.removes (hs : s.Ordered) (hidle : ∀ worker, s.stageOf worker = none)
    {steps : List ServerStep} (hexclusive : s.Exclusive steps) {worker token number other : Nat}
    (hfailed : (s.run steps).stageOf worker = some (.failed token number))
    (hlive : (s.run steps).table.get? token = some other) : other = number := by
  rcases run_live_or_overtaken hs hidle steps hfailed with hfound | hovertaken
  · have hfound' : (s.run steps).table.get? token = some number := hfound
    rw [hfound', Option.some.injEq] at hlive
    exact hlive.symm
  · -- the other worker took out what it saw fail, which this one held as well
    obtain ⟨before, rival, after, held, seen, hsteps, hne, hheld, -, hnumber, hrival, hlive'⟩ :=
      hovertaken
    have hfront : before <+: steps := hsteps ▸ List.prefix_append _ _
    have hshorter : before.length < steps.length := by
      rw [hsteps, List.length_append, List.length_cons]
      omega
    have hseen : number = seen :=
      removes hs hidle (fun front h => hexclusive front (h.trans hfront)) hrival hlive'
    exact absurd (hexclusive before hfront _ _ _ _ hrival hheld (hseen.symm.trans hnumber.symm)) hne
termination_by steps.length

theorem Turn.size_workers (ht : s.Turn e t) : t.workers.size = s.workers.size := by
  cases ht with
  | unfit => rfl
  | accepted => rfl
  | found idle live => exact Array.size_setIfInBounds
  | missed idle gone => exact Array.size_setIfInBounds
  | worked stage connection => exact Array.size_setIfInBounds
  | removed stage => exact Array.size_setIfInBounds

theorem size_workers_run (s : Server) (steps : List ServerStep) :
    (s.run steps).workers.size = s.workers.size := by
  induction steps generalizing s with
  | nil => rfl
  | cons e steps ih => exact (ih (s.step e)).trans (s.turn e).size_workers

theorem lt_size_of_stageOf {worker : Nat} {h : Handling} (hw : s.stageOf worker = some h) :
    worker < s.workers.size := by
  refine Nat.lt_of_not_le fun hge => ?_
  rw [stageOf, Array.getElem?_eq_none hge] at hw
  cases hw

/-- One worker keeps apart from all others. -/
theorem exclusive_of_size_le (h : s.workers.size ≤ 1) (steps : List ServerStep) :
    s.Exclusive steps := by
  intro before _ worker rival held held' hworker hrival _
  have hlt := lt_size_of_stageOf hworker
  have hlt' := lt_size_of_stageOf hrival
  rw [size_workers_run] at hlt hlt'
  omega

/-! ## The removal -/

/-- **Which connection a worker takes out.** In any run of a server, a worker that takes out a token
under which something stands saw a connection fail that it found there, and takes out that one or a
later one. It is a later one only if another worker took out the failed connection while this one held
it; where no two workers hold one connection at a time, and so with one worker, it is the one that
failed. No other entry of the table changes. -/
theorem run_removes {workers connectionLimit frameLimit : Nat} {s : Server}
    (hstart : s = new workers connectionLimit frameLimit) (steps : List ServerStep)
    {worker token number other : Nat}
    (hfailed : (s.run steps).stageOf worker = some (.failed token number))
    (hlive : (s.run steps).table.get? token = some other) :
    (∃ before after notice reads writes c,
      steps = before ++ .work worker notice reads writes :: after ∧
      (s.run before).stageOf worker = some (.found token number) ∧
      (s.run before).connections[number]? = some c ∧
      (c.handle (s.run before).trigger.readMode (s.run before).stats notice reads writes).result =
        .ok true) ∧
    (∀ entry, (s.run (steps ++ [.remove worker])).table.get? entry =
      if entry = token then none else (s.run steps).table.get? entry) ∧
    (other = number ∨ number < other ∧ s.Overtaken steps worker token number) ∧
    (s.Exclusive steps → other = number) ∧
    (workers ≤ 1 → other = number) := by
  have hs : s.Ordered := hstart ▸ ordered_new workers connectionLimit frameLimit
  have hidle : ∀ worker, s.stageOf worker = none :=
    hstart ▸ stageOf_new workers connectionLimit frameLimit
  have hsize : s.workers.size = workers := hstart ▸ Array.size_replicate
  refine ⟨run_failed hidle steps hfailed, fun entry => ?_, ?_,
    fun hexclusive => hexclusive.removes hs hidle hfailed hlive, fun hone => ?_⟩
  · rw [run_concat, step, hfailed]
    exact Table.get?_remove _ token entry
  · have hle : number ≤ other := ((hs.run steps).held worker _ hfailed).2 other hlive
    rcases run_live_or_overtaken hs hidle steps hfailed with hfound | hovertaken
    · have hfound' : (s.run steps).table.get? token = some number := hfound
      rw [hfound', Option.some.injEq] at hlive
      exact .inl hlive.symm
    · rcases Nat.eq_or_lt_of_le hle with hsame | hlater
      · exact .inl hsame.symm
      · exact .inr ⟨hlater, hovertaken⟩
  · exact (exclusive_of_size_le (hsize ▸ hone) steps).removes hs hidle hfailed hlive

/-- Two workers find the same connection and see it end. One takes it out, and another connection is
accepted. -/
def rivalSteps : List ServerStep :=
  [.accept, .lookUp 0 0, .lookUp 1 0, .work 0 ⟨true, false, false⟩ [.data []] [],
    .work 1 ⟨true, true, false⟩ [.data []] [], .remove 0, .accept]

/-- The other worker will take out the connection that was accepted last. -/
theorem run_removes_later :
    ((new 2 4 64).run rivalSteps).stageOf 1 = some (.failed 0 0) ∧
      ((new 2 4 64).run rivalSteps).table.get? 0 = some 1 ∧
      (new 2 4 64).Overtaken rivalSteps 1 0 0 := by
  have hfailed : ((new 2 4 64).run rivalSteps).stageOf 1 = some (.failed 0 0) := rfl
  have hlive : ((new 2 4 64).run rivalSteps).table.get? 0 = some 1 := rfl
  obtain ⟨-, -, hcases, -⟩ := run_removes rfl rivalSteps hfailed hlive
  rcases hcases with hsame | ⟨-, hovertaken⟩
  · exact absurd hsame (by decide)
  · exact ⟨hfailed, hlive, hovertaken⟩

/-- **A worker takes out a connection that it never saw.** Connection 0 failed under the lock of worker
1; under its token stands connection 1, on which nothing has happened, and that is what goes. -/
theorem run_removes_newer :
    ((new 2 4 64).run rivalSteps).stageOf 1 = some (.failed 0 0) ∧
      ((new 2 4 64).run rivalSteps).table.get? 0 = some 1 ∧
      ((new 2 4 64).run rivalSteps).connections[1]? = some (.new 64) ∧
      ((new 2 4 64).run (rivalSteps ++ [.remove 1])).table.get? 0 = none :=
  ⟨rfl, rfl, rfl, rfl⟩

end Server

end EchoLoad.Stream
