import EchoLoad.Proofs.Framing.Sending

/-!
# What a call says about the queue

Adding a frame and draining say whether the queue is empty afterwards. They say so whatever the stream
answered, also if frames were dropped; only if a write failed they say nothing, and then something
waits. A frame that comes to a queue in which something waits is put behind it, and nothing is written.
-/

namespace EchoLoad.Framing

theorem Drained.Returned.empty_iff {d : Drained Transmission} (h : d.Returned) {empty : Bool}
    (hok : d.result = .ok empty) : empty = true ↔ d.outbound.queue = [] := by
  cases h with
  | ok result quiet =>
    rw [hok, Except.ok.injEq] at result
    rw [result, List.isEmpty_iff]
  | error before last e result calls quiet fatal waits =>
    rw [hok] at result
    cases result

theorem Drained.Returned.waits_of_error {d : Drained Transmission} (h : d.Returned) {e : SystemError}
    (herror : d.result = .error e) : d.outbound.queue ≠ [] := by
  cases h with
  | ok result quiet =>
    rw [herror] at result
    cases result
  | error before last e result calls quiet fatal waits => exact waits

namespace Transmission

/-- A frame that comes to an empty queue is written at once. -/
theorem enqueue?_idle {s : Transmission} (h : s.queue = []) (f : Frame)
    (script : List WriteOutcome) :
    s.enqueue? f script = drain? { s with queue := s.queue ++ [f] } script := by
  unfold enqueue?
  dsimp only
  rw [h, List.nil_append, List.length_singleton, if_neg (Nat.lt_irrefl 1)]

/-- A frame that comes to a queue in which something waits is put behind it. -/
theorem enqueue?_busy {s : Transmission} (h : s.queue ≠ []) (f : Frame)
    (script : List WriteOutcome) :
    s.enqueue? f script = some ⟨{ s with queue := s.queue ++ [f] }, .ok false, [], script⟩ := by
  have hlength := List.length_pos_iff.mpr h
  unfold enqueue?
  dsimp only
  rw [List.length_append, List.length_singleton, if_pos (Nat.lt_add_of_pos_left hlength)]

theorem drain?_returned {s : Transmission} (hs : s.Sound) (script : List WriteOutcome) :
    ∃ d, s.drain? script = some d ∧ d.Returned := by
  obtain ⟨d, hd, -, hended, -⟩ := drain?_trace hs script
  exact ⟨d, hd, hended.returned⟩

theorem enqueue?_returned {s : Transmission} (hs : s.Sound) (f : Frame)
    (script : List WriteOutcome) : ∃ d, s.enqueue? f script = some d ∧ d.Returned := by
  by_cases hidle : s.queue = []
  · rw [enqueue?_idle hidle]
    exact drain?_returned (hs.push f) script
  · refine ⟨_, enqueue?_busy hidle f script, .ok ?_ (by simp)⟩
    show Except.ok false = Except.ok (s.queue ++ [f]).isEmpty
    simp

end Transmission

namespace Outbound

variable {s : Outbound} {script : List WriteOutcome}

theorem pending_eq_zero_iff : s.pending = 0 ↔ s.queue = [] := List.length_eq_zero_iff

theorem pending_ne_zero {queue : List Frame} {f : Frame} (h : s.queue = queue ++ [f]) :
    s.pending ≠ 0 := by
  rw [pending, h, List.length_append, List.length_singleton]
  exact Nat.succ_ne_zero _

theorem drain_returned (s : Outbound) (script : List WriteOutcome) :
    (bare (s.drain script)).Returned := by
  obtain ⟨d, hd, hreturned⟩ := Transmission.drain?_returned s.sound script
  rw [drain?_eq, Option.some.injEq] at hd
  exact hd ▸ hreturned

theorem enqueue_returned (s : Outbound) (f : Frame) (script : List WriteOutcome) :
    (bare (s.enqueue f script)).Returned := by
  obtain ⟨d, hd, hreturned⟩ := Transmission.enqueue?_returned s.sound f script
  rw [enqueue?_eq, Option.some.injEq] at hd
  exact hd ▸ hreturned

/-- Draining says whether nothing waits any more. -/
theorem drain_ok {empty : Bool} (h : (s.drain script).result = .ok empty) :
    empty = true ↔ (s.drain script).outbound.pending = 0 :=
  ((s.drain_returned script).empty_iff h).trans pending_eq_zero_iff.symm

/-- After a write that failed something waits. -/
theorem drain_error {e : SystemError} (h : (s.drain script).result = .error e) :
    (s.drain script).outbound.pending ≠ 0 :=
  mt pending_eq_zero_iff.mp ((s.drain_returned script).waits_of_error h)

/-- If nothing waits there is nothing to drain. -/
theorem drain_idle (h : s.pending = 0) (script : List WriteOutcome) :
    (s.drain script).result = .ok true := by
  have hdrain := s.drain?_eq script
  have hqueue : s.toTransmission = ⟨[], s.sent⟩ :=
    congrArg (Transmission.mk · s.sent) (pending_eq_zero_iff.mp h)
  rw [hqueue, Transmission.drain?_idle, Option.some.injEq] at hdrain
  exact (congrArg Drained.result hdrain).symm

/-- Adding a frame says whether nothing waits any more. -/
theorem enqueue_ok {f : Frame} {empty : Bool} (h : (s.enqueue f script).result = .ok empty) :
    empty = true ↔ (s.enqueue f script).outbound.pending = 0 :=
  ((s.enqueue_returned f script).empty_iff h).trans pending_eq_zero_iff.symm

/-- **A frame never goes out ahead of those that wait.** -/
theorem enqueue_busy (h : s.pending ≠ 0) (f : Frame) (script : List WriteOutcome) :
    (s.enqueue f script).result = .ok false ∧ (s.enqueue f script).calls = [] ∧
      (s.enqueue f script).unused = script ∧
      (s.enqueue f script).outbound.queue = s.queue ++ [f] ∧
      (s.enqueue f script).outbound.sent = s.sent := by
  have henqueue := s.enqueue?_eq f script
  rw [Transmission.enqueue?_busy (mt pending_eq_zero_iff.mpr h), Option.some.injEq] at henqueue
  exact ⟨(congrArg Drained.result henqueue).symm, (congrArg Drained.calls henqueue).symm,
    (congrArg Drained.unused henqueue).symm,
    (congrArg (fun d => d.outbound.queue) henqueue).symm,
    (congrArg (fun d => d.outbound.sent) henqueue).symm⟩

end Outbound

end EchoLoad.Framing
