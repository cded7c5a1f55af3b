import EchoLoad.Framing.Inbound

/-!
# Reading once and reading on

A poller that repeats its notices has a call make one read (`ReadMode.once`); one that does not has it
read until nothing is left. Calls that read once each, one after the other until one does not say that
more may be left (`Inbound.poll`), come to the same as one call that reads on:

> `Inbound.read_agrees`: the two give the same frames and the same result, and leave the same message in
> progress and the same part of the script; in both modes reads that are tried again may be left out of
> the script without a change; and a call that says that more may be left took one chunk.

An outcome of a read either is tried again, or has bytes for the message in progress, or ends the call
with a result that does not depend on the message (`ReadOutcome.again_or_bytes_or_ends`). Only the
second kind makes a difference between the modes, and the proofs go by these three cases. How far a call
gets in each mode is said by `Inbound.read_reaches`.
-/

namespace EchoLoad.Framing

namespace ReadOutcome

/-- A read that was interrupted, or that failed with the spurious bad-address error. -/
def isTriedAgain : ReadOutcome → Bool
  | data _ => false
  | fault e => e.kind = .interrupted || e.code? = some badAddress

/-- The result of a call that such an outcome ends. -/
def ending? : ReadOutcome → Option (Except FrameError ReadStatus)
  | data [] => some (.error .peerClosed)
  | data (_ :: _) => none
  | fault e =>
    match ReadFault.ofError e with
    | .transientRetry => some (.ok .wouldBlock)
    | .interrupted => none
    | .retryableFault => none
    | .peerClosed => some (.error .peerClosed)
    | .other => some (.error (.readFailed e))

/-- No outcome ends a call with the word that more may be left. -/
theorem ending?_ne_unfinished {r : ReadOutcome} {result : Except FrameError ReadStatus}
    (h : r.ending? = some result) : result ≠ .ok .unfinished := by
  rintro rfl
  unfold ending? at h
  split at h
  next => cases h
  next => cases h
  next => split at h <;> cases h

theorem isTriedAgain_fault_iff {e : SystemError} :
    (fault e).isTriedAgain = true ↔
      ReadFault.ofError e = .interrupted ∨ ReadFault.ofError e = .retryableFault := by
  simp only [isTriedAgain, Bool.or_eq_true, decide_eq_true_eq]
  unfold ReadFault.ofError
  by_cases hcode : e.code? = some badAddress
  · simp [hcode]
  · rw [if_neg hcode]
    -- one case for each kind that is looked at, and one for the others
    split <;> simp_all

/-- An outcome that ends a call is not tried again. -/
theorem isTriedAgain_of_ending? {r : ReadOutcome} {result : Except FrameError ReadStatus}
    (h : r.ending? = some result) : r.isTriedAgain = false := by
  cases r with
  | data chunk => rfl
  | fault e =>
    rw [← Bool.not_eq_true, isTriedAgain_fault_iff]
    rintro (hfault | hfault) <;> simp [ending?, hfault] at h

/-- An outcome that is tried again ends no call. -/
theorem ending?_of_isTriedAgain {r : ReadOutcome} (h : r.isTriedAgain = true) : r.ending? = none := by
  rw [Option.eq_none_iff_forall_ne_some]
  intro result hends
  rw [isTriedAgain_of_ending? hends] at h
  exact absurd h Bool.false_ne_true

/-- **What an outcome can do to a call.** -/
theorem again_or_bytes_or_ends (r : ReadOutcome) :
    r.isTriedAgain = true ∨ (∃ b chunk, r = data (b :: chunk)) ∨ ∃ result, r.ending? = some result := by
  cases r with
  | data chunk =>
    cases chunk with
    | nil => exact .inr (.inr ⟨_, rfl⟩)
    | cons b chunk => exact .inr (.inl ⟨b, chunk, rfl⟩)
  | fault e =>
    have hends : ∀ {result}, (fault e).ending? = some result → ∃ result, (fault e).ending? = some result :=
      fun h => ⟨_, h⟩
    cases hfault : ReadFault.ofError e with
    | transientRetry => exact .inr (.inr (hends (by rw [ending?, hfault])))
    | interrupted => exact .inl (isTriedAgain_fault_iff.mpr (.inl hfault))
    | retryableFault => exact .inl (isTriedAgain_fault_iff.mpr (.inr hfault))
    | peerClosed => exact .inr (.inr (hends (by rw [ending?, hfault])))
    | other => exact .inr (.inr (hends (by rw [ending?, hfault])))

end ReadOutcome

namespace Inbound

variable {s : Inbound} {mode : ReadMode} {rest : List ReadOutcome}

/-! ## A call by its first outcome -/

theorem read_again {r : ReadOutcome} (h : r.isTriedAgain = true) :
    s.read mode (r :: rest) = s.read mode rest := by
  cases r with
  | data chunk => cases h
  | fault e =>
    rcases ReadOutcome.isTriedAgain_fault_iff.mp h with hfault | hfault <;>
    · conv => lhs; unfold read
      rw [hfault]

theorem read_ends {r : ReadOutcome} {result : Except FrameError ReadStatus}
    (h : r.ending? = some result) : s.read mode (r :: rest) = ⟨s, [], result, rest⟩ := by
  cases r with
  | data chunk =>
    cases chunk with
    | nil =>
      cases h
      rfl
    | cons b chunk => cases h
  | fault e =>
    unfold read
    cases hfault : ReadFault.ofError e <;> simp only [ReadOutcome.ending?, hfault] at h <;> cases h <;> rfl

theorem read_bytes_failed {b : UInt8} {chunk : Bytes} {e : FrameError}
    (h : (s.feed (b :: chunk)).result = .error e) :
    s.read mode (.data (b :: chunk) :: rest) =
      ⟨(s.feed (b :: chunk)).inbound, (s.feed (b :: chunk)).frames, .error e, rest⟩ := by
  unfold read
  dsimp only
  rw [h]

theorem read_bytes_once {b : UInt8} {chunk : Bytes} {n : Nat}
    (h : (s.feed (b :: chunk)).result = .ok n) :
    s.read .once (.data (b :: chunk) :: rest) =
      ⟨(s.feed (b :: chunk)).inbound, (s.feed (b :: chunk)).frames, .ok .unfinished, rest⟩ := by
  unfold read
  dsimp only
  rw [h]

theorem read_bytes_on {b : UInt8} {chunk : Bytes} {n : Nat}
    (h : (s.feed (b :: chunk)).result = .ok n) :
    s.read .untilWouldBlock (.data (b :: chunk) :: rest) =
      { (s.feed (b :: chunk)).inbound.read .untilWouldBlock rest with
        frames := (s.feed (b :: chunk)).frames ++
          ((s.feed (b :: chunk)).inbound.read .untilWouldBlock rest).frames } := by
  conv => lhs; unfold read
  dsimp only
  rw [h]

/-! ## One read at a time -/

/-- **A call that says that more may be left took one chunk**, after reads that were tried again. -/
theorem read_once_unfinished {reads : List ReadOutcome}
    (h : (s.read .once reads).result = .ok .unfinished) :
    ∃ skipped b chunk rest, reads = skipped ++ .data (b :: chunk) :: rest ∧
      (∀ r ∈ skipped, r.isTriedAgain = true) ∧
      s.read .once reads =
        ⟨(s.feed (b :: chunk)).inbound, (s.feed (b :: chunk)).frames, .ok .unfinished, rest⟩ := by
  induction reads with
  | nil => cases h
  | cons first rest ih =>
    rcases first.again_or_bytes_or_ends with hagain | ⟨b, chunk, rfl⟩ | ⟨result, hends⟩
    · rw [read_again hagain] at h ⊢
      obtain ⟨skipped, b, chunk, later, hsplit, hskipped, hread⟩ := ih h
      exact ⟨first :: skipped, b, chunk, later, congrArg (List.cons first) hsplit,
        List.forall_mem_cons.mpr ⟨hagain, hskipped⟩, hread⟩
    · cases hfed : (s.feed (b :: chunk)).result with
      | ok n => exact ⟨[], b, chunk, rest, rfl, by simp, read_bytes_once hfed⟩
      | error e =>
        rw [read_bytes_failed hfed] at h
        cases h
    · rw [read_ends hends] at h
      exact absurd h (ReadOutcome.ending?_ne_unfinished hends)

/-- Calls that read once each, one after the other up to the first that does not say that more may be
left. -/
def poll (s : Inbound) (reads : List ReadOutcome) : ReadRun :=
  match _h : (s.read .once reads).result with
  | .ok .unfinished =>
    let run := s.read .once reads
    let later := run.inbound.poll run.unread
    { later with frames := run.frames ++ later.frames }
  | _ => s.read .once reads
termination_by reads.length
decreasing_by
  obtain ⟨skipped, b, chunk, rest, hsplit, -, hread⟩ := read_once_unfinished _h
  rw [hread, hsplit]
  simp only [List.length_append, List.length_cons]
  omega

theorem poll_unfinished {reads : List ReadOutcome} (h : (s.read .once reads).result = .ok .unfinished) :
    s.poll reads =
      { (s.read .once reads).inbound.poll (s.read .once reads).unread with
        frames := (s.read .once reads).frames ++
          ((s.read .once reads).inbound.poll (s.read .once reads).unread).frames } := by
  conv => lhs; unfold poll
  split
  next => rfl
  next hother => exact absurd h hother

theorem poll_finished {reads : List ReadOutcome} (h : (s.read .once reads).result ≠ .ok .unfinished) :
    s.poll reads = s.read .once reads := by
  unfold poll
  split
  next hunfinished => exact absurd hunfinished h
  next => rfl

/-- A read that is tried again is no part of the first call either. -/
theorem poll_again {first : ReadOutcome} (h : first.isTriedAgain = true) :
    s.poll (first :: rest) = s.poll rest := by
  have hread : s.read .once (first :: rest) = s.read .once rest := read_again h
  by_cases hfirst : (s.read .once rest).result = .ok .unfinished
  · rw [poll_unfinished hfirst, poll_unfinished (hread ▸ hfirst), hread]
  · rw [poll_finished hfirst, poll_finished (hread ▸ hfirst), hread]

/-- **Reading once, again and again, is reading on.** -/
theorem poll_eq (s : Inbound) (reads : List ReadOutcome) :
    s.poll reads = s.read .untilWouldBlock reads := by
  -- along the script, for any message in progress: only after a chunk that was taken whole does the
  -- next call of the one go on where the loop of the other does
  induction reads generalizing s with
  | nil => exact poll_finished (by simp [read])
  | cons first rest ih =>
    rcases first.again_or_bytes_or_ends with hagain | ⟨b, chunk, rfl⟩ | ⟨result, hends⟩
    · rw [poll_again hagain, read_again hagain]
      exact ih s
    · cases hfed : (s.feed (b :: chunk)).result with
      | ok n =>
        rw [poll_unfinished (by rw [read_bytes_once hfed]), read_bytes_once hfed, read_bytes_on hfed]
        dsimp only
        rw [ih]
      | error e =>
        rw [poll_finished (by rw [read_bytes_failed hfed]; simp), read_bytes_failed hfed,
          read_bytes_failed hfed]
    · rw [poll_finished (by rw [read_ends hends]; exact ReadOutcome.ending?_ne_unfinished hends),
        read_ends hends, read_ends hends]

/-- The last of the calls does not say that more may be left. -/
theorem poll_result (s : Inbound) (reads : List ReadOutcome) :
    (s.poll reads).result ≠ .ok .unfinished := by
  fun_induction poll s reads with
  | case1 s reads h run later ih => exact ih
  | case2 s reads h => exact h

end Inbound

/-! ## How far a call reads -/

/-- How far a call reads in each mode, if it leaves these outcomes unread and fails or not. -/
inductive ReadMode.Reaches (failed : Bool) (reads unread : List ReadOutcome) : ReadMode → Prop
  /-- read once: up to the first outcome that is not tried again -/
  | once (skipped : List ReadOutcome) (last : ReadOutcome) (split : reads = skipped ++ last :: unread)
      (again : ∀ r ∈ skipped, r.isTriedAgain = true) (counts : last.isTriedAgain = false) :
      Reaches failed reads unread .once
  /-- read once, and there is no such outcome -/
  | onceIdle (left : unread = []) (again : ∀ r ∈ reads, r.isTriedAgain = true) :
      Reaches failed reads unread .once
  /-- read on, up to the first outcome that ends the call -/
  | ended (before : List ReadOutcome) (last : ReadOutcome) (split : reads = before ++ last :: unread)
      (goesOn : ∀ r ∈ before, r.ending? = none) (ends : last.ending?.isSome = true) :
      Reaches failed reads unread .untilWouldBlock
  /-- read on, up to a chunk on which the call fails -/
  | refused (before : List ReadOutcome) (b : UInt8) (chunk : Bytes)
      (split : reads = before ++ .data (b :: chunk) :: unread)
      (goesOn : ∀ r ∈ before, r.ending? = none) (fails : failed = true) :
      Reaches failed reads unread .untilWouldBlock
  /-- read on, and there is no such outcome -/
  | idle (left : unread = []) (goesOn : ∀ r ∈ reads, r.ending? = none) :
      Reaches failed reads unread .untilWouldBlock

namespace ReadMode.Reaches

variable {failed : Bool} {reads unread : List ReadOutcome} {mode : ReadMode} {r : ReadOutcome}

/-- An outcome that a call reads on after comes first. -/
theorem cons_on (hr : r.ending? = none)
    (h : ReadMode.Reaches failed reads unread .untilWouldBlock) :
    ReadMode.Reaches failed (r :: reads) unread .untilWouldBlock := by
  have hcons : ∀ {before : List ReadOutcome}, (∀ x ∈ before, x.ending? = none) →
      ∀ x ∈ r :: before, x.ending? = none :=
    fun hbefore => List.forall_mem_cons.mpr ⟨hr, hbefore⟩
  cases h with
  | ended before last split goesOn ends =>
    exact .ended (r :: before) last (congrArg _ split) (hcons goesOn) ends
  | refused before b chunk split goesOn fails =>
    exact .refused (r :: before) b chunk (congrArg _ split) (hcons goesOn) fails
  | idle left goesOn => exact .idle left (hcons goesOn)

/-- An outcome that is tried again comes first. -/
theorem cons_again (hr : r.isTriedAgain = true) (h : mode.Reaches failed reads unread) :
    mode.Reaches failed (r :: reads) unread := by
  cases mode with
  | untilWouldBlock => exact h.cons_on (ReadOutcome.ending?_of_isTriedAgain hr)
  | once =>
    cases h with
    | once skipped last split again counts =>
      exact .once (r :: skipped) last (congrArg _ split) (List.forall_mem_cons.mpr ⟨hr, again⟩) counts
    | onceIdle left again => exact .onceIdle left (List.forall_mem_cons.mpr ⟨hr, again⟩)

end ReadMode.Reaches

namespace Inbound

/-- **How far a call reads.** -/
theorem read_reaches (s : Inbound) (mode : ReadMode) (reads : List ReadOutcome) :
    mode.Reaches (!(s.read mode reads).result.isOk) reads (s.read mode reads).unread := by
  induction reads generalizing s with
  | nil =>
    unfold read
    cases mode with
    | once => exact .onceIdle rfl (by simp)
    | untilWouldBlock => exact .idle rfl (by simp)
  | cons first rest ih =>
    rcases first.again_or_bytes_or_ends with hagain | ⟨b, chunk, rfl⟩ | ⟨result, hends⟩
    · rw [read_again hagain]
      exact (ih s).cons_again hagain
    · -- a chunk is the last that one read takes, and the other mode goes on unless it is refused
      cases hfed : (s.feed (b :: chunk)).result with
      | error e =>
        rw [read_bytes_failed hfed]
        cases mode with
        | once => exact .once [] _ rfl (by simp) rfl
        | untilWouldBlock => exact .refused [] b chunk rfl (by simp) rfl
      | ok n =>
        cases mode with
        | once =>
          rw [read_bytes_once hfed]
          exact .once [] _ rfl (by simp) rfl
        | untilWouldBlock =>
          rw [read_bytes_on hfed]
          exact (ih (s.feed (b :: chunk)).inbound).cons_on rfl
    · rw [read_ends hends]
      cases mode with
      | once => exact .once [] _ rfl (by simp) (ReadOutcome.isTriedAgain_of_ending? hends)
      | untilWouldBlock => exact .ended [] _ rfl (by simp) (by rw [hends]; rfl)

end Inbound

/-! ## Reads that are tried again -/

/-- `Thinned fewer reads`: some reads that are tried again were left out of `reads`, and nothing else. -/
inductive Thinned : List ReadOutcome → List ReadOutcome → Prop
  | nil : Thinned [] []
  | keep (r : ReadOutcome) {fewer reads : List ReadOutcome} (h : Thinned fewer reads) :
      Thinned (r :: fewer) (r :: reads)
  | leaveOut {r : ReadOutcome} {fewer reads : List ReadOutcome} (again : r.isTriedAgain = true)
      (h : Thinned fewer reads) : Thinned fewer (r :: reads)

namespace Inbound

/-- **Reads that are tried again leave no trace**, but for those that a call did not get to. -/
theorem read_thinned {fewer reads : List ReadOutcome} (h : Thinned fewer reads) (mode : ReadMode)
    (s : Inbound) :
    ∃ left, Thinned left (s.read mode reads).unread ∧
      s.read mode fewer = { s.read mode reads with unread := left } := by
  induction h generalizing s with
  | nil => exact ⟨[], .nil, rfl⟩
  | leaveOut again h ih =>
    rw [read_again again]
    exact ih s
  | @keep r fewer reads h ih =>
    rcases r.again_or_bytes_or_ends with hagain | ⟨b, chunk, rfl⟩ | ⟨result, hends⟩
    · rw [read_again hagain, read_again hagain]
      exact ih s
    · cases hfed : (s.feed (b :: chunk)).result with
      | ok n =>
        cases mode with
        | once =>
          rw [read_bytes_once hfed, read_bytes_once hfed]
          exact ⟨fewer, h, rfl⟩
        | untilWouldBlock =>
          obtain ⟨left, hleft, hread⟩ := ih (s.feed (b :: chunk)).inbound
          rw [read_bytes_on hfed, read_bytes_on hfed, hread]
          exact ⟨left, hleft, rfl⟩
      | error e =>
        rw [read_bytes_failed hfed, read_bytes_failed hfed]
        exact ⟨fewer, h, rfl⟩
    · rw [read_ends hends, read_ends hends]
      exact ⟨fewer, h, rfl⟩

/-- **The modes agree.** -/
theorem read_agrees (s : Inbound) (reads : List ReadOutcome) :
    s.poll reads = s.read .untilWouldBlock reads ∧
      (s.poll reads).result ≠ .ok .unfinished ∧
      (∀ fewer, Thinned fewer reads → ∀ mode, ∃ left, Thinned left (s.read mode reads).unread ∧
        s.read mode fewer = { s.read mode reads with unread := left }) ∧
      ((s.read .once reads).result = .ok .unfinished →
        ∃ skipped b chunk rest, reads = skipped ++ .data (b :: chunk) :: rest ∧
          (∀ r ∈ skipped, r.isTriedAgain = true) ∧
          s.read .once reads =
            ⟨(s.feed (b :: chunk)).inbound, (s.feed (b :: chunk)).frames, .ok .unfinished, rest⟩) :=
  ⟨s.poll_eq reads, s.poll_result reads, fun _ h mode => read_thinned h mode s, read_once_unfinished⟩

/-- A message of eighteen bytes comes in two chunks, after an interruption and with a spurious error
between them. -/
theorem read_agrees_two_chunks :
    let reads : List ReadOutcome :=
      [.fault (.ofKind .interrupted), .data (Header.encode ⟨18, 1, 2, 3⟩), .fault (.ofCode 14),
        .data [7, 8], .fault (.ofCode 11), .data [9]]
    ((new 64).read .once reads).result = .ok .unfinished ∧
      (∃ skipped b chunk rest, reads = skipped ++ .data (b :: chunk) :: rest ∧
        (new 64).read .once reads =
          ⟨((new 64).feed (b :: chunk)).inbound, ((new 64).feed (b :: chunk)).frames,
            .ok .unfinished, rest⟩) ∧
      ((new 64).poll reads).frames = [⟨⟨18, 1, 2, 3⟩, [7, 8]⟩] ∧
      ((new 64).poll reads).unread = [.data [9]] ∧
      ∃ left, (new 64).read .untilWouldBlock
          [.data (Header.encode ⟨18, 1, 2, 3⟩), .data [7, 8], .fault (.ofCode 11), .data [9]] =
        { (new 64).read .untilWouldBlock reads with unread := left } := by
  intro reads
  obtain ⟨hpoll, -, hthinned, honce⟩ := read_agrees (new 64) reads
  have hunfinished : ((new 64).read .once reads).result = .ok .unfinished := by cbv
  have hfewer : Thinned [.data (Header.encode ⟨18, 1, 2, 3⟩), .data [7, 8], .fault (.ofCode 11),
      .data [9]] reads :=
    .leaveOut rfl (.keep _ (.leaveOut rfl (.keep _ (.keep _ (.keep _ .nil)))))
  obtain ⟨skipped, b, chunk, rest, hsplit, -, hread⟩ := honce hunfinished
  obtain ⟨left, -, hleft⟩ := hthinned _ hfewer .untilWouldBlock
  have hrun : (((new 64).read .untilWouldBlock reads).frames,
      ((new 64).read .untilWouldBlock reads).unread) =
        ([⟨⟨18, 1, 2, 3⟩, [7, 8]⟩], [.data [9]]) := by cbv
  obtain ⟨hframes, hunread⟩ := Prod.mk.inj hrun
  rw [← hpoll] at hframes hunread
  exact ⟨hunfinished, ⟨skipped, b, chunk, rest, hsplit, hread⟩, hframes, hunread, left, hleft⟩

end Inbound

end EchoLoad.Framing
