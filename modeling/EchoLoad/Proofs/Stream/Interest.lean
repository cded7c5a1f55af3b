import EchoLoad.Proofs.Framing.Reassembly
import EchoLoad.Proofs.Framing.Waiting
import EchoLoad.Proofs.Stream.Turns

/-!
# When a connection asks to be told that it can write

A connection that asks in vain would be told again and again, and one that does not ask while something
waits would never write it. What it asks for changes in two places: when a frame that is sent back is
not written at once, and when a notice that it can write left nothing to write.

> `Server.run_tracks`: whatever the reads and writes give and whichever workers handle the notices, a
> connection whose calls did not fail asks to be told that it can write exactly while something waits.

Frames may come behind others that wait already. Those are never overtaken (`Outbound.enqueue_busy`), so
whether something waits in the end is known from what waited before and from what the calls said
(`echo_ok`).
-/

namespace EchoLoad.Stream

open Framing

/-! ## Sending the frames back -/

/-- **Sending frames back says whether something waits** that did not wait before. -/
theorem echo_ok {outbound : Outbound} {stats : ServerStats} {frames : List Frame}
    {script : List WriteOutcome} {backedUp : Bool}
    (h : (echo outbound stats frames script).result = .ok backedUp) :
    (echo outbound stats frames script).outbound.pending ≠ 0 ↔
      backedUp = true ∨ outbound.pending ≠ 0 := by
  induction frames generalizing outbound stats script backedUp with
  | nil =>
    cases h
    exact ⟨.inr, fun hcases => hcases.resolve_left Bool.false_ne_true⟩
  | cons f frames ih =>
    cases hresult : (outbound.enqueue f script).result with
    | error e =>
      simp only [echo, hresult] at h
      cases h
    | ok complete =>
      -- the first frame waits unless it was written at once, and it never is if something waited
      have hfirst : complete = true ↔ (outbound.enqueue f script).outbound.pending = 0 :=
        Outbound.enqueue_ok hresult
      have hbusy : outbound.pending ≠ 0 → complete = false := by
        intro hwaits
        have hbehind := (Outbound.enqueue_busy hwaits f script).1
        rw [hresult, Except.ok.injEq] at hbehind
        exact hbehind
      simp only [echo, hresult] at h ⊢
      cases hlater : (echo (outbound.enqueue f script).outbound (stats.record f.length) frames
          (outbound.enqueue f script).unused).result with
      | error e =>
        rw [hlater] at h
        cases h
      | ok later =>
        rw [hlater] at h
        obtain rfl : (!complete || later) = backedUp := Except.ok.inj h
        rw [ih hlater]
        cases complete with
        | true =>
          have hidle : ¬ outbound.pending ≠ 0 := fun hwaits => Bool.noConfusion (hbusy hwaits)
          simp [hfirst.mp rfl, hidle]
        | false =>
          have hwaits : (outbound.enqueue f script).outbound.pending ≠ 0 :=
            fun hnone => Bool.noConfusion (hfirst.mpr hnone)
          simp [hwaits]

/-! ## One notice -/

namespace Connection

/-- A connection asks to be told that it can write exactly while something waits. -/
def Tracks (c : Connection) : Prop := c.interest = .readWrite ↔ c.framer.pending ≠ 0

theorem tracks_new (limit : Nat) : (new limit).Tracks := ⟨nofun, fun hwaits => absurd rfl hwaits⟩

variable {c : Connection} {mode : ReadMode} {stats : ServerStats} {reads : List ReadOutcome}
  {script : List WriteOutcome}

theorem Tracks.readAndEcho (hc : c.Tracks) {close : Bool}
    (hok : (c.readAndEcho mode stats reads script).result = .ok close) :
    (c.readAndEcho mode stats reads script).connection.Tracks := by
  unfold Connection.readAndEcho at hok ⊢
  dsimp only at hok ⊢
  generalize c.framer.inbound.read mode reads = got at hok ⊢
  cases hsent : (echo c.framer.outbound stats got.frames script).result with
  | error e =>
    rw [hsent] at hok
    cases hok
  | ok backedUp =>
    have hwaits := echo_ok hsent
    simp only
    cases backedUp with
    | true => exact ⟨fun _ => hwaits.mpr (.inl rfl), fun _ => rfl⟩
    | false =>
      -- nothing new waits, and what the connection asks for stays
      have hsame : (echo c.framer.outbound stats got.frames script).outbound.pending ≠ 0 ↔
          c.framer.outbound.pending ≠ 0 :=
        hwaits.trans ⟨fun h => h.resolve_left Bool.false_ne_true, .inr⟩
      exact Iff.trans hc hsame.symm

theorem Tracks.resume (hc : c.Tracks) {close : Bool}
    (hok : (c.resume stats reads script).result = .ok close) :
    (c.resume stats reads script).connection.Tracks := by
  unfold Connection.resume at hok ⊢
  dsimp only at hok ⊢
  cases hdrain : (c.framer.outbound.drain script).result with
  | error e =>
    rw [hdrain] at hok
    cases hok
  | ok empty =>
    have hempty := Outbound.drain_ok hdrain
    cases empty with
    | true => exact ⟨nofun, fun hwaits => absurd (hempty.mp rfl) hwaits⟩
    | false =>
      -- something waited, or there would have been nothing to drain
      have hbefore : c.framer.outbound.pending ≠ 0 := by
        intro hidle
        rw [Outbound.drain_idle hidle] at hdrain
        cases hdrain
      exact ⟨fun _ hnone => Bool.noConfusion (hempty.mpr hnone), fun _ => hc.mpr hbefore⟩

/-- A notice is handled in two parts: the connection is read from, if the notice asks for that, and what
waits is written, if the notice says that it can be and the connection stays open. -/
theorem handle_parts (c : Connection) (mode : ReadMode) (stats : ServerStats) (notice : Notice)
    (reads : List ReadOutcome) (script : List WriteOutcome) :
    ∃ first : Handled,
      (first = c.readAndEcho mode stats reads script ∨
        first = ⟨c, stats, [], .ok false, reads, script⟩) ∧
      (c.handle mode stats notice reads script = first ∨
        first.result = .ok false ∧ c.handle mode stats notice reads script =
          { first.connection.resume first.stats first.unread first.unused with
            written := first.written ++
              (first.connection.resume first.stats first.unread first.unused).written }) := by
  refine ⟨if notice.asksToRead then c.readAndEcho mode stats reads script
    else ⟨c, stats, [], .ok false, reads, script⟩, ?_, ?_⟩
  · cases notice.asksToRead with
    | true => exact .inl rfl
    | false => exact .inr rfl
  · unfold Connection.handle
    dsimp only
    split
    next hopen =>
      cases notice.writable with
      | true => exact .inr ⟨hopen, rfl⟩
      | false => exact .inl rfl
    next => exact .inl rfl

/-- **A notice that is handled leaves the interest right**, also on a connection that is to be closed. -/
theorem Tracks.handle (hc : c.Tracks) {notice : Notice} {close : Bool}
    (hok : (c.handle mode stats notice reads script).result = .ok close) :
    (c.handle mode stats notice reads script).connection.Tracks := by
  obtain ⟨first, hfirst, hparts⟩ := c.handle_parts mode stats notice reads script
  have htracks : ∀ {closed : Bool}, first.result = .ok closed → first.connection.Tracks := by
    intro closed hclosed
    rcases hfirst with rfl | rfl
    · exact hc.readAndEcho hclosed
    · exact hc
  rcases hparts with hhandle | ⟨hopen, hhandle⟩
  · rw [hhandle] at hok ⊢
    exact htracks hok
  · rw [hhandle] at hok ⊢
    exact (htracks hopen).resume hok

end Connection

/-! ## A whole run -/

namespace Server

/-- What a step returned, if it was a call on a connection. -/
def return? (s : Server) (number : Nat) : ServerStep → Option (Except SystemError Bool)
  | .work worker notice reads writes =>
    match s.stageOf worker with
    | some (.found _ found) =>
      if found = number then
        (s.connections[number]?).map fun c =>
          (c.handle s.trigger.readMode s.stats notice reads writes).result
      else none
    | _ => none
  | _ => none

/-- What the calls on a connection returned. -/
def returns (s : Server) (number : Nat) : List ServerStep → List (Except SystemError Bool)
  | [] => []
  | e :: steps => (s.return? number e).toList ++ (s.step e).returns number steps

variable {s t : Server} {e : ServerStep} {number : Nat}

theorem Turn.tracks (ht : s.Turn e t) (hs : ∀ c, s.connections[number]? = some c → c.Tracks)
    (hok : ∀ r ∈ s.return? number e, ∃ close, r = .ok close) :
    ∀ c, t.connections[number]? = some c → c.Tracks := by
  cases ht with
  | unfit => exact hs
  | found idle live => exact hs
  | missed idle gone => exact hs
  | removed stage => exact hs
  | accepted =>
    intro c hc
    have hc' : (s.connections.push (.new s.frameLimit))[number]? = some c := hc
    rw [Array.getElem?_push] at hc'
    split at hc'
    · obtain rfl := Option.some.inj hc'
      exact Connection.tracks_new _
    · exact hs c hc'
  | @worked worker token found notice reads writes before stage connection =>
    intro c hc
    by_cases hfound : found = number
    · subst hfound
      have hreturn : s.return? found (.work worker notice reads writes) =
          some (before.handle s.trigger.readMode s.stats notice reads writes).result := by
        simp only [return?, stage, connection, if_true, Option.map_some]
      obtain ⟨close, hclose⟩ := hok _ hreturn
      have hlt := (Array.getElem?_eq_some_iff.mp connection).1
      have hc' : (s.connections.setIfInBounds found _)[found]? = some c := hc
      rw [Array.getElem?_setIfInBounds, if_pos rfl, if_pos hlt, Option.some.injEq] at hc'
      exact hc' ▸ (hs before connection).handle hclose
    · have hc' : (s.connections.setIfInBounds found _)[number]? = some c := hc
      rw [Array.getElem?_setIfInBounds, if_neg hfound] at hc'
      exact hs c hc'

theorem tracks_run (hs : ∀ c, s.connections[number]? = some c → c.Tracks) (steps : List ServerStep)
    (hok : ∀ r ∈ s.returns number steps, ∃ close, r = .ok close) :
    ∀ c, (s.run steps).connections[number]? = some c → c.Tracks := by
  induction steps generalizing s with
  | nil => exact hs
  | cons e steps ih =>
    obtain ⟨hfirst, hlater⟩ := List.forall_mem_append.mp hok
    exact ih ((s.turn e).tracks hs fun r hr => hfirst r (Option.mem_toList.mpr hr)) hlater

/-- **What a connection asks for tells whether something waits.** In any run of a server, with any
notices and any outcomes of reads and writes, a connection on which no call failed so far asks to be
told that it can write exactly if something waits in its queue, and only that there is something to read
exactly if nothing does. -/
theorem run_tracks {workers connectionLimit frameLimit number : Nat} {steps : List ServerStep}
    {c : Connection}
    (hc : ((new workers connectionLimit frameLimit).run steps).connections[number]? = some c)
    (hok : ∀ r ∈ (new workers connectionLimit frameLimit).returns number steps,
      ∃ close, r = .ok close) :
    (c.interest = .readWrite ↔ c.framer.pending ≠ 0) ∧
      (c.interest = .read ↔ c.framer.pending = 0) := by
  have hnone : ∀ c, (new workers connectionLimit frameLimit).connections[number]? = some c →
      c.Tracks := nofun
  have htracks : c.Tracks := tracks_run hnone steps hok c hc
  refine ⟨htracks, ?_⟩
  cases hinterest : c.interest with
  | read =>
    have hidle : ¬ c.framer.pending ≠ 0 := fun hwaits => by
      have hwrite := htracks.mpr hwaits
      rw [hinterest] at hwrite
      cases hwrite
    exact ⟨fun _ => Decidable.not_not.mp hidle, fun _ => rfl⟩
  | readWrite => exact ⟨nofun, fun hidle => absurd hidle (htracks.mp hinterest)⟩

/-- A message of eighteen bytes. -/
def message : Frame := ⟨⟨18, 1, 2, 4⟩, [7, 8]⟩

/-- The message arrives on a fresh connection; the socket takes ten bytes of what is sent back. -/
def waitingCall : Handled :=
  (Connection.new 64).handle .untilWouldBlock .new ⟨true, false, false⟩ [.data message.encode]
    [.accept 10, .block]

theorem waitingCall_waits :
    waitingCall.result = .ok false ∧ waitingCall.connection.framer.pending = 1 := by
  have hfits : message.Fits 64 := by decide
  obtain ⟨hframes, hresult⟩ := Inbound.feed_fitting hfits
  have hcons : message.encode = 18 :: message.encode.tail := rfl
  have hread : (Connection.new 64).framer.inbound.read .untilWouldBlock [.data message.encode] =
      ⟨((Inbound.new 64).feed message.encode).inbound, [message], .ok .wouldBlock, []⟩ := by
    show (Inbound.new 64).read .untilWouldBlock [.data message.encode] = _
    rw [hcons]
    unfold Inbound.read
    rw [← hcons]
    simp only [hresult, hframes]
    rfl
  unfold waitingCall Connection.handle Connection.readAndEcho
  simp only [Notice.asksToRead, Bool.true_or, if_true, hread]
  exact ⟨rfl, rfl⟩

/-- A worker handles the notice of that message. -/
def waitingSteps : List ServerStep :=
  [.accept, .lookUp 1 0, .work 1 ⟨true, false, false⟩ [.data message.encode] [.accept 10, .block]]

/-- The message waits, and the connection asks to be told when it can write. -/
theorem run_tracks_waiting :
    ∃ c, ((new 2 4 64).run waitingSteps).connections[0]? = some c ∧ c.framer.pending = 1 ∧
      c.interest = .readWrite := by
  obtain ⟨hresult, hpending⟩ := waitingCall_waits
  have hc : ((new 2 4 64).run waitingSteps).connections[0]? = some waitingCall.connection := rfl
  have hreturns : (new 2 4 64).returns 0 waitingSteps = [waitingCall.result] := rfl
  have hok : ∀ r ∈ (new 2 4 64).returns 0 waitingSteps, ∃ close, r = .ok close := by
    rw [hreturns, hresult]
    exact List.forall_mem_singleton.mpr ⟨false, rfl⟩
  obtain ⟨hwrite, -⟩ := run_tracks hc hok
  exact ⟨_, hc, hpending, hwrite.mpr (by rw [hpending]; decide)⟩

end Server

end EchoLoad.Stream
