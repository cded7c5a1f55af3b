import EchoLoad.Proofs.Framing.Polling
import EchoLoad.Proofs.Framing.Reading
import EchoLoad.Proofs.Framing.Steady
import EchoLoad.Proofs.Stats.Counting
import EchoLoad.Proofs.Stream.Turns
import Mathlib

/-!
# A server connection echoes what it read

A worker handles one notice after the other of a connection, whose socket gives what it likes to the
reads and stays up for the writes:

> `Session.run_echoes`: the bytes that the socket took and those that still wait are the encodings of
> the frames in the bytes that were read, and these frames are counted. The connection leaves the
> table exactly when a read ended the stream or a header was out of bounds. Each notice reads as far as
> the trigger demands, and writes until nothing waits or the socket takes nothing for now.

A notice is handled on the connection first. What it comes to (`Connection.handle_echoes`) is known from
`Inbound.read_follows` for what was read, and from `Request.serve?_steady` for what was written; how far
it reads and writes (`Connection.handle_attends`) from `Inbound.read_reaches` and `Request.serve?_wrote`.
That a worker finds the connection under its token, puts it back and takes the token out of the table if
it is to be closed is said by `Server.run_found`.
-/

namespace EchoLoad

/-- The counters after some frames. -/
def ServerStats.after (s : ServerStats) (frames : List Frame) : ServerStats :=
  frames.foldl (fun s f => s.record f.length) s

namespace ServerStats

theorem after_append (s : ServerStats) (frames later : List Frame) :
    s.after (frames ++ later) = (s.after frames).after later := List.foldl_append

theorem after_eq_recordAll (s : ServerStats) (frames : List Frame) :
    s.after frames = s.recordAll (frames.map Frame.length) := List.foldl_map.symm

theorem served_after (s : ServerStats) (frames : List Frame) :
    (s.after frames).served = s.served + UInt64.ofNat frames.length := by
  rw [after_eq_recordAll, served_recordAll, List.length_map]

theorem bytes_after (s : ServerStats) (frames : List Frame) :
    (s.after frames).bytes = s.bytes + UInt64.ofNat (frames.flatMap Frame.encode).length := by
  have hlength : Frame.length = fun f : Frame => f.encode.length :=
    funext fun f => f.length_encode.symm
  rw [after_eq_recordAll, bytes_recordAll, List.length_flatMap, hlength]

end ServerStats

namespace Stream

open Framing

/-! ## Sending the frames back -/

/-- One frame is sent back. -/
theorem enqueue_steady (s : Outbound) (f : Frame) {script : List WriteOutcome}
    (hup : ∀ a ∈ script, a.staysUp = true) :
    (s.enqueue f script).result = .ok (s.enqueue f script).outbound.queue.isEmpty ∧
      (s.enqueue f script).written ++ (s.enqueue f script).outbound.unsent = s.unsent ++ f.encode ∧
      ∀ a ∈ (s.enqueue f script).unused, a.staysUp = true := by
  obtain ⟨d, hd, hresult, hbytes, hunused⟩ := Request.serve?_steady s.sound (.enqueue f) hup
  rw [Request.serve?, Outbound.enqueue?_eq, Option.some.injEq] at hd
  rw [Request.frames, List.flatMap_singleton] at hbytes
  subst hd
  exact ⟨hresult, hbytes, hunused⟩

/-- What waits is written. -/
theorem drain_steady (s : Outbound) {script : List WriteOutcome}
    (hup : ∀ a ∈ script, a.staysUp = true) :
    (s.drain script).result = .ok (s.drain script).outbound.queue.isEmpty ∧
      (s.drain script).written ++ (s.drain script).outbound.unsent = s.unsent ∧
      ∀ a ∈ (s.drain script).unused, a.staysUp = true := by
  obtain ⟨d, hd, hresult, hbytes, hunused⟩ := Request.serve?_steady s.sound .drain hup
  rw [Request.serve?, Outbound.drain?_eq, Option.some.injEq] at hd
  rw [Request.frames, List.flatMap_nil, List.append_nil] at hbytes
  subst hd
  exact ⟨hresult, hbytes, hunused⟩

/-- **All frames are counted and sent back**, in order. -/
theorem echo_steady (outbound : Outbound) (stats : ServerStats) (frames : List Frame)
    {script : List WriteOutcome} (hup : ∀ a ∈ script, a.staysUp = true) :
    (∃ backedUp, (echo outbound stats frames script).result = .ok backedUp) ∧
      (echo outbound stats frames script).stats = stats.after frames ∧
      (echo outbound stats frames script).written ++
          (echo outbound stats frames script).outbound.unsent =
        outbound.unsent ++ frames.flatMap Frame.encode ∧
      ∀ a ∈ (echo outbound stats frames script).unused, a.staysUp = true := by
  induction frames generalizing outbound stats script with
  | nil =>
    refine ⟨⟨false, rfl⟩, rfl, ?_, hup⟩
    rw [List.flatMap_nil, List.append_nil]
    rfl
  | cons f frames ih =>
    obtain ⟨hresult, hbytes, hunused⟩ := enqueue_steady outbound f hup
    obtain ⟨⟨backedUp, hbacked⟩, hstats, hlater, hunused'⟩ :=
      ih (outbound.enqueue f script).outbound (stats.record f.length) hunused
    simp only [echo, hresult]
    refine ⟨⟨_, by rw [hbacked]; rfl⟩, hstats, ?_, hunused'⟩
    rw [List.append_assoc, hlater, ← List.append_assoc, hbytes, List.flatMap_cons,
      List.append_assoc]

/-- Writing what waits stops when nothing does, or when the socket takes nothing. -/
theorem drain_wrote (s : Outbound) {script : List WriteOutcome}
    (hup : ∀ a ∈ script, a.staysUp = true) :
    Wrote False script (s.drain script).unused (s.drain script).outbound.toTransmission :=
  Transmission.drain?_wrote s.sound hup (s.drain?_eq script)

/-- A frame that is sent back may be left for later if others wait. -/
theorem enqueue_wrote (s : Outbound) (f : Frame) {script : List WriteOutcome}
    (hup : ∀ a ∈ script, a.staysUp = true) :
    Wrote (s.queue ≠ []) script (s.enqueue f script).unused
      (s.enqueue f script).outbound.toTransmission :=
  (Request.serve?_wrote s.sound (.enqueue f) hup (s.enqueue?_eq f script)).mono And.left

/-- Sending frames back goes on until nothing waits or the socket takes nothing, unless frames waited
before. -/
theorem echo_wrote (outbound : Outbound) (stats : ServerStats) (frames : List Frame)
    {script : List WriteOutcome} (hup : ∀ a ∈ script, a.staysUp = true) :
    Wrote (outbound.queue ≠ []) script (echo outbound stats frames script).unused
      (echo outbound stats frames script).outbound.toTransmission := by
  induction frames generalizing outbound stats script with
  | nil => exact .refl script outbound.toTransmission
  | cons f frames ih =>
    obtain ⟨hresult, -, hunused⟩ := enqueue_steady outbound f hup
    have hlater := ih (outbound.enqueue f script).outbound (stats.record f.length) hunused
    simp only [echo, hresult]
    exact ((enqueue_wrote outbound f hup).trans (hlater.mono fun h => ⟨h, trivial⟩)).mono And.left

/-! ## One notice -/

/-- What comes of a notice on a connection: the outcomes that were read, the frames of their bytes, and
the rest of these. -/
structure Handled.Echoes (c : Connection) (stats : ServerStats) (reads taken : List ReadOutcome)
    (frames : List Frame) (rest : Bytes) (h : Handled) : Prop where
  split : reads = taken ++ h.unread
  up : ∀ a ∈ h.unused, a.staysUp = true
  counted : h.stats = stats.after frames
  sent : h.written ++ h.connection.framer.outbound.unsent =
    c.framer.outbound.unsent ++ frames.flatMap Frame.encode
  limit : h.connection.framer.inbound.limit = c.framer.inbound.limit
  cut : Segmented c.framer.inbound.limit (c.framer.inbound.held ++ bytesRead taken) frames rest
  outcome : (h.result = .ok false ∧ rest = h.connection.framer.inbound.held ∧
      ¬ Blocked c.framer.inbound.limit rest ∧ ∀ r ∈ taken, r.endsStream = false) ∨
    (h.result = .ok true ∧
      ((∃ r ∈ taken, r.endsStream = true) ∨ Blocked c.framer.inbound.limit rest))

/-- How far a notice goes: it reads if it asks for that, as far as the mode demands, and writes until
nothing waits or the socket takes nothing. Frames that waited before are left alone if the notice is not
for writing, or if the connection is to be closed. -/
structure Handled.Attends (c : Connection) (mode : ReadMode) (notice : Notice)
    (reads : List ReadOutcome) (script : List WriteOutcome) (close : Bool) (h : Handled) : Prop where
  returned : h.result = .ok close
  attends : notice.asksToRead = true → mode.Reaches close reads h.unread
  ignores : notice.asksToRead = false → h.unread = reads
  wrote : Wrote (c.framer.outbound.queue ≠ [] ∧ (notice.writable = false ∨ close = true)) script
    h.unused h.connection.framer.outbound.toTransmission

namespace Connection

/-- A read that ended the stream gave no bytes. -/
theorem bytesRead_ended {taken : List ReadOutcome} {last : ReadOutcome}
    (h : last.endsStream = true) : bytesRead (taken ++ [last]) = bytesRead taken := by
  have hlast : last.bytes = [] := by
    cases last with
    | data chunk => exact List.isEmpty_iff.mp h
    | fault e => rfl
  rw [bytesRead, List.flatMap_append, List.flatMap_singleton, hlast, List.append_nil]
  rfl

/-- On a socket that stays up, reading and sending back go through, and only the interest depends on
whether writing backed up. -/
theorem readAndEcho_eq (c : Connection) (mode : ReadMode) (stats : ServerStats)
    (reads : List ReadOutcome) {script : List WriteOutcome} (hup : ∀ a ∈ script, a.staysUp = true) :
    let got := c.framer.inbound.read mode reads
    let sent := echo c.framer.outbound stats got.frames script
    ∃ interest, c.readAndEcho mode stats reads script =
      ⟨⟨⟨got.inbound, sent.outbound⟩, interest⟩, sent.stats, sent.written, .ok !got.result.isOk,
        got.unread, sent.unused⟩ := by
  intro got sent
  obtain ⟨⟨backedUp, hbacked⟩, -⟩ := echo_steady c.framer.outbound stats got.frames hup
  unfold readAndEcho
  dsimp only
  rw [hbacked]
  cases hresult : got.result <;> cases backedUp <;> exact ⟨_, rfl⟩

/-- What was read is sent back, also if the stream ended in the end. -/
theorem readAndEcho_echoes (c : Connection) (mode : ReadMode) (stats : ServerStats)
    (reads : List ReadOutcome) {script : List WriteOutcome}
    (hopen : ¬ Blocked c.framer.inbound.limit c.framer.inbound.held)
    (hup : ∀ a ∈ script, a.staysUp = true) :
    ∃ taken frames rest,
      (c.readAndEcho mode stats reads script).Echoes c stats reads taken frames rest := by
  have hfollows := c.framer.inbound.read_follows mode reads
  obtain ⟨interest, heq⟩ := c.readAndEcho_eq mode stats reads hup
  rw [heq]
  generalize c.framer.inbound.read mode reads = got at hfollows
  obtain ⟨-, hstats, hbytes, hunused⟩ := echo_steady c.framer.outbound stats got.frames hup
  cases hfollows with
  | @going t frames status unread taken split alive same opened cut =>
    exact ⟨taken, frames, t.held, split, hunused, hstats, hbytes, same, cut,
      .inl ⟨rfl, rfl, opened hopen, alive⟩⟩
  | @ended t frames e unread taken last split alive ends same opened cut =>
    rw [← bytesRead_ended ends] at cut
    have hsplit : reads = taken ++ [last] ++ unread := by rw [split, List.append_assoc]; rfl
    exact ⟨taken ++ [last], frames, t.held, hsplit, hunused, hstats, hbytes, same, cut,
      .inr ⟨rfl, .inl ⟨last, by simp, ends⟩⟩⟩
  | @refused t frames h unread taken lost split alive same decoded refused cut =>
    have hblocked : Blocked c.framer.inbound.limit t.held := ⟨h, decoded, refused⟩
    exact ⟨taken, frames, t.held ++ lost, split, hunused, hstats, hbytes, same, cut,
      .inr ⟨rfl, .inr (hblocked.append lost)⟩⟩

/-- On a socket that stays up, writing what waits goes through, and leaves what was read alone. -/
theorem resume_eq (c : Connection) (stats : ServerStats) (reads : List ReadOutcome)
    {script : List WriteOutcome} (hup : ∀ a ∈ script, a.staysUp = true) :
    let run := c.framer.outbound.drain script
    ∃ interest, c.resume stats reads script =
      ⟨⟨⟨c.framer.inbound, run.outbound⟩, interest⟩, stats, run.written, .ok false, reads,
        run.unused⟩ := by
  intro run
  obtain ⟨hresult, -⟩ := drain_steady c.framer.outbound hup
  unfold resume
  dsimp only
  rw [hresult]
  cases (c.framer.outbound.drain script).outbound.queue.isEmpty <;> exact ⟨_, rfl⟩

/-- **A notice is handled.** -/
theorem handle_echoes (c : Connection) (mode : ReadMode) (stats : ServerStats) (notice : Notice)
    (reads : List ReadOutcome) {script : List WriteOutcome}
    (hopen : ¬ Blocked c.framer.inbound.limit c.framer.inbound.held)
    (hup : ∀ a ∈ script, a.staysUp = true) :
    ∃ taken frames rest,
      (c.handle mode stats notice reads script).Echoes c stats reads taken frames rest := by
  -- reading, if the notice asks for it, and writing come one after the other
  have hfirst : ∃ taken frames rest, Handled.Echoes c stats reads taken frames rest
      (if notice.asksToRead then c.readAndEcho mode stats reads script
        else ⟨c, stats, [], .ok false, reads, script⟩) := by
    split
    next => exact c.readAndEcho_echoes mode stats reads hopen hup
    next =>
      refine ⟨[], [], c.framer.inbound.held, rfl, hup, rfl, ?_, rfl, c.framer.inbound.segmented_held,
        .inl ⟨rfl, rfl, hopen, by simp⟩⟩
      exact (List.append_nil _).symm
  unfold handle
  dsimp only
  generalize (if notice.asksToRead then c.readAndEcho mode stats reads script
    else ⟨c, stats, [], .ok false, reads, script⟩) = first at hfirst
  obtain ⟨taken, frames, rest, hfirst⟩ := hfirst
  rcases hfirst.outcome with ⟨hresult, hrest, hopened, halive⟩ | ⟨hresult, hends⟩
  · rw [hresult]
    dsimp only
    split
    next =>
      obtain ⟨interest, heq⟩ := first.connection.resume_eq first.stats first.unread hfirst.up
      obtain ⟨-, hbytes, hunused⟩ := drain_steady first.connection.framer.outbound hfirst.up
      rw [heq]
      refine ⟨taken, frames, rest, hfirst.split, hunused, hfirst.counted, ?_, hfirst.limit, hfirst.cut,
        .inl ⟨rfl, hrest, hopened, halive⟩⟩
      rw [List.append_assoc, hbytes]
      exact hfirst.sent
    next => exact ⟨taken, frames, rest, hfirst⟩
  · rw [hresult]
    exact ⟨taken, frames, rest, hfirst⟩

/-- **How far a notice goes.** -/
theorem handle_attends (c : Connection) (mode : ReadMode) (stats : ServerStats) (notice : Notice)
    (reads : List ReadOutcome) {script : List WriteOutcome} (hup : ∀ a ∈ script, a.staysUp = true) :
    ∃ close, (c.handle mode stats notice reads script).Attends c mode notice reads script close := by
  unfold handle
  dsimp only
  generalize hfirst : (if notice.asksToRead then c.readAndEcho mode stats reads script
    else ⟨c, stats, [], .ok false, reads, script⟩) = first
  have hread : ∃ close, first.result = .ok close ∧
      (notice.asksToRead = true → mode.Reaches close reads first.unread) ∧
      (notice.asksToRead = false → first.unread = reads) ∧
      Wrote (c.framer.outbound.queue ≠ []) script first.unused
        first.connection.framer.outbound.toTransmission := by
    cases hasks : notice.asksToRead with
    | true =>
      rw [if_pos hasks] at hfirst
      obtain ⟨interest, heq⟩ := c.readAndEcho_eq mode stats reads hup
      obtain rfl := hfirst.symm.trans heq
      exact ⟨_, rfl, fun _ => c.framer.inbound.read_reaches mode reads, by simp,
        echo_wrote c.framer.outbound stats _ hup⟩
    | false =>
      rw [if_neg (by simp [hasks])] at hfirst
      subst hfirst
      exact ⟨false, rfl, by simp, fun _ => rfl, .refl script c.framer.outbound.toTransmission⟩
  obtain ⟨close, hresult, hattends, hignores, hwrote⟩ := hread
  rw [hresult]
  cases close with
  | true => exact ⟨true, hresult, hattends, hignores, hwrote.mono fun h => ⟨h, .inr rfl⟩⟩
  | false =>
    dsimp only
    split
    next =>
      -- what waits after reading is written, as far as the socket takes it
      have hup' : ∀ a ∈ first.unused, a.staysUp = true := fun a ha => hup a (hwrote.suffix.subset ha)
      have hlater := drain_wrote first.connection.framer.outbound hup'
      have hall := hwrote.trans (hlater.mono fun h => ⟨h.elim, h⟩)
      obtain ⟨interest, heq⟩ := first.connection.resume_eq first.stats first.unread hup'
      rw [heq]
      exact ⟨false, rfl, hattends, hignores, hall.mono fun h => h.2.elim⟩
    next hbusy =>
      exact ⟨false, hresult, hattends, hignores,
        hwrote.mono fun h => ⟨h, .inl (Bool.not_eq_true _ ▸ hbusy)⟩⟩

end Connection

/-! ## One worker -/

namespace Server

/-- The connection that a token stands for. -/
def connection? (s : Server) (token : Nat) : Option Connection := do
  let number ← s.table.get? token
  s.connections[number]?

/-- What a worker does about a notice: look the token up, handle the notice, and take the token out of
the table if the connection is to be closed. -/
def handling (worker token : Nat) (notice : Notice) (reads : List ReadOutcome)
    (writes : List WriteOutcome) : List ServerStep :=
  [.lookUp worker token, .work worker notice reads writes, .remove worker]

/-- A worker that does nothing goes on to do nothing. -/
theorem setWorker_idle {s : Server} {worker : Nat} (hworker : worker < s.workers.size)
    (hidle : s.stageOf worker = none) : s.setWorker worker none = s := by
  have hentry : s.workers[worker]? = some none := by
    rw [stageOf, Array.getElem?_eq_getElem hworker, Option.join_some] at hidle
    rw [Array.getElem?_eq_getElem hworker, hidle]
  have hsame : s.workers.setIfInBounds worker none = s.workers := by
    apply Array.ext_getElem?
    intro i
    rw [Array.getElem?_setIfInBounds]
    by_cases hi : worker = i
    · rw [if_pos hi, if_pos hworker, ← hi, hentry]
    · rw [if_neg hi]
  rw [setWorker, hsame]

/-- A token of no connection: the worker does nothing. -/
theorem run_missing {s : Server} {worker token : Nat} (hworker : worker < s.workers.size)
    (hidle : s.stageOf worker = none) (htoken : s.table.get? token = none) (notice : Notice)
    (reads : List ReadOutcome) (writes : List WriteOutcome) :
    s.run (handling worker token notice reads writes) = s := by
  simp only [run, handling, List.foldl_cons, List.foldl_nil, step, hidle, htoken, Option.map_none,
    setWorker_idle hworker hidle]

/-- A token of a connection: the worker handles the notice on it. -/
theorem run_found {s : Server} {worker token number : Nat} {c : Connection}
    (hworker : worker < s.workers.size) (hidle : s.stageOf worker = none)
    (htoken : s.table.get? token = some number) (hc : s.connections[number]? = some c)
    (notice : Notice) (reads : List ReadOutcome) (writes : List WriteOutcome) :
    s.run (handling worker token notice reads writes) =
      ((s.setWorker worker (some (.found token number))).putBack worker token number
        (c.handle s.trigger.readMode s.stats notice reads writes)).step (.remove worker) := by
  have hstage := stageOf_setWorker_self hworker (some (.found token number))
  have hlookUp : s.step (.lookUp worker token) =
      s.setWorker worker (some (.found token number)) := by
    simp only [step, hidle, htoken, Option.map_some]
  have hwork : (s.setWorker worker (some (.found token number))).step
      (.work worker notice reads writes) =
        (s.setWorker worker (some (.found token number))).putBack worker token number
          (c.handle s.trigger.readMode s.stats notice reads writes) := by
    have hc' : (s.setWorker worker (some (.found token number))).connections[number]? = some c := hc
    simp only [step, hstage, hc']
    rfl
  rw [run, handling, List.foldl_cons, List.foldl_cons, List.foldl_cons, List.foldl_nil, hlookUp,
    hwork]

theorem stageOf_putBack {s : Server} {worker : Nat} (hworker : worker < s.workers.size)
    (token number : Nat) (h : Handled) :
    (s.putBack worker token number h).stageOf worker = nextStage token number h.result :=
  stageOf_setWorker_self hworker (nextStage token number h.result)

/-- A connection that stays open keeps its token. -/
theorem remove_open {s : Server} {worker : Nat} (hworker : worker < s.workers.size)
    (token number : Nat) {h : Handled} (hopen : h.result = .ok false) :
    (s.putBack worker token number h).step (.remove worker) = s.putBack worker token number h := by
  have hstage := stageOf_putBack hworker token number h
  rw [hopen] at hstage
  simp only [step, hstage, nextStage]

/-- The token of a connection that is to be closed is taken out of the table. -/
theorem remove_closed {s : Server} {worker : Nat} (hworker : worker < s.workers.size)
    (token number : Nat) {h : Handled} (hclose : h.result = .ok true) :
    (s.putBack worker token number h).step (.remove worker) =
      { s.putBack worker token number h with
        table := (s.table.remove token).2
        workers := (s.putBack worker token number h).workers.setIfInBounds worker none } := by
  have hstage := stageOf_putBack hworker token number h
  rw [hclose] at hstage
  simp only [step, hstage, nextStage]
  rfl

/-- **One worker, one notice.** The connection is put back as the notice left it, the frames are counted,
and the token is taken out of the table if the connection is to be closed. -/
theorem run_handled {s : Server} {worker token number : Nat} {c : Connection}
    (hworker : worker < s.workers.size) (hidle : s.stageOf worker = none)
    (htoken : s.table.get? token = some number) (hc : s.connections[number]? = some c)
    (notice : Notice) (reads : List ReadOutcome) (writes : List WriteOutcome) {h : Handled}
    (hh : c.handle s.trigger.readMode s.stats notice reads writes = h) (close : Bool)
    (hresult : h.result = .ok close) :
    ∃ t, s.run (handling worker token notice reads writes) = t ∧ worker < t.workers.size ∧
      t.stageOf worker = none ∧ t.connections = s.connections.setIfInBounds number h.connection ∧
      t.stats = h.stats ∧ t.table = (if close then (s.table.remove token).2 else s.table) ∧
      t.trigger = s.trigger := by
  have hfound := run_found hworker hidle htoken hc notice reads writes
  have hsize : worker < (s.setWorker worker (some (.found token number))).workers.size := by
    show worker < (s.workers.setIfInBounds worker _).size
    rw [Array.size_setIfInBounds]
    exact hworker
  have hsize' : worker < ((s.setWorker worker (some (.found token number))).putBack worker token
      number h).workers.size := by
    show worker < ((s.setWorker worker _).workers.setIfInBounds worker _).size
    rw [Array.size_setIfInBounds]
    exact hsize
  rw [hh] at hfound
  -- an open connection leaves the worker idle, a closed one sends it to the table first
  cases close with
  | false =>
    rw [remove_open hsize token number hresult] at hfound
    refine ⟨_, hfound, hsize', ?_, rfl, rfl, rfl, rfl⟩
    rw [stageOf_putBack hsize, hresult]
    rfl
  | true =>
    rw [remove_closed hsize token number hresult] at hfound
    refine ⟨_, hfound, ?_, stageOf_setWorker_self hsize' none, rfl, rfl, rfl, rfl⟩
    show worker < (Array.setIfInBounds _ worker none).size
    rw [Array.size_setIfInBounds]
    exact hsize'

end Server

/-! ## A whole session -/

/-- A server, one of whose connections has a socket that will give these outcomes. -/
structure Session where
  server : Server
  /-- the outcomes that the reads to come will have -/
  reads : List ReadOutcome
  /-- the outcomes that the writes to come will have -/
  writes : List WriteOutcome
  /-- the bytes that the socket took -/
  written : Bytes
  /-- whether each notice ended in closing the connection, or in an error -/
  returns : List (Except SystemError Bool)

namespace Session

/-- A worker does what a notice asks for, with the outcomes that come next. -/
def notify (worker token : Nat) (x : Session) (notice : Notice) : Session :=
  let server := x.server.run (Server.handling worker token notice x.reads x.writes)
  match x.server.connection? token with
  | none => { x with server := server }
  | some c =>
    let h := c.handle x.server.trigger.readMode x.server.stats notice x.reads x.writes
    { server := server
      reads := h.unread
      writes := h.unused
      written := x.written ++ h.written
      returns := x.returns ++ [h.result] }

/-- Notices one after the other. -/
def run (worker token : Nat) (x : Session) (notices : List Notice) : Session :=
  notices.foldl (notify worker token) x

/-- Whether the connection is still open, for what was read and the rest of its bytes: a worker finds
it under its token, unless the stream ended or a header was out of bounds. -/
inductive Stage (limit token number : Nat) (taken : List ReadOutcome) (rest : Bytes) (c : Connection)
    (table : Table Nat) : Prop
  | opened (found : table.get? token = some number) (alive : ∀ r ∈ taken, r.endsStream = false)
      (inOrder : ¬ Blocked limit rest) (held : rest = c.framer.inbound.held)
  | closed (removed : table.get? token = none)
      (reason : (∃ r ∈ taken, r.endsStream = true) ∨ Blocked limit rest)

/-- What a notice does to a session. Under a token of no connection it does nothing. Otherwise the
connection reads if the notice asks for it, as far as the trigger demands, and writes until nothing waits
or the socket takes nothing; what waited before may be left alone if the notice is not for writing, or if
the connection is to be closed. A connection that is to be closed is taken out of the table. -/
inductive Attended (trigger : Trigger) (token number : Nat) (notice : Notice) (x y : Session) : Prop
  | missed (removed : x.server.table.get? token = none) (same : y = x)
  | handled (c c' : Connection) (close : Bool) (found : x.server.table.get? token = some number)
      (before : x.server.connections[number]? = some c)
      (after : y.server.connections[number]? = some c')
      (attends : notice.asksToRead = true → trigger.readMode.Reaches close x.reads y.reads)
      (ignores : notice.asksToRead = false → y.reads = x.reads)
      (wrote : Wrote (c.framer.outbound.queue ≠ [] ∧ (notice.writable = false ∨ close = true))
        x.writes y.writes c'.framer.outbound.toTransmission)
      (returned : y.returns = x.returns ++ [.ok close])
      (kept : y.server.table.get? token = if close then none else some number)

/-- What a session came to: the outcomes that were read, and the frames and the rest of their bytes. -/
structure Echoing (limit worker token number : Nat) (trigger : Trigger) (stats : ServerStats)
    (reads taken : List ReadOutcome) (frames : List Frame) (rest : Bytes) (x : Session) : Prop where
  split : reads = taken ++ x.reads
  up : ∀ a ∈ x.writes, a.staysUp = true
  inRange : worker < x.server.workers.size
  idle : x.server.stageOf worker = none
  told : x.server.trigger = trigger
  counted : x.server.stats = stats.after frames
  returned : ∀ r ∈ x.returns, ∃ close, r = .ok close
  cut : Segmented limit (bytesRead taken) frames rest
  connection : ∃ c, x.server.connections[number]? = some c ∧ c.framer.inbound.limit = limit ∧
    x.written ++ c.framer.outbound.unsent = frames.flatMap Frame.encode ∧
    Stage limit token number taken rest c x.server.table

/-- A notice of a connection that is closed changes nothing. -/
theorem notify_closed {worker token : Nat} {x : Session} (hworker : worker < x.server.workers.size)
    (hidle : x.server.stageOf worker = none) (htoken : x.server.table.get? token = none)
    (notice : Notice) : x.notify worker token notice = x := by
  have hmissing := Server.run_missing hworker hidle htoken notice x.reads x.writes
  have hnone : x.server.connection? token = none := by
    rw [Server.connection?, htoken]
    rfl
  unfold notify
  simp only [hmissing, hnone]

/-- A notice of a connection that is open is handled on it. -/
theorem notify_opened {worker token number : Nat} {x : Session} {c : Connection}
    (hworker : worker < x.server.workers.size) (hidle : x.server.stageOf worker = none)
    (htoken : x.server.table.get? token = some number)
    (hc : x.server.connections[number]? = some c) (notice : Notice) {h : Handled}
    (hh : c.handle x.server.trigger.readMode x.server.stats notice x.reads x.writes = h) {close : Bool}
    (hresult : h.result = .ok close) :
    ∃ t, x.notify worker token notice =
        ⟨t, h.unread, h.unused, x.written ++ h.written, x.returns ++ [.ok close]⟩ ∧
      worker < t.workers.size ∧ t.stageOf worker = none ∧ t.trigger = x.server.trigger ∧
      t.stats = h.stats ∧ t.connections[number]? = some h.connection ∧
      t.table = if close then (x.server.table.remove token).2 else x.server.table := by
  have hconnection : x.server.connection? token = some c := by
    rw [Server.connection?, htoken]
    exact hc
  obtain ⟨t, ht, hworker', hidle', hconnections, hstats, htable, htrigger⟩ :=
    Server.run_handled hworker hidle htoken hc notice x.reads x.writes hh close hresult
  refine ⟨t, ?_, hworker', hidle', htrigger, hstats, ?_, htable⟩
  · unfold notify
    simp only [hconnection, hh, ht, hresult]
  · rw [hconnections, Array.getElem?_setIfInBounds, if_pos rfl,
      if_pos (Array.getElem?_eq_some_iff.mp hc).1]

/-- **One notice, read and written.** The session goes on with what the notice read. -/
theorem Echoing.notify {limit worker token number : Nat} {trigger : Trigger} {stats : ServerStats}
    {reads taken : List ReadOutcome} {frames : List Frame} {rest : Bytes} {x : Session}
    (hx : x.Echoing limit worker token number trigger stats reads taken frames rest)
    (notice : Notice) :
    Attended trigger token number notice x (x.notify worker token notice) ∧
      ∃ taken' frames' rest',
        (x.notify worker token notice).Echoing limit worker token number trigger stats reads taken'
          frames' rest' := by
  obtain ⟨c, hc, hlimit, hsent, hstage⟩ := hx.connection
  cases hstage with
  | closed removed reason =>
    rw [notify_closed hx.inRange hx.idle removed]
    exact ⟨.missed removed rfl, taken, frames, rest, hx⟩
  | opened found alive inOrder held =>
    -- the worker finds the connection as the session left it
    have hopen : ¬ Blocked c.framer.inbound.limit c.framer.inbound.held := by
      rw [hlimit, ← held]
      exact inOrder
    obtain ⟨taken', frames', rest', hechoes⟩ := c.handle_echoes x.server.trigger.readMode
      x.server.stats notice x.reads hopen hx.up
    obtain ⟨close, hattends⟩ := c.handle_attends x.server.trigger.readMode x.server.stats notice
      x.reads hx.up
    obtain ⟨t, ht, hworker, hidle, htrigger, hstats, hput, htable⟩ :=
      notify_opened hx.inRange hx.idle found hc notice rfl hattends.returned
    rw [ht]
    generalize c.handle x.server.trigger.readMode x.server.stats notice x.reads x.writes = h
      at hechoes hattends hstats hput
    have hkept : t.table.get? token = if close then none else some number := by
      rw [htable]
      cases close with
      | true => exact x.server.table.get?_remove_self token
      | false => exact found
    have hcut : Segmented limit (bytesRead (taken ++ taken')) (frames ++ frames') rest' := by
      have hlater := hechoes.cut
      rw [hlimit, ← held] at hlater
      rw [bytesRead, List.flatMap_append]
      exact hx.cut.append hlater
    have hsent' : x.written ++ h.written ++ h.connection.framer.outbound.unsent =
        (frames ++ frames').flatMap Frame.encode := by
      rw [List.append_assoc, hechoes.sent, ← List.append_assoc, hsent, List.flatMap_append]
    have hsplit : reads = taken ++ taken' ++ h.unread := by
      rw [hx.split, hechoes.split, List.append_assoc]
    have hstage : Stage limit token number (taken ++ taken') rest' h.connection t.table := by
      rcases hechoes.outcome with ⟨hresult, hrest, hopened, halive⟩ | ⟨hresult, hends⟩
      · obtain rfl : close = false := Except.ok.inj (hattends.returned.symm.trans hresult)
        exact .opened hkept (List.forall_mem_append.mpr ⟨alive, halive⟩) (hlimit ▸ hopened) hrest
      · obtain rfl : close = true := Except.ok.inj (hattends.returned.symm.trans hresult)
        refine .closed hkept ?_
        rcases hends with ⟨r, hr, hr'⟩ | hblocked
        · exact .inl ⟨r, List.mem_append_right _ hr, hr'⟩
        · exact .inr (hlimit ▸ hblocked)
    refine ⟨.handled c h.connection close found hc hput (hx.told ▸ hattends.attends)
      hattends.ignores hattends.wrote rfl hkept, taken ++ taken', frames ++ frames', rest', hsplit,
      hechoes.up, hworker, hidle, htrigger.trans hx.told, ?_, ?_, hcut, h.connection, hput,
      hechoes.limit.trans hlimit, hsent', hstage⟩
    · show t.stats = stats.after (frames ++ frames')
      rw [hstats, hechoes.counted, hx.counted, ServerStats.after_append]
    · exact List.forall_mem_append.mpr
        ⟨hx.returned, List.forall_mem_singleton.mpr ⟨close, rfl⟩⟩

theorem Echoing.run {limit worker token number : Nat} {trigger : Trigger} {stats : ServerStats}
    {reads taken : List ReadOutcome} {frames : List Frame} {rest : Bytes} {x : Session}
    (hx : x.Echoing limit worker token number trigger stats reads taken frames rest)
    (notices : List Notice) :
    ∃ taken' frames' rest', (x.run worker token notices).Echoing limit worker token number trigger
      stats reads taken' frames' rest' := by
  induction notices generalizing x taken frames rest with
  | nil => exact ⟨taken, frames, rest, hx⟩
  | cons notice notices ih =>
    obtain ⟨-, taken', frames', rest', hx'⟩ := hx.notify notice
    exact ih hx'

/-- Each notice of a run is attended to. -/
theorem Echoing.run_attended {limit worker token number : Nat} {trigger : Trigger}
    {stats : ServerStats} {reads taken : List ReadOutcome} {frames : List Frame} {rest : Bytes}
    {x : Session} (hx : x.Echoing limit worker token number trigger stats reads taken frames rest)
    (before : List Notice) (notice : Notice) :
    Attended trigger token number notice (x.run worker token before)
      (x.run worker token (before ++ [notice])) := by
  obtain ⟨taken', frames', rest', hx'⟩ := hx.run before
  have hrun : x.run worker token (before ++ [notice]) =
      (x.run worker token before).notify worker token notice := List.foldl_append
  rw [hrun]
  exact (hx'.notify notice).1

/-- **A connection echoes the frames that it read.** A worker handles any notices of a fresh connection,
told once or again and again, whose reads give any bytes, errors or the end of the stream, and whose
writes stay up. Then no call fails; what the socket took and what waits are the encodings of the
complete frames in front of the bytes read, which are all counted, those included that came before a
header out of bounds or the end of the stream. The worker finds the connection under its token until a
read ended the stream or a header was out of bounds, and not any more after that. As long as it does,
each notice that asks for it reads as far as the trigger demands, and sends what waits until nothing
does or the socket takes nothing. -/
theorem run_echoes {s : Server} {worker token number limit : Nat} {writes : List WriteOutcome}
    (hworker : worker < s.workers.size) (hidle : s.stageOf worker = none)
    (htoken : s.table.get? token = some number)
    (hfresh : s.connections[number]? = some (.new limit))
    (hup : ∀ a ∈ writes, a.staysUp = true) (reads : List ReadOutcome) (notices : List Notice) :
    ∃ (x : Session) (c : Connection) (taken : List ReadOutcome) (frames : List Frame) (rest : Bytes),
      run worker token ⟨s, reads, writes, [], []⟩ notices = x ∧
      x.server.connections[number]? = some c ∧
      reads = taken ++ x.reads ∧
      Segmented limit (bytesRead taken) frames rest ∧
      x.written ++ c.framer.outbound.unsent = frames.flatMap Frame.encode ∧
      frames.flatMap Frame.encode <+: bytesRead taken ∧
      x.server.stats.served = s.stats.served + UInt64.ofNat frames.length ∧
      x.server.stats.bytes =
        s.stats.bytes + UInt64.ofNat (frames.flatMap Frame.encode).length ∧
      (∀ r ∈ x.returns, ∃ close, r = .ok close) ∧
      ((x.server.table.get? token = some number ∧
          ¬ ((∃ r ∈ taken, r.endsStream = true) ∨ Blocked limit rest)) ∨
        (x.server.table.get? token = none ∧
          ((∃ r ∈ taken, r.endsStream = true) ∨ Blocked limit rest))) ∧
      ∀ before notice after, notices = before ++ notice :: after →
        Attended s.trigger token number notice (run worker token ⟨s, reads, writes, [], []⟩ before)
          (run worker token ⟨s, reads, writes, [], []⟩ (before ++ [notice])) := by
  have hstart : Echoing limit worker token number s.trigger s.stats reads [] [] []
      ⟨s, reads, writes, [], []⟩ :=
    ⟨rfl, hup, hworker, hidle, rfl, rfl, by simp, Segmented.nil limit, _, hfresh, rfl, rfl,
      .opened htoken (by simp) (Assembly.not_blocked_of_lt (by decide)) rfl⟩
  obtain ⟨taken, frames, rest, hx⟩ := hstart.run notices
  obtain ⟨c, hc, -, hsent, hstage⟩ := hx.connection
  refine ⟨_, c, taken, frames, rest, rfl, hc, hx.split, hx.cut, hsent, ?_, ?_, ?_, hx.returned, ?_,
    fun before notice _ _ => hstart.run_attended before notice⟩
  · rw [hx.cut.bytes]
    exact List.prefix_append _ _
  · rw [hx.counted]
    exact ServerStats.served_after _ _
  · rw [hx.counted]
    exact ServerStats.bytes_after _ _
  · cases hstage with
    | opened found alive inOrder held =>
      refine .inl ⟨found, ?_⟩
      rintro (⟨r, hr, hends⟩ | hblocked)
      · rw [alive r hr] at hends
        exact absurd hends Bool.false_ne_true
      · exact inOrder hblocked
    | closed removed reason => exact .inr ⟨removed, reason⟩

/-- A connection that was just accepted reads a message of eighteen bytes in two parts, of which ten
bytes are written at once, and the others when there is room. The next read ends in a header out of
bounds, and the connection is closed. -/
theorem run_echoes_accepted :
    let f : Frame := ⟨⟨18, 1, 2, 3⟩, [7, 8]⟩
    let readable : Notice := ⟨true, false, false⟩
    let writable : Notice := ⟨false, false, true⟩
    let start : Session :=
      ⟨(Server.new 2 4 64).accept,
        [.data (Frame.encode ⟨⟨18, 1, 2, 3⟩, [7]⟩), .fault (.ofKind .interrupted), .data [8],
          .fault (.ofCode 11), .data (Header.encode ⟨5, 1, 2, 4⟩), .data [9]],
        [.accept 10, .block, .accept 100], [], []⟩
    let first := run 1 0 start [readable]
    let second := run 1 0 start [readable, writable]
    ∃ (x : Session) (c : Connection) (taken : List ReadOutcome) (frames : List Frame) (rest : Bytes),
      run 1 0 start [readable, writable, readable] = x ∧ x.server.connections[0]? = some c ∧
      start.reads = taken ++ [.data [9]] ∧ Segmented 64 (bytesRead taken) frames rest ∧
      frames = [f] ∧ rest = Header.encode ⟨5, 1, 2, 4⟩ ∧
      x.written = f.encode ∧ c.framer.outbound.unsent = [] ∧
      x.server.stats.served = 1 ∧ x.server.stats.bytes = 18 ∧
      x.returns.map Except.toOption = [some false, some false, some true] ∧
      x.server.table.get? 0 = none ∧
      first.reads = [.data (Header.encode ⟨5, 1, 2, 4⟩), .data [9]] ∧
      first.written = f.encode.take 10 ∧ second.reads = first.reads ∧ second.written = f.encode ∧
      Attended .edge 0 0 readable start first ∧ Attended .edge 0 0 writable first second ∧
      Attended .edge 0 0 readable second x := by
  intro f readable writable start first second
  obtain ⟨x, c, taken, frames, rest, hx, hc, hsplit, hcut, hsent, -, -, -, -, -, hattended⟩ :=
    @run_echoes (Server.new 2 4 64).accept 1 0 0 64 start.writes (by decide) rfl rfl rfl (by decide)
      start.reads [readable, writable, readable]
  have hfirst : (fun x : Session => (x.reads, x.written)) (run 1 0 start [readable]) =
      ([.data (Header.encode ⟨5, 1, 2, 4⟩), .data [9]], f.encode.take 10) := by cbv
  have hsecond : (fun x : Session => (x.reads, x.written)) (run 1 0 start [readable, writable]) =
      ([.data (Header.encode ⟨5, 1, 2, 4⟩), .data [9]], f.encode) := by cbv
  have hlast : (fun x : Session => (x.reads, x.written, x.server.stats,
      x.returns.map Except.toOption, x.server.table.get? 0))
        (run 1 0 start [readable, writable, readable]) =
      ([.data [9]], f.encode, ⟨1, 18⟩, [some false, some false, some true], none) := by cbv
  have hreads : start.reads = [.data (Frame.encode ⟨⟨18, 1, 2, 3⟩, [7]⟩),
      .fault (.ofKind .interrupted), .data [8], .fault (.ofCode 11),
      .data (Header.encode ⟨5, 1, 2, 4⟩)] ++ [.data [9]] := rfl
  have hcut' : Segmented 64 (f.encode ++ Header.encode ⟨5, 1, 2, 4⟩) [f]
      (Header.encode ⟨5, 1, 2, 4⟩) :=
    ⟨by rw [List.flatMap_singleton], by decide,
      noFrame_of_blocked ⟨⟨5, 1, 2, 4⟩, Header.decode?_encode_append _ [], by decide⟩⟩
  obtain ⟨hreadsFirst, hwrittenFirst⟩ := Prod.mk.inj hfirst
  obtain ⟨hreadsSecond, hwrittenSecond⟩ := Prod.mk.inj hsecond
  have hx : run 1 0 start [readable, writable, readable] = x := hx
  rw [hx] at hlast
  obtain ⟨hleft, hwritten, hstats, hreturns, hremoved⟩ : _ ∧ _ ∧ _ ∧ _ ∧ _ := by
    simpa only [Prod.mk.injEq] using hlast
  -- the outcomes that were read, and the cut of their bytes
  rw [hleft, hreads] at hsplit
  obtain rfl := (List.append_cancel_right hsplit).symm
  obtain ⟨rfl, rfl⟩ := hcut.unique hcut'
  rw [hwritten, List.flatMap_singleton, List.append_right_eq_self] at hsent
  exact ⟨x, c, _, [f], _, hx, hc, hreads, hcut, rfl, rfl, hwritten, hsent, by rw [hstats],
    by rw [hstats], hreturns, hremoved, hreadsFirst, hwrittenFirst,
    hreadsSecond.trans hreadsFirst.symm, hwrittenSecond, hattended [] _ _ rfl,
    hattended [readable] _ _ rfl, hx ▸ hattended [readable, writable] _ _ rfl⟩

/-- A connection that is told again while there is something to read takes one chunk for each notice. -/
example :
    (fun x : Session => (x.reads, x.written))
      (run 0 0
        ⟨(Server.new 1 4 64).accept,
          [.fault (.ofKind .interrupted), .data (Header.encode ⟨16, 1, 2, 3⟩),
            .data (Header.encode ⟨16, 1, 2, 4⟩)],
          [.accept 100], [], []⟩
        [⟨true, false, false⟩]) =
      ([.data (Header.encode ⟨16, 1, 2, 4⟩)], Header.encode ⟨16, 1, 2, 3⟩) := by cbv

end Session

end Stream

end EchoLoad
