import EchoLoad.Files.Directory
import EchoLoad.Node.Execute
import EchoLoad.Proofs.Stats.Sampling

/-!
# What a dump leaves in the rings

A dump takes the samples of a port out of its ring before it writes them, and goes from port to port while
the lines are written. Where it stops at an error, the ports fall into two parts: those that it came to have
empty rings, whatever became of their lines, and the others are as they were.

> `Dump.run_outcome`: a dump that succeeds has written all samples; one that fails has lost all samples of
> the ports that it came to.

`Dump.Outcome` has a case for each place at which a dump can stop. In the first two nothing was taken yet.
-/

namespace EchoLoad

namespace ClientStats

/-- The samples in the ring of a port, oldest first. -/
def retained (s : ClientStats) : List Sample :=
  let count := min s.responses s.ring.capacity
  (List.range' (s.responses - count) count).filterMap s.ring.get?

/-- A port whose samples were taken. -/
def drained (s : ClientStats) : ClientStats := s.drainSamples.2

theorem drainSamples_eq (s : ClientStats) : s.drainSamples = (s.retained, s.drained) := by
  have htaken := SampleRing.takeFrom_eq (min s.responses s.ring.capacity) s.ring
    (s.responses - min s.responses s.ring.capacity) (by omega)
  rw [List.filterMap_map] at htaken
  exact Prod.ext htaken rfl

/-- Nothing is left, as the slots that are read are those that were emptied. -/
theorem retained_drained (s : ClientStats) : s.drained.retained = [] := by
  have hcapacity : s.drained.ring.capacity = s.ring.capacity := SampleRing.capacity_takeFrom ..
  unfold retained
  rw [hcapacity]
  apply List.filterMap_eq_nil_iff.mpr
  intro seq hseq
  have hread : s.responses - min s.responses s.ring.capacity ≤ seq ∧
      seq < s.responses - min s.responses s.ring.capacity + min s.responses s.ring.capacity :=
    List.mem_range'_1.mp hseq
  exact SampleRing.get?_takeFrom _ _ _ _ (.inr hread)

/-- They are the last ones that were recorded since the samples were taken last. -/
theorem Keeps.retained {s : ClientStats} {capacity : Nat} {kept : List Sample}
    (h : s.Keeps capacity kept) : s.retained = kept.rtake capacity :=
  (congrArg Prod.fst s.drainSamples_eq).symm.trans h.drainSamples.1

end ClientStats

namespace Dump

open ClientStats

variable {file : FileOutcome} {time : String} {info : DumpInfo} {clients : List ClientStats}

/-- The lines of all samples of some ports. -/
def linesOf (clients : List ClientStats) : List String := (clients.flatMap retained).map sampleLine

theorem linesOf_cons (c : ClientStats) (rest : List ClientStats) :
    linesOf (c :: rest) = c.retained.map sampleLine ++ linesOf rest := by
  rw [linesOf, List.flatMap_cons, List.map_append, linesOf]

/-- A file that takes so many lines. -/
def Takes (file : FileOutcome) (count : Nat) : Prop := ∀ i < count, file.line i = none

/-- A file that takes the lines before one, and fails at that. -/
structure FailsAt (file : FileOutcome) (index : Nat) (e : SystemError) : Prop where
  taken : Takes file index
  failed : file.line index = some e

theorem FailsAt.not_takes {index count : Nat} {e : SystemError} (h : FailsAt file index e)
    (hcount : index < count) : ¬ Takes file count := by
  intro htakes
  have hnone := htakes index hcount
  rw [h.failed] at hnone
  cases hnone

theorem Takes.succ {index : Nat} (h : Takes file index) (hline : file.line index = none) :
    Takes file (index + 1) := by
  intro i hi
  rcases Nat.lt_succ_iff_lt_or_eq.mp hi with hi | rfl
  · exact h i hi
  · exact hline

/-! ## Writing -/

/-- Lines are written up to the first at which the file fails. -/
theorem writeLines_outcome (lines : List String) :
    ∀ index, Takes file index →
      (Takes file (index + lines.length) ∧ writeLines file index lines = (lines, none)) ∨
      ∃ i e, i < lines.length ∧ FailsAt file (index + i) e ∧
        writeLines file index lines = (lines.take i, some e) := by
  induction lines with
  | nil => exact fun index htakes => .inl ⟨htakes, rfl⟩
  | cons l rest ih =>
    intro index htakes
    unfold writeLines
    cases hline : file.line index with
    | some e => exact .inr ⟨0, e, Nat.zero_lt_succ _, ⟨htakes, hline⟩, rfl⟩
    | none =>
      have hnext (i : Nat) : index + 1 + i = index + (i + 1) := by omega
      rcases ih (index + 1) (htakes.succ hline) with ⟨hall, hwritten⟩ | ⟨i, e, hi, hfails, hwritten⟩
      · left
        rw [hnext] at hall
        exact ⟨hall, by simp only [hwritten]⟩
      · right
        rw [hnext] at hfails
        exact ⟨i + 1, e, Nat.succ_lt_succ hi, hfails, by simp only [hwritten, List.take_succ_cons]⟩

/-- Ports are emptied one after the other, up to the one at whose line the file fails. -/
theorem writePorts_outcome (clients : List ClientStats) :
    ∀ index, Takes file index →
      (Takes file (index + (linesOf clients).length) ∧
        writePorts file index clients = (linesOf clients, none, clients.map drained)) ∨
      ∃ before c after i e, clients = before ++ c :: after ∧ i < c.retained.length ∧
        FailsAt file (index + ((linesOf before).length + i)) e ∧
        writePorts file index clients =
          ((linesOf clients).take ((linesOf before).length + i), some e,
            before.map drained ++ c.drained :: after) := by
  induction clients with
  | nil => exact fun index htakes => .inl ⟨htakes, rfl⟩
  | cons c rest ih =>
    intro index htakes
    unfold writePorts
    rw [drainSamples_eq, linesOf_cons]
    dsimp only
    rcases writeLines_outcome (c.retained.map sampleLine) index htakes with
      ⟨hall, hwritten⟩ | ⟨i, e, hi, hfails, hwritten⟩
    · -- all lines of this port were written, so the place in the rest is counted from behind them
      have hindex (i : Nat) : index + (c.retained.map sampleLine).length + i =
          index + ((c.retained.map sampleLine).length + i) := Nat.add_assoc ..
      rcases ih _ hall with ⟨hrest, hmore⟩ | ⟨before, d, after, i, e, rfl, hi, hfails, hmore⟩
      · left
        rw [hindex, ← List.length_append] at hrest
        refine ⟨hrest, ?_⟩
        simp only [hwritten, hmore, List.map_cons]
      · right
        refine ⟨c :: before, d, after, i, e, rfl, hi, ?_, ?_⟩
        · rw [linesOf_cons, List.length_append, Nat.add_assoc, ← hindex]
          exact hfails
        · rw [linesOf_cons, List.length_append, Nat.add_assoc, List.take_length_add_append]
          simp only [hwritten, hmore, List.map_cons, List.cons_append]
    · right
      have hnone : (linesOf []).length + i = i := Nat.zero_add i
      have htake : (c.retained.map sampleLine ++ linesOf rest).take i =
          (c.retained.map sampleLine).take i := List.take_append_of_le_length (Nat.le_of_lt hi)
      rw [List.length_map] at hi
      refine ⟨[], c, rest, i, e, rfl, hi, ?_, ?_⟩
      · rw [hnone]
        exact hfails
      · -- the samples of this port are gone from its ring, whichever of its lines failed
        rw [hnone, htake]
        simp only [hwritten, List.map_nil, List.nil_append]

/-! ## Whole dumps -/

/-- What becomes of a dump, by the place at which it stops. -/
inductive Outcome (file : FileOutcome) (time : String) (info : DumpInfo) (clients : List ClientStats) :
    Run → Prop
  | notCreated {e : SystemError} (failed : file.create = some e) :
    Outcome file time info clients ⟨.error e, [], clients⟩
  | noHeader {i : Nat} {e : SystemError} (created : file.create = none) (head : i < 4)
    (stopped : FailsAt file i e) :
    Outcome file time info clients ⟨.error e, (header time info).take i, clients⟩
  | cutShort {before after : List ClientStats} {c : ClientStats} {i : Nat} {e : SystemError}
    (created : file.create = none) (split : clients = before ++ c :: after)
    (sample : i < c.retained.length) (stopped : FailsAt file (4 + ((linesOf before).length + i)) e) :
    Outcome file time info clients
      ⟨.error e, header time info ++ (linesOf clients).take ((linesOf before).length + i),
        before.map drained ++ c.drained :: after⟩
  | notFlushed {e : SystemError} (created : file.create = none)
    (taken : Takes file (4 + (linesOf clients).length)) (failed : file.flush = some e) :
    Outcome file time info clients
      ⟨.error e, header time info ++ linesOf clients, clients.map drained⟩
  | written (created : file.create = none) (taken : Takes file (4 + (linesOf clients).length))
    (flushed : file.flush = none) :
    Outcome file time info clients
      ⟨.ok (linesOf clients).length, header time info ++ linesOf clients, clients.map drained⟩

theorem outcome_run (file : FileOutcome) (time : String) (info : DumpInfo)
    (clients : List ClientStats) : Outcome file time info clients (run file time info clients) := by
  have hnothing : Takes file 0 := fun i hi => absurd hi (Nat.not_lt_zero i)
  unfold run
  split
  next e hcreate => exact .notCreated hcreate
  next hcreate =>
    rcases writeLines_outcome (header time info) 0 hnothing with
      ⟨hhead, hwritten⟩ | ⟨i, e, hi, hfails, hwritten⟩
    · rw [Nat.zero_add] at hhead
      rcases writePorts_outcome clients _ hhead with
        ⟨hall, hmore⟩ | ⟨before, c, after, i, e, hsplit, hi, hfails, hmore⟩
      · simp only [hwritten, hmore]
        cases hflush : file.flush with
        | some e => exact .notFlushed hcreate hall hflush
        | none => exact .written hcreate hall hflush
      · simp only [hwritten, hmore]
        exact .cutShort hcreate hsplit hi hfails
    · rw [Nat.zero_add] at hfails
      simp only [hwritten]
      exact .noHeader hcreate hi hfails

theorem retained_map_drained (clients : List ClientStats) :
    (clients.map drained).map retained = List.replicate clients.length [] := by
  rw [List.map_map]
  exact List.map_eq_replicate_iff.mpr fun c _ => c.retained_drained

/-- A dump goes through all ports, and each of them is left as it was or emptied. -/
theorem Outcome.length_clients {r : Run} (h : Outcome file time info clients r) :
    r.clients.length = clients.length := by
  cases h with
  | notCreated failed => rfl
  | noHeader created head stopped => rfl
  | cutShort created split sample stopped =>
    rw [split]
    simp only [List.length_append, List.length_map, List.length_cons]
  | notFlushed created taken failed => exact List.length_map _
  | written created taken flushed => exact List.length_map _

/-- The ports with all indexes are all ports. -/
theorem chosen_range (clients : List ClientStats) :
    chosen clients (List.range clients.length) = clients := by
  have hzip : (List.range clients.length).zipIdx = (List.range clients.length).map fun i => (i, i) :=
    List.ext_getElem (by simp) (by simp)
  have hfresh : ∀ i, ((List.range clients.length).take i).contains i = false := by
    intro i
    simp only [List.take_range, List.contains_eq_mem, List.mem_range, decide_eq_false_iff_not]
    omega
  have hall : ∀ xs : List ClientStats, (List.range xs.length).filterMap (fun i => xs[i]?) = xs := by
    intro xs
    induction xs with
    | nil => rfl
    | cons x xs ih =>
      rw [List.length_cons, List.range_succ_eq_map, List.filterMap_cons, List.filterMap_map]
      exact congrArg (List.cons x) ih
  rw [chosen, hzip, List.filterMap_map]
  simpa only [Function.comp_def, hfresh, Bool.false_eq_true, if_false, Option.map_id'] using hall clients

/-- Ports put back one after the other, from a place on. -/
theorem foldl_set_range' (front rest later : List ClientStats) (hlength : later.length = rest.length) :
    ((List.range' front.length rest.length).zip later).foldl (fun l (i, c) => l.set i c)
      (front ++ rest) = front ++ later := by
  induction rest generalizing front later with
  | nil =>
    rw [List.eq_nil_of_length_eq_zero hlength]
    rfl
  | cons c rest ih =>
    obtain ⟨d, later, rfl⟩ := List.exists_cons_of_length_eq_add_one hlength
    have hset : (front ++ c :: rest).set front.length d = front ++ [d] ++ rest := by
      simp
    have hnext : front.length + 1 = (front ++ [d]).length := by simp
    rw [List.length_cons, List.range'_succ, List.zip_cons_cons, List.foldl_cons]
    dsimp only
    rw [hset, hnext, ih (front ++ [d]) later (Nat.succ.inj hlength), List.append_assoc]
    rfl

/-- **Choosing all ports is dumping all ports.** -/
theorem runChosen_range (file : FileOutcome) (time : String) (info : DumpInfo)
    (clients : List ClientStats) :
    runChosen file time info clients (List.range clients.length) = run file time info clients := by
  have hlength := (outcome_run file time info clients).length_clients
  have hput := foldl_set_range' [] clients (run file time info clients).clients hlength
  rw [List.length_nil, ← List.range_eq_range', List.nil_append, List.nil_append] at hput
  rw [runChosen, chosen_range]
  dsimp only
  rw [hput]

/-- A dump that succeeds has written what all ports had, and they have nothing any more. -/
theorem Outcome.of_ok {r : Run} (h : Outcome file time info clients r) {n : Nat}
    (hresult : r.result = .ok n) :
    n = (clients.flatMap retained).length ∧ r.lines = header time info ++ linesOf clients ∧
      ∀ c ∈ r.clients, c.retained = [] := by
  cases h with
  | notCreated failed => cases hresult
  | noHeader created head stopped => cases hresult
  | cutShort created split sample stopped => cases hresult
  | notFlushed created taken failed => cases hresult
  | written created taken flushed =>
    cases hresult
    refine ⟨List.length_map _, rfl, ?_⟩
    intro c hc
    obtain ⟨d, -, rfl⟩ := List.mem_map.mp hc
    exact d.retained_drained

/-- Nothing was taken yet, or there was nothing to take. -/
def Harmless (file : FileOutcome) (clients : List ClientStats) : Prop :=
  file.create ≠ none ∨ ¬ Takes file 4 ∨ ∀ c ∈ clients, c.retained = []

/-- A dump that fails keeps the samples only if it fails before the first of them. -/
theorem Outcome.retained_eq_iff {r : Run} (h : Outcome file time info clients r) {e : SystemError}
    (hresult : r.result = .error e) :
    r.clients.map retained = clients.map retained ↔ Harmless file clients := by
  cases h with
  | notCreated failed =>
    refine iff_of_true rfl (.inl ?_)
    rw [failed]
    exact Option.some_ne_none _
  | noHeader created head stopped => exact iff_of_true rfl (.inr (.inl (stopped.not_takes head)))
  | @cutShort before after c i e created split sample stopped =>
    have hsome : c.retained ≠ [] := List.ne_nil_of_length_pos (by omega)
    refine iff_of_false ?_ ?_
    · -- the port at whose line the file failed had a sample, and is empty now
      intro hsame
      rw [split, List.map_append, List.map_append] at hsame
      obtain ⟨-, hport⟩ := List.append_inj hsame (by rw [List.length_map, List.length_map,
        List.length_map])
      have hemptied : c.drained.retained = c.retained := (List.cons.inj hport).1
      rw [retained_drained] at hemptied
      exact hsome hemptied.symm
    · rintro (hcreate | hhead | hnone)
      · exact hcreate created
      · exact hhead fun j hj => stopped.taken j (by omega)
      · refine hsome (hnone c ?_)
        rw [split]
        exact List.mem_append_right _ List.mem_cons_self
  | notFlushed created taken failed =>
    constructor
    · intro hsame
      refine .inr (.inr fun c hc => ?_)
      have hmem : c.retained ∈ clients.map retained := List.mem_map_of_mem hc
      rw [← hsame, retained_map_drained] at hmem
      exact (List.mem_replicate.mp hmem).2
    · rintro (hcreate | hhead | hnone)
      · exact absurd created hcreate
      · exact absurd (fun j hj => taken j (by omega)) hhead
      · rw [retained_map_drained]
        exact (List.map_eq_replicate_iff.mpr hnone).symm
  | written created taken flushed => cases hresult

/-- On a good file everything is written. -/
theorem run_good (time : String) (info : DumpInfo) (clients : List ClientStats) :
    run .good time info clients =
      ⟨.ok (clients.flatMap retained).length, header time info ++ linesOf clients,
        clients.map drained⟩ := by
  have houtcome := outcome_run .good time info clients
  generalize run .good time info clients = r at houtcome
  cases houtcome with
  | notCreated failed => cases failed
  | noHeader created head stopped => cases stopped.failed
  | cutShort created split sample stopped => cases stopped.failed
  | notFlushed created taken failed => cases failed
  | written created taken flushed => rw [linesOf, List.length_map]

end Dump

/-! ## The dump command -/

namespace Node

theorem map_stats_withStats (ports : List ClientPort) :
    ∀ stats : List ClientStats, stats.length = ports.length →
      (withStats ports stats).map (·.stats) = stats := by
  induction ports with
  | nil => exact fun stats hlength => (List.eq_nil_of_length_eq_zero hlength).symm
  | cons p ports ih =>
    intro stats hlength
    cases stats with
    | nil => cases hlength
    | cons s stats => exact congrArg (s :: ·) (ih stats (Nat.succ.inj hlength))

/-- A node goes on with the ports as the dump left them, and an error of the dump does not end it. -/
theorem execute_dumpTimes (h : Host) (file : FileOutcome) (time : String) (n : Node) (path : String) :
    (n.execute h (fun _ => file) time (.dumpTimes path)).node.clientStats =
        (Dump.run file time n.dumpInfo n.clientStats).clients ∧
      ∀ e, (n.execute h (fun _ => file) time (.dumpTimes path)).result = .error e →
        e.isFatal = false := by
  have hlength : (Dump.run file time n.dumpInfo n.clientStats).clients.length = n.clients.length := by
    rw [(Dump.outcome_run file time n.dumpInfo n.clientStats).length_clients, clientStats,
      List.length_map]
  have hstats := map_stats_withStats n.clients _ hlength
  unfold execute executeDump
  dsimp only
  split
  next e he =>
    refine ⟨hstats, ?_⟩
    rintro _ ⟨⟩
    rfl
  next samples hsamples =>
    refine ⟨hstats, ?_⟩
    rintro _ ⟨⟩

end Node

namespace Dump

open ClientStats

/-- **A dump that succeeds has written all samples; one that fails may have lost some.** What a ring retains
are the last samples since it was emptied, as many as there are slots. `Outcome` says at which places a dump
stops, and what is left then. If it succeeds, it wrote the samples of all ports, port by port and oldest
first, gives their number, and leaves all rings empty. If it fails, the samples are still there if the file
could not be created, or took no whole header, or if there were none; otherwise those of a port are missing.
A node goes on after that, and the next dump writes what is left. -/
theorem run_outcome (file : FileOutcome) (time : String) (info : DumpInfo)
    (clients : List ClientStats) :
    let r := run file time info clients
    (∀ c ∈ clients, ∀ capacity kept, c.Keeps capacity kept → c.retained = kept.rtake capacity) ∧
    Outcome file time info clients r ∧
    (∀ n, r.result = .ok n →
      n = (clients.flatMap retained).length ∧
        r.lines = header time info ++ (clients.flatMap retained).map sampleLine ∧
        ∀ c ∈ r.clients, c.retained = []) ∧
    (∀ e, r.result = .error e →
      (r.clients.map retained = clients.map retained ↔ Harmless file clients)) ∧
    (∀ later info', run .good later info' r.clients =
      ⟨.ok (r.clients.flatMap retained).length,
        header later info' ++ (r.clients.flatMap retained).map sampleLine, r.clients.map drained⟩) ∧
    ∀ (h : Host) (n : Node) (path : String), n.clientStats = clients → n.dumpInfo = info →
      (n.execute h (fun _ => file) time (.dumpTimes path)).node.clientStats = r.clients ∧
      ∀ e, (n.execute h (fun _ => file) time (.dumpTimes path)).result = .error e →
        e.isFatal = false := by
  intro r
  have houtcome : Outcome file time info clients r := outcome_run file time info clients
  refine ⟨?_, houtcome, ?_, ?_, ?_, ?_⟩
  · exact fun c _ capacity kept h => h.retained
  · exact fun n hresult => houtcome.of_ok hresult
  · exact fun e hresult => houtcome.retained_eq_iff hresult
  · exact fun later info' => run_good later info' r.clients
  · rintro h n path rfl rfl
    exact n.execute_dumpTimes h file time path

/-- A port that got a response of so many bytes. -/
def portWith (length : UInt32) : ClientStats := (ClientStats.new 1 4).record length 5 0

def oneOfEach : DumpInfo := ⟨"stream", "16", 0, 1, 1, 1, 1⟩

/-- The file fails at its sixth line, which is that of the second port. The samples of the first two ports
are lost, though that line was never written; the third port is as it was, and the next dump writes its
sample alone. -/
theorem run_outcome_second_port :
    let file : FileOutcome := ⟨none, fun i => if i = 5 then some Directory.noSpace else none, none⟩
    let ports := [portWith 16, portWith 20, portWith 24]
    let r := run file "" oneOfEach ports
    r.result = .error Directory.noSpace ∧ ¬ Harmless file ports ∧
      r.clients.map retained = [[], [], [⟨24, 5⟩]] ∧
      (run .good "" oneOfEach r.clients).lines = header "" oneOfEach ++ [sampleLine ⟨24, 5⟩] := by
  intro file ports r
  obtain ⟨-, -, -, hkeeps, hnext, -⟩ := run_outcome file "" oneOfEach ports
  have hresult : r.result = .error Directory.noSpace := rfl
  have hleft : r.clients.map retained = [[], [], [⟨24, 5⟩]] := by decide +kernel
  have hbefore : ports.map retained = [[⟨16, 5⟩], [⟨20, 5⟩], [⟨24, 5⟩]] := by decide +kernel
  refine ⟨hresult, ?_, hleft, ?_⟩
  · rw [← hkeeps _ hresult, hleft, hbefore]
    decide
  · rw [hnext, List.flatMap_def, hleft]
    rfl

/-- The disk is full when a dump is flushed: the sample that was there before is gone, and the next dump
succeeds with no samples, where it would have written one. -/
theorem run_loses_sample :
    let r := run (.failing Directory.noSpace) "" oneOfEach [portWith 16]
    r.result = .error Directory.noSpace ∧ (portWith 16).retained = [⟨16, 5⟩] ∧
      r.clients.map retained = [[]] ∧ (run .good "" oneOfEach r.clients).result = .ok 0 ∧
      (run .good "" oneOfEach [portWith 16]).result = .ok 1 := by
  refine ⟨rfl, ?_, ?_, rfl, rfl⟩
  · decide +kernel
  · decide +kernel

end Dump

end EchoLoad
