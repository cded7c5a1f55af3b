import EchoLoad.Stats.Client
import Mathlib.Data.List.DropRight

/-!
# A port keeps the samples since the last drain

Seen from outside, the ring of a port is the list of the samples recorded since it was drained last:

> `serveAll_refines`: whatever is recorded, read and drained, the answers are those of a journal that
> keeps this list whole and answers with its last samples, as many as the ring has slots.

`SampleRing.Holds` ties the slots to a log with one entry for each sequence number, which is `none`
once it was drained. Only the last `capacity` entries have a slot, and no two of these share one
(`mod_ne_mod`). A drain does not start the numbers anew, so behind it the slots read are emptied ones
and new ones, but never those of a lap before: these are numbers before the window that is read.
-/

namespace EchoLoad

/-- Numbers that are less than `c` apart differ modulo `c`. -/
theorem mod_ne_mod {a b c : Nat} (hab : a < b) (hb : b < a + c) : a % c ≠ b % c := by
  intro h
  have hzero : (b - a) % c = 0 := Nat.sub_mod_eq_zero_of_mod_eq h.symm
  rw [Nat.mod_eq_of_lt (by omega)] at hzero
  omega

namespace SampleRing

/-! ## Slots -/

theorem get?_put (r : SampleRing) (seq other : Nat) (word : UInt64) :
    (r.put seq word).get? other =
      if seq % r.capacity = other % r.capacity then
        (if word = 0 then none else some (.unpack word))
      else r.get? other := by
  have hword : (r.put seq word).slots[(r.put seq word).slot other] =
      if seq % r.capacity = other % r.capacity then word else r.slots[r.slot other] := by
    simp only [put, slot, capacity, Fin.getElem_fin, Array.size_set, Array.getElem_set]
    rfl
  unfold get?
  rw [hword]
  split <;> rfl

theorem get?_store_self (r : SampleRing) (seq : Nat) {x : Sample} (hx : 1 ≤ x.length) :
    (r.store seq x).get? seq = some x := by
  rw [store, get?_put, if_pos rfl, if_neg (Sample.pack_ne_zero hx), Sample.unpack_pack]

theorem get?_put_near (r : SampleRing) {seq other : Nat} (word : UInt64) (hne : seq ≠ other)
    (hbelow : seq < other + r.capacity) (habove : other < seq + r.capacity) :
    (r.put seq word).get? other = r.get? other := by
  rw [get?_put, if_neg]
  rcases Nat.lt_or_gt_of_ne hne with h | h
  · exact mod_ne_mod h habove
  · exact (mod_ne_mod h hbelow).symm

/-- Emptying a slot fills none. -/
theorem get?_put_zero {r : SampleRing} {other : Nat} (seq : Nat) (h : r.get? other = none) :
    (r.put seq 0).get? other = none := by
  rw [get?_put]
  split
  · rfl
  · exact h

@[simp] theorem capacity_takeFrom (count : Nat) :
    ∀ (r : SampleRing) (first : Nat), (r.takeFrom first count).2.capacity = r.capacity := by
  induction count with
  | zero => intro r first; rfl
  | succ count ih =>
    intro r first
    show ((r.put first 0).takeFrom (first + 1) count).2.capacity = r.capacity
    rw [ih, capacity_put]

/-- In a window that is not longer than the ring, taking one sample leaves the others there. -/
theorem takeFrom_eq (count : Nat) :
    ∀ (r : SampleRing) (first : Nat), count ≤ r.capacity →
      (r.takeFrom first count).1 = ((List.range' first count).map r.get?).filterMap id := by
  induction count with
  | zero => intro r first _; rfl
  | succ count ih =>
    intro r first hcount
    have hlater : (List.range' (first + 1) count).map (r.put first 0).get? =
        (List.range' (first + 1) count).map r.get? := by
      apply List.map_congr_left
      intro seq hseq
      rw [List.mem_range'_1] at hseq
      exact r.get?_put_near 0 (by omega) (by omega) (by omega)
    show (r.get? first).toList ++ ((r.put first 0).takeFrom (first + 1) count).1 = _
    rw [ih _ _ (by rw [capacity_put]; omega), hlater, List.range'_succ, List.map_cons]
    cases r.get? first <;> rfl

theorem get?_takeFrom (count : Nat) :
    ∀ (r : SampleRing) (first seq : Nat),
      (r.get? seq = none ∨ (first ≤ seq ∧ seq < first + count)) →
        (r.takeFrom first count).2.get? seq = none := by
  induction count with
  | zero =>
    intro r first seq h
    rcases h with h | h
    · exact h
    · omega
  | succ count ih =>
    intro r first seq h
    show ((r.put first 0).takeFrom (first + 1) count).2.get? seq = none
    apply ih
    by_cases hfirst : seq = first
    · left
      rw [hfirst, get?_put, if_pos rfl, if_pos rfl]
    · rcases h with h | h
      · exact .inl (get?_put_zero first h)
      · right
        omega

/-! ## The log behind the slots -/

/-- The slots hold the last entries of a log, one entry for each sequence number. -/
def Holds (r : SampleRing) (log : List (Option Sample)) : Prop :=
  ∀ seq < log.length, log.length ≤ seq + r.capacity → log[seq]? = some (r.get? seq)

theorem Holds.store {r : SampleRing} {log : List (Option Sample)} (h : r.Holds log) {x : Sample}
    (hx : 1 ≤ x.length) : (r.store log.length x).Holds (log ++ [some x]) := by
  intro seq hseq hslot
  rw [List.length_append, List.length_singleton] at hseq hslot
  rw [capacity_store] at hslot
  by_cases hlast : seq = log.length
  · rw [hlast, get?_store_self _ _ hx, List.getElem?_concat_length]
  · -- the slot that was written is that of a number a lap before, which is out of the window now
    have hget : (r.store log.length x).get? seq = r.get? seq :=
      r.get?_put_near _ (Ne.symm hlast) (by omega) (by omega)
    rw [hget, List.getElem?_append_left (by omega)]
    exact h seq (by omega) (by omega)

/-- The slots of the last sequence numbers are read off the end of the log. -/
theorem Holds.window {r : SampleRing} {log : List (Option Sample)} (h : r.Holds log) (count : Nat)
    (hlog : count ≤ log.length) (hslots : count ≤ r.capacity) :
    (List.range' (log.length - count) count).map r.get? = log.drop (log.length - count) := by
  apply List.ext_getElem?
  intro i
  rw [List.getElem?_drop, List.getElem?_map]
  by_cases hi : i < count
  · rw [List.getElem?_range' hi, Nat.one_mul, Option.map_some]
    exact (h _ (by omega) (by omega)).symm
  · rw [List.getElem?_eq_none (by rw [List.length_range']; omega), List.getElem?_eq_none (by omega)]
    rfl

theorem Holds.drained (r : SampleRing) (log : List (Option Sample)) (count : Nat)
    (hcount : count = min log.length r.capacity) :
    (r.takeFrom (log.length - count) count).2.Holds (List.replicate log.length none) := by
  intro seq hseq hslot
  rw [List.length_replicate] at hseq hslot
  rw [capacity_takeFrom] at hslot
  rw [List.getElem?_replicate_of_lt hseq, get?_takeFrom]
  right
  omega

/-- The log in which all but the last samples were drained. -/
def logOf (drained : Nat) (kept : List Sample) : List (Option Sample) :=
  List.replicate drained none ++ kept.map some

@[simp] theorem length_logOf (drained : Nat) (kept : List Sample) :
    (logOf drained kept).length = drained + kept.length := by
  simp [logOf]

/-- Passing over what was drained, the end of the log is the end of what is kept. -/
theorem filterMap_drop_logOf (drained : Nat) (kept : List Sample) (count : Nat) :
    ((logOf drained kept).drop (drained + kept.length - count)).filterMap id = kept.rtake count := by
  have hskip : drained + kept.length - count - drained = kept.length - count := by omega
  rw [logOf, List.drop_append, List.drop_replicate, List.length_replicate, hskip,
    List.filterMap_append, List.filterMap_replicate_of_none rfl, List.nil_append, ← List.map_drop,
    List.filterMap_map]
  exact List.filterMap_some

end SampleRing

/-! ## The samples of a port -/

namespace ClientStats

/-- Since the last drain these samples were recorded, and nothing but them is in the ring. -/
structure Keeps (s : ClientStats) (capacity : Nat) (kept : List Sample) : Prop where
  capacity : s.ring.capacity = capacity
  counted : kept.length ≤ s.responses
  ring : s.ring.Holds (SampleRing.logOf (s.responses - kept.length) kept)

theorem keeps_new (servers capacity : Nat) : (new servers capacity).Keeps (max capacity 1) [] where
  capacity := SampleRing.capacity_new capacity
  counted := Nat.zero_le _
  ring := by
    intro seq hseq
    exact absurd hseq (Nat.not_lt_zero seq)

theorem Keeps.record {s : ClientStats} {capacity : Nat} {kept : List Sample}
    (h : s.Keeps capacity kept) {length : UInt32} (hlength : 1 ≤ length) (rtt : UInt32)
    (serverId : Int32) :
    (s.record length rtt serverId).Keeps capacity (kept ++ [⟨length, rtt⟩]) := by
  have hcounted := h.counted
  refine ⟨?_, ?_, ?_⟩
  · rw [ClientStats.record, SampleRing.capacity_store]
    exact h.capacity
  · rw [List.length_append, List.length_singleton]
    exact Nat.succ_le_succ hcounted
  · have hnext : (SampleRing.logOf (s.responses - kept.length) kept).length = s.responses := by
      rw [SampleRing.length_logOf]
      omega
    have hstored := h.ring.store (x := ⟨length, rtt⟩) hlength
    rw [hnext] at hstored
    have hlog (x : Sample) : SampleRing.logOf (s.responses + 1 - (kept ++ [x]).length) (kept ++ [x]) =
        SampleRing.logOf (s.responses - kept.length) kept ++ [some x] := by
      rw [List.length_append, List.length_singleton, Nat.add_sub_add_right]
      simp [SampleRing.logOf]
    rw [← hlog] at hstored
    exact hstored

/-- What the slots of the last sequence numbers hold. -/
theorem Keeps.window {s : ClientStats} {capacity : Nat} {kept : List Sample}
    (h : s.Keeps capacity kept) (count : Nat) (hcount : count ≤ s.responses)
    (hslots : count ≤ capacity) :
    ((List.range' (s.responses - count) count).map s.ring.get?).filterMap id = kept.rtake count := by
  have hcounted := h.counted
  have hall : s.responses - kept.length + kept.length = s.responses := by omega
  have hlength := SampleRing.length_logOf (s.responses - kept.length) kept
  rw [hall] at hlength
  have hwindow := h.ring.window count (by omega) (by rw [h.capacity]; exact hslots)
  have hkept := SampleRing.filterMap_drop_logOf (s.responses - kept.length) kept count
  rw [hlength] at hwindow
  rw [hall] at hkept
  rw [hwindow, hkept]

theorem Keeps.recentRtts {s : ClientStats} {capacity : Nat} {kept : List Sample}
    (h : s.Keeps capacity kept) (most : Nat) :
    s.recentRtts most = (kept.rtake (min most capacity)).map (·.rtt.toNat) := by
  have hcounted := h.counted
  have hcapacity := h.capacity
  have hwindow := h.window (min (min most s.responses) capacity) (by omega) (by omega)
  have hrtake : kept.rtake (min (min most s.responses) capacity) =
      kept.rtake (min most capacity) := by
    unfold List.rtake
    congr 1
    omega
  rw [hrtake] at hwindow
  rw [ClientStats.recentRtts, hcapacity, ← hwindow, List.filterMap_map, List.map_filterMap]
  rfl

theorem Keeps.drainSamples {s : ClientStats} {capacity : Nat} {kept : List Sample}
    (h : s.Keeps capacity kept) :
    s.drainSamples.1 = kept.rtake capacity ∧ s.drainSamples.2.Keeps capacity [] := by
  have hcounted := h.counted
  have hcapacity := h.capacity
  constructor
  · have hwindow := h.window (min s.responses capacity) (by omega) (by omega)
    have hrtake : kept.rtake (min s.responses capacity) = kept.rtake capacity := by
      unfold List.rtake
      congr 1
      omega
    show (s.ring.takeFrom _ (min s.responses s.ring.capacity)).1 = _
    rw [SampleRing.takeFrom_eq _ _ _ (by omega), hcapacity, hwindow, hrtake]
  · have hlength : (SampleRing.logOf (s.responses - kept.length) kept).length = s.responses := by
      rw [SampleRing.length_logOf]
      omega
    refine ⟨?_, Nat.zero_le _, ?_⟩
    · show (s.ring.takeFrom _ _).2.capacity = _
      rw [SampleRing.capacity_takeFrom]
      exact hcapacity
    · have hdrained := SampleRing.Holds.drained s.ring
        (SampleRing.logOf (s.responses - kept.length) kept)
        (min s.responses s.ring.capacity) (by rw [hlength])
      rw [hlength] at hdrained
      show (s.ring.takeFrom _ _).2.Holds (List.replicate s.responses none ++ [])
      rw [List.append_nil]
      exact hdrained

end ClientStats

/-! ## Whole runs of calls -/

inductive StatsCall
  | record (length rtt : UInt32) (serverId : Int32)
  | recent (most : Nat)
  | drain
deriving DecidableEq

namespace StatsCall

/-- A response that is recorded has a length. -/
def hasLength : StatsCall → Bool
  | record length _ _ => 1 ≤ length
  | _ => true

def recorded : StatsCall → List Sample
  | record length rtt _ => [⟨length, rtt⟩]
  | _ => []

end StatsCall

/-- What a call gives: the times that it appends to those the caller has, or the samples drained. -/
inductive StatsAnswer
  | counted
  | appended (rtts : List Nat)
  | drained (samples : List Sample)
deriving DecidableEq

def StatsAnswer.drained? : StatsAnswer → Option (List Sample)
  | drained samples => some samples
  | _ => none

/-- Serve calls one after the other. -/
def serveAll {σ : Type} (serve : σ → StatsCall → StatsAnswer × σ) (s : σ) :
    List StatsCall → List StatsAnswer × σ
  | [] => ([], s)
  | call :: calls =>
    let (answer, s) := serve s call
    let (answers, s) := serveAll serve s calls
    (answer :: answers, s)

def ClientStats.serve (s : ClientStats) : StatsCall → StatsAnswer × ClientStats
  | .record length rtt serverId => (.counted, s.record length rtt serverId)
  | .recent most => (.appended (s.recentRtts most), s)
  | .drain => (.drained s.drainSamples.1, s.drainSamples.2)

/-- All samples that were ever recorded, cut at the drains. -/
structure Journal where
  /-- for each drain, what was recorded between the one before and it -/
  drained : List (List Sample)
  /-- what was recorded since the last drain -/
  kept : List Sample

namespace Journal

def new : Journal := ⟨[], []⟩

def serve (capacity : Nat) (j : Journal) : StatsCall → StatsAnswer × Journal
  | .record length rtt _ => (.counted, { j with kept := j.kept ++ [⟨length, rtt⟩] })
  | .recent most => (.appended ((j.kept.rtake (min most capacity)).map (·.rtt.toNat)), j)
  | .drain => (.drained (j.kept.rtake capacity), ⟨j.drained ++ [j.kept], []⟩)

theorem serve_samples (capacity : Nat) (j : Journal) (call : StatsCall) :
    (j.serve capacity call).2.drained.flatten ++ (j.serve capacity call).2.kept =
      j.drained.flatten ++ j.kept ++ call.recorded := by
  cases call <;> simp [serve, StatsCall.recorded]

theorem serve_drained (capacity : Nat) (j : Journal) (call : StatsCall) :
    (j.serve capacity call).2.drained.map (·.rtake capacity) =
      j.drained.map (·.rtake capacity) ++ (j.serve capacity call).1.drained?.toList := by
  cases call <;> simp [serve, StatsAnswer.drained?]

/-- Nothing that is recorded leaves the journal. -/
theorem serveAll_samples (capacity : Nat) (calls : List StatsCall) :
    ∀ j : Journal, (serveAll (serve capacity) j calls).2.drained.flatten ++
      (serveAll (serve capacity) j calls).2.kept =
        j.drained.flatten ++ j.kept ++ calls.flatMap StatsCall.recorded := by
  induction calls with
  | nil => intro j; exact (List.append_nil _).symm
  | cons call calls ih =>
    intro j
    rw [List.flatMap_cons, ← List.append_assoc, ← j.serve_samples capacity call]
    exact ih _

theorem serveAll_drained (capacity : Nat) (calls : List StatsCall) :
    ∀ j : Journal, (serveAll (serve capacity) j calls).2.drained.map (·.rtake capacity) =
      j.drained.map (·.rtake capacity) ++
        (serveAll (serve capacity) j calls).1.filterMap StatsAnswer.drained? := by
  induction calls with
  | nil => intro j; exact (List.append_nil _).symm
  | cons call calls ih =>
    intro j
    have hcons : (serveAll (serve capacity) j (call :: calls)).1.filterMap StatsAnswer.drained? =
        (j.serve capacity call).1.drained?.toList ++
          (serveAll (serve capacity) (j.serve capacity call).2 calls).1.filterMap
            StatsAnswer.drained? := by
      show ((j.serve capacity call).1 :: _).filterMap _ = _
      rw [List.filterMap_cons]
      cases (j.serve capacity call).1.drained? <;> rfl
    rw [hcons, ← List.append_assoc, ← j.serve_drained capacity call]
    exact ih _

end Journal

namespace ClientStats

/-- One call is answered as the journal answers it. -/
theorem Keeps.serve {s : ClientStats} {capacity : Nat} {j : Journal} (h : s.Keeps capacity j.kept)
    {call : StatsCall} (hcall : call.hasLength = true) :
    (s.serve call).1 = (j.serve capacity call).1 ∧
      (s.serve call).2.Keeps capacity (j.serve capacity call).2.kept := by
  cases call with
  | record length rtt serverId =>
    have hlength : 1 ≤ length := of_decide_eq_true hcall
    exact ⟨rfl, h.record hlength rtt serverId⟩
  | recent most =>
    refine ⟨?_, h⟩
    exact congrArg StatsAnswer.appended (h.recentRtts most)
  | drain =>
    obtain ⟨hsamples, hempty⟩ := h.drainSamples
    exact ⟨congrArg StatsAnswer.drained hsamples, hempty⟩

theorem Keeps.serveAll {capacity : Nat} (calls : List StatsCall) :
    ∀ {s : ClientStats} {j : Journal}, s.Keeps capacity j.kept →
      (∀ call ∈ calls, call.hasLength = true) →
        (serveAll ClientStats.serve s calls).1 =
          (EchoLoad.serveAll (Journal.serve capacity) j calls).1 := by
  induction calls with
  | nil => intro s j _ _; rfl
  | cons call calls ih =>
    intro s j h hcalls
    obtain ⟨hcall, hcalls⟩ := List.forall_mem_cons.mp hcalls
    obtain ⟨hanswer, hnext⟩ := h.serve hcall
    show (s.serve call).1 :: _ = (j.serve capacity call).1 :: _
    rw [hanswer]
    exact congrArg _ (ih hnext hcalls)

/-- **The ring of a port is the list of the samples since the last drain.** Responses of any length
but zero are recorded, times are read and samples drained, in any order. All answers are those of a
journal, of which a drain gives the last samples since the drain before, oldest first, and a reading
the times of the last ones; as many as there are slots, at least one. The journal loses nothing: what
was recorded is what it has between the drains and after the last one. So each drain gave the end of a
piece of its own, and what it did not give was followed by `capacity` samples or more in that piece. -/
theorem serveAll_refines (servers capacity : Nat) (calls : List StatsCall)
    (hcalls : ∀ call ∈ calls, call.hasLength = true) :
    ∃ j : Journal, ∃ answers : List StatsAnswer,
      EchoLoad.serveAll (Journal.serve (max capacity 1)) .new calls = (answers, j) ∧
      (EchoLoad.serveAll ClientStats.serve (.new servers capacity) calls).1 = answers ∧
      calls.flatMap StatsCall.recorded = j.drained.flatten ++ j.kept ∧
      answers.filterMap StatsAnswer.drained? = j.drained.map (·.rtake (max capacity 1)) ∧
      ∀ piece ∈ j.drained, ∀ older x newer, piece = older ++ x :: newer →
        newer.length < max capacity 1 → x :: newer <:+ piece.rtake (max capacity 1) := by
  refine ⟨_, _, rfl, ?_, ?_, ?_, ?_⟩
  · exact Keeps.serveAll calls (keeps_new servers capacity) hcalls
  · exact (Journal.serveAll_samples _ calls .new).symm
  · exact (Journal.serveAll_drained _ calls .new).symm
  · intro piece _ older x newer hpiece hnewer
    have hend : x :: newer <:+ piece := by
      rw [hpiece]
      exact List.suffix_append _ _
    refine List.suffix_of_suffix_length_le hend (List.drop_suffix _ _) ?_
    · have hlength := congrArg List.length hpiece
      rw [List.length_append, List.length_cons] at hlength
      rw [List.rtake, List.length_drop, List.length_cons]
      omega

/-- Two slots: three samples are recorded, of which two are left to drain; then one more is. -/
theorem serveAll_refines_two :
    (EchoLoad.serveAll ClientStats.serve (.new 1 2)
      [.record 16 5 0, .record 20 6 (-1), .recent 1, .record 24 4294967295 0, .drain, .record 16 0 7,
        .recent 9, .drain]).1 =
      [.counted, .counted, .appended [6], .counted, .drained [⟨20, 6⟩, ⟨24, 4294967295⟩], .counted,
        .appended [0], .drained [⟨16, 0⟩]] := by
  obtain ⟨j, answers, hjournal, hanswers, -⟩ := serveAll_refines 1 2
    [.record 16 5 0, .record 20 6 (-1), .recent 1, .record 24 4294967295 0, .drain, .record 16 0 7,
      .recent 9, .drain] (by decide)
  have hjournal : (EchoLoad.serveAll (Journal.serve 2) .new _).1 = answers :=
    congrArg Prod.fst hjournal
  rw [hanswers, ← hjournal]
  decide

end ClientStats

end EchoLoad
