import EchoLoad.Stats.Report
import Mathlib.Data.List.DropRight

/-!
# Reports divide what was counted

A report tells what happened since the report before it. It is made from totals alone, by taking from
each the total that was remembered last, so that whether all of it is told, and nothing twice, depends on
what is remembered and when.

> `Watch.reports_partition`: the numbers that reports give for a server port add up to the requests that
> it served between the first report and the last, whatever is counted meanwhile.

The sums over workers and over ports are machine words like the counters, and while none of them goes round
they are what was counted (`Watch.Unwrapped.perServer_eq`). The invariant is that what was reported and what is
still to be told (`Watch.pending`) are together what
was served: counting adds to the one, a report moves all of it to the other (`Watch.Behind.accounts`). A
report without a part for the servers moves nothing, and there was nothing to move, since no total is
smaller than the one that was remembered.
-/

namespace EchoLoad

/-! ## Counts by port -/

theorem total_append (counts more : List Nat) : total (counts ++ more) = total counts + total more := by
  induction counts with
  | nil => exact (Nat.zero_add _).symm
  | cons n counts ih =>
    show n + total (counts ++ more) = n + total counts + total more
    rw [ih, Nat.add_assoc]

theorem total_eq_zero_iff (counts : List Nat) :
    total counts = 0 ↔ ∀ port, counts.getD port 0 = 0 := by
  induction counts with
  | nil => exact ⟨fun _ _ => rfl, fun _ => rfl⟩
  | cons n counts ih =>
    have hcons : total (n :: counts) = n + total counts := rfl
    rw [hcons, Nat.add_eq_zero_iff, ih]
    constructor
    · rintro ⟨hn, hrest⟩ port
      cases port with
      | zero => exact hn
      | succ port => exact hrest port
    · intro h
      exact ⟨h 0, fun port => h (port + 1)⟩

theorem getD_growth : ∀ (now before : List Nat) (port : Nat),
    (growth now before).getD port 0 = now.getD port 0 - before.getD port 0
  | [], _, _ => (Nat.zero_sub _).symm
  | _ :: _, [], 0 => rfl
  | _ :: rest, [], port + 1 => getD_growth rest [] port
  | _ :: _, _ :: _, 0 => rfl
  | _ :: rest, _ :: earlier, port + 1 => getD_growth rest earlier port

/-- Where no count has shrunk, the totals differ by what the ports differ by. -/
theorem total_growth :
    ∀ {now before : List Nat}, (∀ port, before.getD port 0 ≤ now.getD port 0) →
      total now = total before + total (growth now before)
  | [], before, h => by
    have hnone : total before = 0 :=
      (total_eq_zero_iff before).mpr fun port => Nat.le_zero.mp (h port)
    rw [hnone]
    rfl
  | n :: now, [], _ => by
    have hrest : total now = total [] + total (growth now []) := total_growth fun _ => Nat.zero_le _
    show n + total now = total [] + (n + total (growth now []))
    rw [hrest]
    omega
  | n :: now, m :: before, h => by
    have hfirst : m ≤ n := h 0
    have hrest : total now = total before + total (growth now before) :=
      total_growth fun port => h (port + 1)
    show n + total now = m + total before + (n - m + total (growth now before))
    omega

/-- One entry is changed, by which it may count one more. -/
theorem getD_map_modify {α : Type} {l : List α} {f : α → Nat} {g : α → α} {p : Nat} {counts : Bool}
    (hentry : ∀ a, l[p]? = some a → f (g a) = f a + if counts then 1 else 0)
    (hnone : l[p]? = none → counts = false) (port : Nat) :
    ((l.modify p g).map f).getD port 0 =
      (l.map f).getD port 0 + if p = port && counts then 1 else 0 := by
  rw [List.getD_eq_getElem?_getD, List.getD_eq_getElem?_getD, List.getElem?_map, List.getElem?_map,
    List.getElem?_modify]
  by_cases hport : p = port
  · subst hport
    cases hp : l[p]? with
    | none =>
      rw [hnone hp]
      simp
    | some a =>
      simp only [decide_true, Bool.true_and]
      exact hentry a hp
  · simp [hport]

theorem total_map_modify {α : Type} {f : α → Nat} {g : α → α} {d : Nat} :
    ∀ {l : List α} {p : Nat} {a : α}, l[p]? = some a → f (g a) = f a + d →
      total ((l.modify p g).map f) = total (l.map f) + d
  | b :: l, 0, a, ha, hd => by
    cases ha
    show f (g b) + total (l.map f) = f b + total (l.map f) + d
    omega
  | b :: l, p + 1, a, ha, hd => by
    have hrest : total ((l.modify p g).map f) = total (l.map f) + d := total_map_modify ha hd
    show f b + total ((l.modify p g).map f) = f b + total (l.map f) + d
    omega

theorem total_map_modify_le {α : Type} {f : α → Nat} {g : α → α} {d : Nat} (h : ∀ a, f (g a) ≤ f a + d) :
    ∀ (l : List α) (p : Nat), total ((l.modify p g).map f) ≤ total (l.map f) + d
  | [], p => by
    rw [List.modify_nil]
    exact Nat.zero_le _
  | b :: l, 0 => by
    have hfirst := h b
    show f (g b) + total (l.map f) ≤ f b + total (l.map f) + d
    omega
  | b :: l, p + 1 => by
    have hrest := total_map_modify_le h l p
    show f b + total ((l.modify p g).map f) ≤ f b + total (l.map f) + d
    omega

theorem le_total_of_mem {n : Nat} : ∀ {counts : List Nat}, n ∈ counts → n ≤ total counts
  | m :: counts, h => by
    show n ≤ m + total counts
    rcases List.mem_cons.mp h with rfl | h
    · exact Nat.le_add_right _ _
    · exact Nat.le_trans (le_total_of_mem h) (Nat.le_add_left _ _)

theorem total_map_le {α : Type} {f g : α → Nat} (h : ∀ a, f a ≤ g a) :
    ∀ l : List α, total (l.map f) ≤ total (l.map g)
  | [] => Nat.le_refl _
  | a :: l => Nat.add_le_add (h a) (total_map_le h l)

theorem map_modify_of_eq {α β : Type} {f : α → β} {g : α → α} (h : ∀ a, f (g a) = f a) (l : List α)
    (p : Nat) : (l.modify p g).map f = l.map f := by
  apply List.ext_getElem?
  intro port
  rw [List.getElem?_map, List.getElem?_map, List.getElem?_modify]
  cases l[port]? with
  | none => rfl
  | some a =>
    by_cases hport : p = port
    · simp [hport, h]
    · simp [hport]

/-! ## What is counted, and reports on it -/

/-- What a client port does that is counted. -/
inductive ClientActivity
  /-- a request goes to a server -/
  | issued (server : Nat)
  | answered (length rtt : UInt32) (serverId : Int32)
  | lagged (ticks : Nat)
  /-- the samples are taken -/
  | drained
deriving DecidableEq

namespace ClientActivity

/-- The counters after it. A request to a server that the port does not have is not counted. -/
def apply : ClientActivity → ClientStats → ClientStats
  | issued server, s => (s.recordIssue? server).getD s
  | answered length rtt serverId, s => s.record length rtt serverId
  | lagged ticks, s => s.addLag ticks
  | drained, s => s.drainSamples.2

/-- Whether a port with so many servers counts it as a request. -/
def isRequest (servers : Nat) : ClientActivity → Bool
  | issued server => server < servers
  | _ => false

def isResponse : ClientActivity → Bool
  | answered .. => true
  | _ => false

theorem apply_issued (server : Nat) (s : ClientStats) :
    (issued server).apply s = s ∧ ¬ server < s.issuedTo.size ∨
      ∃ hs : server < s.issuedTo.size, (issued server).apply s =
        { s with
          issuedTo := s.issuedTo.set server (s.issuedTo[server] + 1)
          requests := s.requests + 1 } := by
  have happly : (issued server).apply s = (s.recordIssue? server).getD s := rfl
  rw [happly, ClientStats.recordIssue?]
  by_cases hs : server < s.issuedTo.size
  · right
    rw [dif_pos hs]
    exact ⟨hs, rfl⟩
  · left
    rw [dif_neg hs]
    exact ⟨rfl, hs⟩

theorem size_issuedTo_apply (did : ClientActivity) (s : ClientStats) :
    (did.apply s).issuedTo.size = s.issuedTo.size := by
  cases did with
  | issued server =>
    rcases apply_issued server s with ⟨hsame, -⟩ | ⟨hs, hcounted⟩
    · rw [hsame]
    · rw [hcounted]
      exact Array.size_set hs
  | _ => rfl

theorem requests_apply (did : ClientActivity) (s : ClientStats) :
    (did.apply s).requests = s.requests + if did.isRequest s.issuedTo.size then 1 else 0 := by
  cases did with
  | issued server =>
    rcases apply_issued server s with ⟨hsame, hs⟩ | ⟨hs, hcounted⟩
    · rw [hsame, isRequest, if_neg (by simpa using hs)]
      rfl
    · rw [hcounted, isRequest, if_pos (by simpa using hs)]
  | _ => rfl

theorem responses_apply (did : ClientActivity) (s : ClientStats) :
    (did.apply s).responses = s.responses + if did.isResponse then 1 else 0 := by
  cases did with
  | issued server =>
    rcases apply_issued server s with ⟨hsame, -⟩ | ⟨hs, hcounted⟩
    · rw [hsame]
      rfl
    · rw [hcounted]
      rfl
  | _ => rfl

end ClientActivity

/-- What happens to ports that are watched. -/
inductive Activity
  /-- a report is made at a tick -/
  | reported (now : Nat)
  /-- the reporter forgets what it knows -/
  | reset
  /-- a worker of a server port serves a request of so many bytes -/
  | served (port worker length : Nat)
  | client (port : Nat) (did : ClientActivity)
deriving DecidableEq

namespace Activity

def isReport : Activity → Bool
  | reported _ => true
  | _ => false

/-- Whether it is a request that a worker serves. -/
def isServed : Activity → Bool
  | served .. => true
  | _ => false

/-- Whether it is a request that goes to a server. -/
def isIssued : Activity → Bool
  | client _ (.issued _) => true
  | _ => false

/-- Whether it is a response. -/
def isAnswered : Activity → Bool
  | client _ did => did.isResponse
  | _ => false

end Activity

/-- The counters of some ports and the reporter over them. -/
structure Watch where
  clients : List ClientStats
  /-- the workers of each server port -/
  servers : List (List ServerStats)
  reporter : Reporter

namespace Watch

/-- Nothing was reported yet; the counters may stand anywhere. -/
def start (cdfSamples : Nat) (clients : List ClientStats) (servers : List (List ServerStats)) : Watch :=
  ⟨clients, servers, .new cdfSamples⟩

/-- The report that is made at a tick. -/
def report (w : Watch) (now : Nat) : Option Report × Reporter :=
  w.reporter.report now w.clients w.servers

def step (w : Watch) : Activity → Watch
  | .reported now => { w with reporter := (w.report now).2 }
  | .reset => { w with reporter := w.reporter.reset }
  | .served port worker length =>
    { w with servers := w.servers.modify port (·.modify worker (·.record length)) }
  | .client port did => { w with clients := w.clients.modify port did.apply }

def run (w : Watch) (events : List Activity) : Watch := events.foldl step w

/-- What comes of a report. -/
def report? (w : Watch) : Activity → Option (Option Report)
  | .reported now => some (w.report now).1
  | _ => none

/-- What came of the reports, in order. -/
def reports (w : Watch) : List Activity → List (Option Report)
  | [] => []
  | a :: events => (w.report? a).toList ++ (w.step a).reports events

/-- The totals as they stand. -/
def totals (w : Watch) : Totals := .of w.clients w.servers

/-- What the workers of each server port counted together. -/
def servedCounts (w : Watch) : List Nat := w.servers.map fun workers => total (workers.map (·.requests))

/-- Whether a server port counts it. -/
def serves (w : Watch) (port : Nat) : Activity → Bool
  | .served p k _ => p = port && k < (w.servers.map List.length).getD p 0
  | _ => false

/-- Whether a client port counts it as a request. -/
def issues (w : Watch) (port : Nat) : Activity → Bool
  | .client p did => p = port && did.isRequest ((w.clients.map (·.issuedTo.size)).getD p 0)
  | _ => false

/-- Whether a client port counts it as a response. -/
def answers (w : Watch) (port : Nat) : Activity → Bool
  | .client p did => p = port && (did.isResponse && p < w.clients.length)
  | _ => false

/-- No counter goes round, and no sum of counters over the workers of a port and over all ports. -/
structure Unwrapped (w : Watch) (events : List Activity) : Prop where
  served : total w.servedCounts + events.countP (·.isServed) < UInt64.size
  issued : total (w.clients.map (·.requests)) + events.countP (·.isIssued) < UInt64.size
  answered : total (w.clients.map (·.responses)) + events.countP (·.isAnswered) < UInt64.size

variable {w : Watch} {a : Activity} {events later : List Activity}

/-! ## One thing that happens -/

theorem servers_lengths_step (w : Watch) (a : Activity) :
    (w.step a).servers.map List.length = w.servers.map List.length := by
  cases a with
  | served port worker length => exact map_modify_of_eq (fun workers => List.length_modify ..) _ _
  | _ => rfl

theorem clients_sizes_step (w : Watch) (a : Activity) :
    (w.step a).clients.map (·.issuedTo.size) = w.clients.map (·.issuedTo.size) := by
  cases a with
  | client port did => exact map_modify_of_eq did.size_issuedTo_apply _ _
  | _ => rfl

theorem length_clients_step (w : Watch) (a : Activity) :
    (w.step a).clients.length = w.clients.length := by
  cases a with
  | client port did => exact List.length_modify ..
  | _ => rfl

/-- The ports that there are stay the same, and so does what they count. -/
theorem serves_step (w : Watch) (a : Activity) : (w.step a).serves = w.serves := by
  funext port b
  unfold serves
  rw [servers_lengths_step]

theorem issues_step (w : Watch) (a : Activity) : (w.step a).issues = w.issues := by
  funext port b
  unfold issues
  rw [clients_sizes_step]

theorem answers_step (w : Watch) (a : Activity) : (w.step a).answers = w.answers := by
  funext port b
  unfold answers
  rw [length_clients_step]

/-- No sum grows by more than what happens. -/
theorem servedCounts_step_le (w : Watch) (a : Activity) :
    total (w.step a).servedCounts ≤ total w.servedCounts + if a.isServed then 1 else 0 := by
  cases a with
  | served port worker length =>
    exact total_map_modify_le
      (fun workers => total_map_modify_le (fun s => s.requests_record_le length) workers worker) w.servers port
  | _ => exact Nat.le_refl _

theorem requests_step_le (w : Watch) (a : Activity) :
    total ((w.step a).clients.map (·.requests)) ≤
      total (w.clients.map (·.requests)) + if a.isIssued then 1 else 0 := by
  cases a with
  | client port did =>
    refine total_map_modify_le (fun s => ?_) w.clients port
    rw [did.requests_apply s]
    cases did with
    | issued server =>
      show _ ≤ s.requests + 1
      split <;> omega
    | _ => exact Nat.le_refl _
  | _ => exact Nat.le_refl _

theorem responses_step_le (w : Watch) (a : Activity) :
    total ((w.step a).clients.map (·.responses)) ≤
      total (w.clients.map (·.responses)) + if a.isAnswered then 1 else 0 := by
  cases a with
  | client port did =>
    exact total_map_modify_le (fun s => Nat.le_of_eq (did.responses_apply s)) w.clients port
  | _ => exact Nat.le_refl _

theorem Unwrapped.step (h : w.Unwrapped (a :: events)) : (w.step a).Unwrapped events := by
  obtain ⟨hserved, hissued, hanswered⟩ := h
  rw [List.countP_cons] at hserved hissued hanswered
  have hserved' := w.servedCounts_step_le a
  have hissued' := w.requests_step_le a
  have hanswered' := w.responses_step_le a
  exact ⟨by omega, by omega, by omega⟩

/-- What a worker counted is no more than all of them did. -/
theorem le_servedCounts {workers : List ServerStats} (hworkers : workers ∈ w.servers) :
    total (workers.map (·.requests)) ≤ total w.servedCounts :=
  le_total_of_mem (List.mem_map_of_mem hworkers)

/-- The totals are what was counted. -/
theorem Unwrapped.perServer_eq (h : w.Unwrapped events) : w.totals.perServer = w.servedCounts := by
  refine List.map_congr_left fun workers hworkers => wordTotal_of_lt ?_
  have hle := le_servedCounts hworkers
  have hserved := h.served
  omega

theorem Unwrapped.serverRpcs_eq (h : w.Unwrapped events) :
    w.totals.serverRpcs = total w.totals.perServer := by
  have hserved := h.served
  show wordTotal w.totals.perServer = _
  rw [h.perServer_eq]
  exact wordTotal_of_lt (by omega)

theorem Unwrapped.clientRpcs_eq (h : w.Unwrapped events) :
    w.totals.clientRpcs = total (w.clients.map (·.responses)) := by
  have hanswered := h.answered
  exact wordTotal_of_lt (by omega)

/-- So are the requests that are not answered. -/
theorem Unwrapped.outstanding_eq (h : w.Unwrapped events) :
    wordTotal (w.clients.map (·.outstanding)) = total (w.clients.map (·.outstanding)) := by
  have hle : total (w.clients.map (·.outstanding)) ≤ total (w.clients.map (·.requests)) :=
    total_map_le (f := ClientStats.outstanding) (fun s => Nat.sub_le s.requests s.responses) w.clients
  have hissued := h.issued
  exact wordTotal_of_lt (by omega)

theorem requests_record {s : ServerStats} (h : s.requests + 1 < UInt64.size) (length : Nat) :
    (s.record length).requests = s.requests + 1 := by
  have hone : (1 : UInt64).toNat = 1 := rfl
  show (s.served + 1).toNat = s.served.toNat + 1
  rw [UInt64.toNat_add, hone]
  exact Nat.mod_eq_of_lt h

/-- A server port counts what it serves. -/
theorem perServer_step (h : w.Unwrapped (a :: events)) (port : Nat) :
    (w.step a).totals.perServer.getD port 0 =
      w.totals.perServer.getD port 0 + if w.serves port a then 1 else 0 := by
  rw [h.perServer_eq, h.step.perServer_eq]
  cases a with
  | served p k length =>
    refine getD_map_modify ?_ ?_ port
    · intro workers hworkers
      have hlength : (w.servers.map List.length).getD p 0 = workers.length := by
        simp [List.getD_eq_getElem?_getD, hworkers]
      rw [hlength]
      by_cases hk : k < workers.length
      · have hworker : workers[k]? = some workers[k] := List.getElem?_eq_getElem hk
        have hport := le_servedCounts (List.mem_of_getElem? hworkers)
        have hone : workers[k].requests ≤ total (workers.map (·.requests)) :=
          le_total_of_mem (List.mem_map_of_mem (List.getElem_mem hk))
        have hserved := h.served
        rw [List.countP_cons_of_pos rfl] at hserved
        rw [if_pos (decide_eq_true hk)]
        exact total_map_modify hworker (requests_record (by omega) length)
      · rw [if_neg (by simpa using hk), List.modify_eq_self (by omega)]
        rfl
    · intro hmissing
      simp [List.getD_eq_getElem?_getD, hmissing]
  | _ => rfl

/-- A client port counts the requests that it issues, -/
theorem requests_step (w : Watch) (a : Activity) (port : Nat) :
    ((w.step a).clients.map (·.requests)).getD port 0 =
      (w.clients.map (·.requests)).getD port 0 + if w.issues port a then 1 else 0 := by
  cases a with
  | client p did =>
    refine getD_map_modify ?_ ?_ port
    · intro s hs
      have hsize : (w.clients.map (·.issuedTo.size)).getD p 0 = s.issuedTo.size := by
        simp [List.getD_eq_getElem?_getD, hs]
      rw [hsize]
      exact did.requests_apply s
    · intro hmissing
      have hsize : (w.clients.map (·.issuedTo.size)).getD p 0 = 0 := by
        simp [List.getD_eq_getElem?_getD, hmissing]
      rw [hsize]
      cases did <;> rfl
  | _ => rfl

/-- and the responses that it gets. -/
theorem responses_step (w : Watch) (a : Activity) (port : Nat) :
    ((w.step a).clients.map (·.responses)).getD port 0 =
      (w.clients.map (·.responses)).getD port 0 + if w.answers port a then 1 else 0 := by
  cases a with
  | client p did =>
    refine getD_map_modify ?_ ?_ port
    · intro s hs
      have hp : p < w.clients.length := (List.getElem?_eq_some_iff.mp hs).1
      rw [decide_eq_true hp, Bool.and_true]
      exact did.responses_apply s
    · intro hmissing
      have hp : ¬ p < w.clients.length := Nat.not_lt.mpr (List.getElem?_eq_none_iff.mp hmissing)
      rw [decide_eq_false hp, Bool.and_false]
  | _ => rfl

/-! ## All that happens -/

/-- What nothing that happens changes stays the same. -/
theorem run_of_step {β : Type} {f : Watch → β} (hstep : ∀ w a, f (w.step a) = f w) (w : Watch)
    (events : List Activity) : f (w.run events) = f w := by
  induction events generalizing w with
  | nil => rfl
  | cons a events ih => exact (ih (w.step a)).trans (hstep w a)

/-- What counts each thing of a kind counts all of them. -/
theorem count_run (count : Watch → Nat) (counts : Watch → Activity → Bool)
    (hstep : ∀ w a, count (w.step a) = count w + if counts w a then 1 else 0)
    (hkept : ∀ w a, counts (w.step a) = counts w) (w : Watch) (events : List Activity) :
    count (w.run events) = count w + events.countP (counts w) := by
  induction events generalizing w with
  | nil => rfl
  | cons a events ih =>
    show count ((w.step a).run events) = _
    rw [ih, hstep, hkept, List.countP_cons]
    omega

theorem requests_run (w : Watch) (events : List Activity) (port : Nat) :
    ((w.run events).clients.map (·.requests)).getD port 0 =
      (w.clients.map (·.requests)).getD port 0 + events.countP (w.issues port) :=
  count_run (fun w => (w.clients.map (·.requests)).getD port 0) (fun w => w.issues port)
    (fun w a => w.requests_step a port) (fun w a => congrFun (w.issues_step a) port) w events

theorem responses_run (w : Watch) (events : List Activity) (port : Nat) :
    ((w.run events).clients.map (·.responses)).getD port 0 =
      (w.clients.map (·.responses)).getD port 0 + events.countP (w.answers port) :=
  count_run (fun w => (w.clients.map (·.responses)).getD port 0) (fun w => w.answers port)
    (fun w a => w.responses_step a port) (fun w a => congrFun (w.answers_step a) port) w events

theorem Unwrapped.run (h : w.Unwrapped (events ++ later)) : (w.run events).Unwrapped later := by
  induction events generalizing w with
  | nil => exact h
  | cons a events ih => exact ih h.step

theorem Unwrapped.run_all (h : w.Unwrapped events) : (w.run events).Unwrapped [] :=
  Unwrapped.run (by rwa [List.append_nil])

/-- Counters that start at zero take as many events as there are numbers. -/
theorem unwrapped_of_zero (hserved : total w.servedCounts = 0)
    (hissued : total (w.clients.map (·.requests)) = 0)
    (hanswered : total (w.clients.map (·.responses)) = 0) (hfew : events.length < UInt64.size) :
    w.Unwrapped events := by
  have hle (p : Activity → Bool) : events.countP p ≤ events.length := List.countP_le_length
  refine ⟨?_, ?_, ?_⟩
  · rw [hserved, Nat.zero_add]
    exact Nat.lt_of_le_of_lt (hle _) hfew
  · rw [hissued, Nat.zero_add]
    exact Nat.lt_of_le_of_lt (hle _) hfew
  · rw [hanswered, Nat.zero_add]
    exact Nat.lt_of_le_of_lt (hle _) hfew

/-- Without a report, nothing is remembered or forgotten. -/
theorem reporter_run (hquiet : ∀ a ∈ events, a.isReport = false) (hreset : .reset ∉ events) :
    (w.run events).reporter = w.reporter := by
  induction events generalizing w with
  | nil => rfl
  | cons a events ih =>
    obtain ⟨ha, hquiet⟩ := List.forall_mem_cons.mp hquiet
    obtain ⟨hne, hreset⟩ := not_or.mp (mt List.mem_cons.mpr hreset)
    have hkept : (w.step a).reporter = w.reporter := by
      cases a with
      | reported now => cases ha
      | reset => exact absurd rfl hne
      | _ => rfl
    exact (ih hquiet hreset).trans hkept

theorem reports_concat (w : Watch) (events : List Activity) (a : Activity) :
    w.reports (events ++ [a]) = w.reports events ++ ((w.run events).report? a).toList := by
  induction events generalizing w with
  | nil => exact List.append_nil _
  | cons b events ih =>
    show (w.report? b).toList ++ (w.step b).reports (events ++ [a]) = _
    rw [ih, ← List.append_assoc]
    rfl

theorem reports_quiet (hquiet : ∀ a ∈ events, a.isReport = false) : w.reports events = [] := by
  induction events generalizing w with
  | nil => rfl
  | cons a events ih =>
    obtain ⟨ha, hquiet⟩ := List.forall_mem_cons.mp hquiet
    have hnone : w.report? a = none := by
      cases a with
      | reported now => cases ha
      | _ => rfl
    show (w.report? a).toList ++ (w.step a).reports events = []
    rw [hnone, ih hquiet]
    rfl

/-- There is a baseline if there was a report since the last reset. -/
theorem lastTime_run (cdfSamples : Nat) (clients : List ClientStats)
    (servers : List (List ServerStats)) (events : List Activity) :
    ((start cdfSamples clients servers).run events).reporter.lastTime = none ↔
      ∀ a ∈ events.rtakeWhile (· ≠ .reset), a.isReport = false := by
  induction events using List.reverseRecOn with
  | nil => simp [run, start, Reporter.new]
  | append_singleton events a ih =>
    have hrun : (start cdfSamples clients servers).run (events ++ [a]) =
        ((start cdfSamples clients servers).run events).step a := List.foldl_concat ..
    rw [hrun, List.rtakeWhile_concat]
    cases a with
    | reset => exact ⟨fun _ b hb => absurd hb (by simp), fun _ => rfl⟩
    | reported now =>
      constructor
      · intro h
        cases h
      · intro h
        have hreport := h (.reported now) (by simp)
        cases hreport
    | _ =>
      rw [if_pos (by simp), List.forall_mem_append, ← ih]
      exact ⟨fun h => ⟨h, by simp [Activity.isReport]⟩, fun h => h.1⟩

/-! ## What is still to be told -/

/-- What a report gives for a server port; a report without a part for the servers gives nothing. -/
def servedOn (port : Nat) (made : Option Report) : Nat :=
  (made.bind (·.server)).elim 0 fun part => part.perServer.getD port 0

/-- The requests of a server port that no report has told. -/
def pending (w : Watch) (port : Nat) : Nat :=
  w.totals.perServer.getD port 0 - w.reporter.last.perServer.getD port 0

/-- There is a baseline, and the counters have stood where it says. -/
structure Behind (w : Watch) : Prop where
  baseline : w.reporter.lastTime ≠ none
  serverRpcs_eq : w.reporter.last.serverRpcs = total w.reporter.last.perServer
  perServer_le : ∀ port, w.reporter.last.perServer.getD port 0 ≤ w.totals.perServer.getD port 0

theorem behind_reported (hw : w.Unwrapped events) (now : Nat) : (w.step (.reported now)).Behind :=
  ⟨nofun, hw.serverRpcs_eq, fun _ => Nat.le_refl _⟩

theorem pending_reported (w : Watch) (now port : Nat) : (w.step (.reported now)).pending port = 0 :=
  Nat.sub_self _

/-- A report tells all that is pending. It leaves the servers out if nothing is. -/
theorem Behind.report_eq (h : w.Behind) (hw : w.Unwrapped events) (now : Nat) :
    ∃ report, (w.report now).1 = some report ∧
      (report.server.isSome = true ↔ ∃ port, w.pending port ≠ 0) ∧
      ∀ port, servedOn port (some report) = w.pending port := by
  obtain ⟨previous, hprevious⟩ := Option.ne_none_iff_exists'.mp h.baseline
  let elapsed := Reporter.larger (ticksToSeconds (now - previous)) 1e-9
  have hmade : (w.report now).1 =
      some
        { server := Reporter.serverReport? w.reporter.last w.totals elapsed
          client := w.reporter.clientReport? w.clients w.totals elapsed
          outstanding := wordTotal (w.clients.map (·.outstanding)) } := by
    show w.reporter.lastTime.map _ = _
    rw [hprevious]
    rfl
  refine ⟨_, hmade, ?_⟩
  have hrpcs : w.totals.serverRpcs - w.reporter.last.serverRpcs =
      total (growth w.totals.perServer w.reporter.last.perServer) := by
    have hgrowth := total_growth h.perServer_le
    rw [h.serverRpcs_eq, hw.serverRpcs_eq, hgrowth, Nat.add_sub_cancel_left]
  have hnothing := total_eq_zero_iff (growth w.totals.perServer w.reporter.last.perServer)
  simp only [getD_growth] at hnothing
  show ((Reporter.serverReport? w.reporter.last w.totals elapsed).isSome = true ↔ _) ∧
    ∀ port, (Reporter.serverReport? w.reporter.last w.totals elapsed).elim 0 _ = _
  unfold Reporter.serverReport?
  dsimp only
  rw [hrpcs]
  split
  next hzero =>
    have hall := hnothing.mp hzero
    refine ⟨⟨nofun, ?_⟩, fun port => (hall port).symm⟩
    rintro ⟨port, hport⟩
    exact absurd (hall port) hport
  next hsome =>
    refine ⟨⟨fun _ => ?_, fun _ => rfl⟩, fun port => getD_growth ..⟩
    exact Classical.not_forall.mp (mt hnothing.mpr hsome)

/-- Where something is counted, there is as much more to tell. -/
theorem Behind.counted (h : w.Behind) (hw : w.Unwrapped (a :: events))
    (hkept : (w.step a).reporter = w.reporter) :
    (w.step a).Behind ∧
      ∀ port, (w.step a).pending port = w.pending port + if w.serves port a then 1 else 0 := by
  have hgrown (port : Nat) : w.totals.perServer.getD port 0 ≤ (w.step a).totals.perServer.getD port 0 := by
    rw [perServer_step hw]
    exact Nat.le_add_right ..
  constructor
  · refine ⟨?_, ?_, fun port => ?_⟩
    · rw [hkept]
      exact h.baseline
    · rw [hkept]
      exact h.serverRpcs_eq
    · rw [hkept]
      exact Nat.le_trans (h.perServer_le port) (hgrown port)
  · intro port
    have hle := h.perServer_le port
    rw [pending, pending, hkept, perServer_step hw]
    omega

/-- What is told in a step and what is still to be told after it were pending before or are new. -/
theorem Behind.step (h : w.Behind) (hw : w.Unwrapped (a :: events)) (ha : .reset ≠ a) :
    (w.step a).Behind ∧
      ∀ port, total ((w.report? a).toList.map (servedOn port)) + (w.step a).pending port =
        w.pending port + if w.serves port a then 1 else 0 := by
  cases a with
  | reported now =>
    obtain ⟨report, hmade, -, htold⟩ := h.report_eq hw now
    refine ⟨behind_reported hw now, fun port => ?_⟩
    have hreport : w.report? (.reported now) = some (some report) := congrArg some hmade
    rw [hreport, pending_reported]
    exact htold port
  | reset => exact absurd rfl ha
  | served p k length =>
    obtain ⟨hbehind, hpending⟩ := h.counted hw rfl
    exact ⟨hbehind, fun port => (Nat.zero_add _).trans (hpending port)⟩
  | client p did =>
    obtain ⟨hbehind, hpending⟩ := h.counted hw rfl
    exact ⟨hbehind, fun port => (Nat.zero_add _).trans (hpending port)⟩

/-- What was told and what is still to be told is together what was served. -/
theorem Behind.accounts (events : List Activity) :
    ∀ {w : Watch}, w.Behind → w.Unwrapped events → .reset ∉ events →
      (w.run events).Behind ∧
        ∀ port, total ((w.reports events).map (servedOn port)) + (w.run events).pending port =
          w.pending port + events.countP (w.serves port) := by
  induction events with
  | nil => exact fun h _ _ => ⟨h, fun port => Nat.add_comm ..⟩
  | cons a events ih =>
    intro w h hw hreset
    obtain ⟨ha, hreset⟩ := not_or.mp (mt List.mem_cons.mpr hreset)
    obtain ⟨hbehind, hstep⟩ := h.step hw ha
    obtain ⟨hend, hrest⟩ := ih hbehind hw.step hreset
    refine ⟨hend, fun port => ?_⟩
    have hnow := hstep port
    have hlater := hrest port
    rw [serves_step] at hlater
    show total ((_ ++ _ : List (Option Report)).map _) + ((w.step a).run events).pending port = _
    rw [List.map_append, total_append, List.countP_cons]
    omega

theorem countP_ne_zero_iff {p : Nat → Activity → Bool} :
    (∃ port, events.countP (p port) ≠ 0) ↔ ∃ a ∈ events, ∃ port, p port a = true := by
  constructor
  · rintro ⟨port, hport⟩
    obtain ⟨a, ha, hp⟩ := List.countP_pos_iff.mp (Nat.pos_of_ne_zero hport)
    exact ⟨a, ha, port, hp⟩
  · rintro ⟨a, ha, port, hp⟩
    exact ⟨port, Nat.ne_of_gt (List.countP_pos_iff.mpr ⟨a, ha, hp⟩)⟩

/-- A report has a part for the clients if a response came since what is remembered. -/
theorem client_isSome {v : Watch} {since : List Activity} (hv : v.Unwrapped since)
    (hlast : (v.run since).reporter.last = v.totals) {now : Nat} {report : Report}
    (hmade : ((v.run since).report now).1 = some report) :
    report.client.isSome = true ↔ ∃ a ∈ since, ∃ port, v.answers port a = true := by
  obtain ⟨previous, -, rfl⟩ := Option.map_eq_some_iff.mp hmade
  have hgrown (port : Nat) := responses_run v since port
  have hrpcs : (v.run since).totals.clientRpcs - (v.run since).reporter.last.clientRpcs =
      total (growth ((v.run since).clients.map (·.responses)) (v.clients.map (·.responses))) := by
    have hgrowth := total_growth (fun port => (hgrown port).symm ▸ Nat.le_add_right _ _)
    rw [hlast, hv.run_all.clientRpcs_eq, hv.clientRpcs_eq, hgrowth, Nat.add_sub_cancel_left]
  have hnothing := total_eq_zero_iff
    (growth ((v.run since).clients.map (·.responses)) (v.clients.map (·.responses)))
  simp only [getD_growth, hgrown, Nat.add_sub_cancel_left] at hnothing
  rw [← countP_ne_zero_iff (p := v.answers)]
  show (Reporter.clientReport? _ _ (v.run since).totals _).isSome = true ↔ _
  unfold Reporter.clientReport?
  dsimp only
  rw [hrpcs]
  by_cases hzero :
      total (growth ((v.run since).clients.map (·.responses)) (v.clients.map (·.responses))) = 0
  · rw [if_pos (by simp [hzero])]
    refine ⟨nofun, ?_⟩
    rintro ⟨port, hport⟩
    exact absurd (hnothing.mp hzero port) hport
  · have hports : (v.run since).clients.isEmpty = false := by
      cases hclients : (v.run since).clients with
      | nil =>
        rw [hclients] at hzero
        exact absurd rfl hzero
      | cons s ports => rfl
    rw [if_neg (by simp [hports, hzero])]
    exact ⟨fun _ => Classical.not_forall.mp (mt hnothing.mpr hzero), fun _ => rfl⟩

/-- The requests that are not answered, by what was counted. -/
theorem outstanding_run (w : Watch) (events : List Activity) :
    (w.run events).clients.map (·.outstanding) =
      w.clients.mapIdx fun port s =>
        s.requests + events.countP (w.issues port) -
          (s.responses + events.countP (w.answers port)) := by
  have hlength := run_of_step (f := fun w => w.clients.length) length_clients_step w events
  apply List.ext_getElem
  · rw [List.length_map, List.length_mapIdx, hlength]
  · intro port hport hbefore
    rw [List.length_map] at hport
    rw [List.length_mapIdx] at hbefore
    have hrequests := w.requests_run events port
    have hresponses := w.responses_run events port
    simp only [List.getD_eq_getElem?_getD, List.getElem?_map, List.getElem?_eq_getElem hport,
      List.getElem?_eq_getElem hbefore, Option.map_some, Option.getD_some] at hrequests hresponses
    rw [List.getElem_map, List.getElem_mapIdx, ClientStats.outstanding, hrequests, hresponses]

/-- **Reports divide what was counted.** Ports count from wherever their counters stand, reports are made
and the reporter is reset, in any order, and no sum of counters goes round. After all that, a report is
only a baseline if there was none since the last reset. Otherwise it tells how many requests of the client
ports are not answered. And take any report before it without a reset in between: what this one and those
between them give for a server port add up to the requests that the port served in between. If these two
follow each other, there is a part for the servers exactly if one of them served a request in between, and
a part for the clients exactly if one of them got a response. -/
theorem reports_partition (cdfSamples : Nat) (clients : List ClientStats)
    (servers : List (List ServerStats)) {events : List Activity}
    (hcounters : (start cdfSamples clients servers).Unwrapped events) (now : Nat) :
    let w := start cdfSamples clients servers
    let made := ((w.run events).report now).1
    (made = none ↔ ∀ a ∈ events.rtakeWhile (· ≠ .reset), a.isReport = false) ∧
    (∀ report, made = some report →
      report.outstanding = total (clients.mapIdx fun port s =>
        s.requests + events.countP (w.issues port) -
          (s.responses + events.countP (w.answers port)))) ∧
    ∀ before baseline since, events = before ++ .reported baseline :: since → .reset ∉ since →
      (∀ port,
        total ((((w.run before).step (.reported baseline)).reports
          (since ++ [.reported now])).map (servedOn port)) = since.countP (w.serves port)) ∧
      ((∀ a ∈ since, a.isReport = false) → ∃ report, made = some report ∧
        (report.server.isSome = true ↔ ∃ a ∈ since, ∃ port, w.serves port a = true) ∧
        (report.client.isSome = true ↔ ∃ a ∈ since, ∃ port, w.answers port a = true)) := by
  intro w made
  refine ⟨?_, ?_, ?_⟩
  · rw [← lastTime_run cdfSamples clients servers events]
    exact Option.map_eq_none_iff
  · intro report hmade
    obtain ⟨previous, -, rfl⟩ := Option.map_eq_some_iff.mp hmade
    exact hcounters.run_all.outstanding_eq.trans (congrArg total (w.outstanding_run events))
  · intro before baseline since hevents hreset
    subst hevents
    let v := (w.run before).step (.reported baseline)
    have hrun : w.run (before ++ .reported baseline :: since) = v.run since := List.foldl_append ..
    have hserves : v.serves = w.serves := (serves_step ..).trans (run_of_step serves_step w before)
    have hanswers : v.answers = w.answers := (answers_step ..).trans (run_of_step answers_step w before)
    have hbaseline : (w.run before).Unwrapped (.reported baseline :: since) := hcounters.run
    have hbehind : v.Behind := behind_reported hbaseline baseline
    have hcounters : v.Unwrapped since := hbaseline.step
    have hzero (port : Nat) : v.pending port = 0 := pending_reported ..
    obtain ⟨hend, haccounts⟩ := hbehind.accounts since hcounters hreset
    obtain ⟨report, hmade, hserver, htold⟩ := hend.report_eq hcounters.run_all now
    constructor
    · intro port
      have hreports : v.reports (since ++ [.reported now]) = v.reports since ++ [some report] := by
        rw [reports_concat, ← hmade]
        rfl
      have hsum := haccounts port
      rw [hzero, Nat.zero_add, hserves] at hsum
      rw [hreports, List.map_append, total_append, ← hsum, ← htold]
      rfl
    · intro hquiet
      have hkept : (v.run since).reporter = v.reporter := reporter_run hquiet hreset
      have hpending (port : Nat) : (v.run since).pending port = since.countP (w.serves port) := by
        have hsum := haccounts port
        rw [reports_quiet hquiet, hzero, Nat.zero_add, hserves] at hsum
        exact (Nat.zero_add _).symm.trans hsum
      refine ⟨report, ?_, ?_, ?_⟩
      · show ((w.run _).report now).1 = _
        rw [hrun]
        exact hmade
      · rw [hserver, ← countP_ne_zero_iff (p := w.serves)]
        simp only [hpending]
      · rw [← hanswers]
        exact client_isSome hcounters (by rw [hkept]; rfl) hmade

/-- Two ports with one worker each. -/
def twoServers : Watch := start 100 [.new 2 4] [[.new], [.new]]

/-- A request is served by the second port before the first report, and two by the first port after it,
with a report in between. So three reports are made after the first one. -/
def threeReports : List Activity :=
  [.served 1 0 20, .client 0 (.issued 1), .reported 10, .served 0 0 20, .reported 20, .reported 30,
   .served 0 0 20]

/-- The reports give two requests for the first port. -/
theorem reports_partition_two :
    total (((twoServers.run [.served 1 0 20, .client 0 (.issued 1), .reported 10]).reports
      [.served 0 0 20, .reported 20, .reported 30, .served 0 0 20, .reported 40]).map (servedOn 0)) = 2 ∧
    ∃ report, ((twoServers.run threeReports).report 40).1 = some report ∧
      report.outstanding = 1 ∧ report.server.isSome = true ∧ report.client.isSome = false := by
  have hcounters : twoServers.Unwrapped threeReports :=
    unwrapped_of_zero rfl rfl rfl (by decide)
  obtain ⟨-, houtstanding, hwindows⟩ :=
    reports_partition 100 [.new 2 4] [[.new], [.new]] hcounters 40
  obtain ⟨hsum, -⟩ := hwindows [.served 1 0 20, .client 0 (.issued 1)] 10
    [.served 0 0 20, .reported 20, .reported 30, .served 0 0 20] rfl (by decide)
  obtain ⟨-, hlast⟩ := hwindows
    [.served 1 0 20, .client 0 (.issued 1), .reported 10, .served 0 0 20, .reported 20] 30
    [.served 0 0 20] rfl (by decide)
  obtain ⟨report, hmade, hserver, hclient⟩ := hlast (by decide)
  refine ⟨hsum 0, report, hmade, houtstanding report hmade, ?_, ?_⟩
  · exact hserver.mpr ⟨_, List.mem_singleton_self _, 0, rfl⟩
  · refine Bool.eq_false_iff.mpr fun hpart => ?_
    obtain ⟨a, ha, port, hanswer⟩ := hclient.mp hpart
    obtain rfl := List.mem_singleton.mp ha
    cases hanswer

end Watch

end EchoLoad
