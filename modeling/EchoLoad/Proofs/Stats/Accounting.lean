import EchoLoad.Proofs.Stats.Reporting
import Mathlib.Algebra.GroupWithZero.Nat
import Mathlib.Data.List.Induction

/-!
# Totals and counts by server

A port counts requests and responses twice, in all and by server. The two differ by the responses that name
a server it does not have (`ClientActivity.isStray`), which count in all only. What is unanswered is then
known twice as well:

> `ClientStats.tally?_accounts`: the totals are the sums over the servers, but for stray responses; the list
> of incomplete servers has each server with more requests than responses, once and with the difference;
> and these differences come to no less than the requests outstanding in all.

They come to more where the port got more from one server than it sent there, or stray responses: then the
total takes an answer off that is missing elsewhere.
-/

namespace EchoLoad

/-! ## Sums of counters -/

theorem sum_set_succ :
    ∀ {counts : List Nat} {i : Nat} (h : i < counts.length),
      (counts.set i (counts[i] + 1)).sum = counts.sum + 1
  | n :: counts, 0, _ => by
    show (n + 1) + counts.sum = n + counts.sum + 1
    omega
  | n :: counts, i + 1, h => by
    have hi : i < counts.length := Nat.lt_of_succ_lt_succ h
    have hrest := sum_set_succ hi
    show n + (counts.set i (counts[i] + 1)).sum = n + counts.sum + 1
    omega

/-- What is missing from each of some counts, where the other may be larger, is no less than what is missing
from their sum. -/
theorem sum_le_sum_sub_add :
    ∀ {wanted got : List Nat}, wanted.length = got.length →
      wanted.sum ≤ ((wanted.zip got).map fun (n, m) => n - m).sum + got.sum
  | [], [], _ => Nat.le_refl 0
  | n :: wanted, m :: got, h => by
    have hrest := sum_le_sum_sub_add (Nat.succ.inj h)
    show n + wanted.sum ≤ (n - m) + ((wanted.zip got).map fun (n, m) => n - m).sum + (m + got.sum)
    omega

theorem sum_eq_sum_sub_add :
    ∀ {wanted got : List Nat}, wanted.length = got.length →
      (∀ (i n m : Nat), wanted[i]? = some n → got[i]? = some m → m ≤ n) →
        wanted.sum = ((wanted.zip got).map fun (n, m) => n - m).sum + got.sum
  | [], [], _, _ => rfl
  | n :: wanted, m :: got, h, hle => by
    have hfirst := hle 0 n m rfl rfl
    have hrest := sum_eq_sum_sub_add (Nat.succ.inj h) fun i => hle (i + 1)
    show n + wanted.sum = (n - m) + ((wanted.zip got).map fun (n, m) => n - m).sum + (m + got.sum)
    omega

/-- Leaving zeros out does not change a sum. -/
theorem sum_filter_pos : ∀ l : List (Nat × Nat),
    ((l.filter fun (n, _) => 0 < n).map Prod.fst).sum = (l.map Prod.fst).sum
  | [] => rfl
  | (0, _) :: l => by
    rw [List.map_cons, List.sum_cons, ← sum_filter_pos l, Nat.zero_add]
    rfl
  | (n + 1, _) :: l => by
    rw [List.map_cons, List.sum_cons, ← sum_filter_pos l]
    rfl

/-! ## The list of incomplete servers -/

namespace ClientStats

/-- The unanswered requests of each server. -/
def missing (s : ClientStats) : List Nat :=
  (s.issuedTo.toList.zip s.answeredBy.toList).map fun (issued, answered) => issued - answered

theorem incomplete_eq (s : ClientStats) :
    s.incomplete = (s.missing.zipIdx.filter fun (n, _) => 0 < n).map Prod.swap := rfl

theorem mem_incomplete (s : ClientStats) (server n : Nat) :
    (server, n) ∈ s.incomplete ↔ ∃ issued answered, s.issuedTo[server]? = some issued ∧
      s.answeredBy[server]? = some answered ∧ answered < issued ∧ n = issued - answered := by
  have hmem : (server, n) ∈ s.incomplete ↔ s.missing[server]? = some n ∧ 0 < n := by
    rw [incomplete_eq, List.mem_map]
    constructor
    · rintro ⟨x, hx, hswap⟩
      cases hswap
      obtain ⟨hx, hpos⟩ := List.mem_filter.mp hx
      exact ⟨List.mem_zipIdx_iff_getElem?.mp hx, of_decide_eq_true hpos⟩
    · rintro ⟨hn, hpos⟩
      exact ⟨(n, server), List.mem_filter.mpr
        ⟨List.mem_zipIdx_iff_getElem?.mpr hn, decide_eq_true hpos⟩, rfl⟩
  rw [hmem, missing, List.getElem?_map, Option.map_eq_some_iff]
  constructor
  · rintro ⟨⟨⟨issued, answered⟩, hcounts, rfl⟩, hpos⟩
    obtain ⟨hissued, hanswered⟩ := List.getElem?_zip_eq_some.mp hcounts
    rw [Array.getElem?_toList] at hissued hanswered
    exact ⟨issued, answered, hissued, hanswered, Nat.lt_of_sub_pos hpos, rfl⟩
  · rintro ⟨issued, answered, hissued, hanswered, hlt, rfl⟩
    rw [← Array.getElem?_toList] at hissued hanswered
    exact ⟨⟨(issued, answered), List.getElem?_zip_eq_some.mpr ⟨hissued, hanswered⟩, rfl⟩,
      Nat.sub_pos_of_lt hlt⟩

/-- Servers are listed in order, and none twice. -/
theorem pairwise_incomplete (s : ClientStats) : s.incomplete.Pairwise fun x y => x.1 < y.1 := by
  have hservers : s.missing.zipIdx.Pairwise fun x y => x.2 < y.2 := by
    apply List.pairwise_map.mp
    show (s.missing.zipIdx.map Prod.snd).Pairwise (· < ·)
    rw [List.zipIdx_map_snd]
    exact List.pairwise_lt_range' 1
  rw [incomplete_eq, List.pairwise_map]
  exact hservers.filter _

theorem sum_incomplete (s : ClientStats) : (s.incomplete.map Prod.snd).sum = s.missing.sum := by
  have hfirst : (s.missing.zipIdx.map Prod.fst).sum = s.missing.sum := by rw [List.zipIdx_map_fst]
  rw [incomplete_eq, List.map_map, ← hfirst, ← sum_filter_pos]
  rfl

end ClientStats

/-! ## What is counted -/

namespace ClientActivity

/-- A request goes to one of so many servers. -/
def isAddressed (servers : Nat) : ClientActivity → Bool
  | issued server => server < servers
  | _ => true

/-- A request that goes to this server. -/
def goesTo (server : Nat) : ClientActivity → Bool
  | issued target => target = server
  | _ => false

/-- A response that names this server. -/
def names (server : Nat) : ClientActivity → Bool
  | answered _ _ serverId => serverId.toInt = server
  | _ => false

/-- A response that names none of so many servers. -/
def isStray (servers : Nat) : ClientActivity → Bool
  | answered _ _ serverId => serverId.toInt < 0 || (servers : Int) ≤ serverId.toInt
  | _ => false

/-- The counters after it; none where a request would be counted past the end of them. -/
def counted? (did : ClientActivity) (s : ClientStats) : Option ClientStats :=
  match did with
  | issued server => s.recordIssue? server
  | did => some (did.apply s)

end ClientActivity

namespace ClientStats

/-- The counters after all that a port did. -/
def tally? (s : ClientStats) (events : List ClientActivity) : Option ClientStats :=
  events.foldlM (fun s did => did.counted? s) s

theorem sum_countAnswer (counters : Array Nat) (serverId : Int32) :
    (countAnswer counters serverId).toList.sum = counters.toList.sum +
      if serverId.toInt < 0 ∨ (counters.size : Int) ≤ serverId.toInt then 0 else 1 := by
  have hzero : (0 : Int32).toInt = 0 := rfl
  have hsign := Int32.lt_iff_toInt_lt (x := serverId) (y := 0)
  unfold countAnswer
  split
  next hnegative =>
    have := hsign.mp hnegative
    rw [if_pos (by omega)]
    rfl
  next hnonnegative =>
    have := mt hsign.mpr hnonnegative
    dsimp only
    split
    next hknown =>
      rw [if_neg (by omega), Array.toList_set]
      exact sum_set_succ hknown
    next hunknown =>
      rw [if_pos (by omega)]
      rfl

/-- A response leaves a warning exactly if it is counted for no server. -/
theorem recordWarning_eq_nil_iff (s : ClientStats) (length rtt : UInt32) (serverId : Int32) :
    s.recordWarning serverId = [] ↔
      (ClientActivity.answered length rtt serverId).isStray s.answeredBy.size = false := by
  have hsign := Int32.le_iff_toInt_le (x := 0) (y := serverId)
  have hzero : (0 : Int32).toInt = 0 := rfl
  have hknows : s.knows serverId = true ↔
      ¬ (serverId.toInt < 0 ∨ (s.answeredBy.size : Int) ≤ serverId.toInt) := by
    simp only [knows, Bool.and_eq_true, decide_eq_true_eq, hsign, hzero]
    omega
  rw [recordWarning, ClientActivity.isStray, ← Bool.not_eq_true, Bool.or_eq_true, decide_eq_true_eq,
    decide_eq_true_eq, ← hknows]
  split <;> simp_all

/-- The counters of a port with so many servers that did all this. -/
structure Tallies (servers : Nat) (events : List ClientActivity) (s : ClientStats) : Prop where
  size_issuedTo : s.issuedTo.size = servers
  size_answeredBy : s.answeredBy.size = servers
  issuedTo : ∀ server < servers, s.issuedTo[server]? = some (events.countP (·.goesTo server))
  answeredBy : ∀ server < servers, s.answeredBy[server]? = some (events.countP (·.names server))
  requests : s.requests = s.issuedTo.toList.sum
  responses : s.responses = s.answeredBy.toList.sum + events.countP (·.isStray servers)

theorem tallies_new (servers capacity : Nat) : (new servers capacity).Tallies servers [] := by
  have hcounters : ∀ server < servers, (Array.replicate servers 0)[server]? = some 0 := by
    intro server hserver
    rw [Array.getElem?_replicate, if_pos hserver]
  have hsum : 0 = (Array.replicate servers 0).toList.sum := by
    rw [Array.toList_replicate, List.sum_replicate_nat, Nat.mul_zero]
  exact ⟨Array.size_replicate, Array.size_replicate, hcounters, hcounters, hsum, hsum⟩

/-- Nothing that is counted happened. -/
theorem Tallies.uncounted {servers : Nat} {events : List ClientActivity} {s t : ClientStats}
    {did : ClientActivity} (h : s.Tallies servers events) (hissuedTo : t.issuedTo = s.issuedTo)
    (hansweredBy : t.answeredBy = s.answeredBy) (hrequests : t.requests = s.requests)
    (hresponses : t.responses = s.responses) (hgoes : ∀ server, did.goesTo server = false)
    (hnames : ∀ server, did.names server = false) (hstray : did.isStray servers = false) :
    t.Tallies servers (events ++ [did]) := by
  have hcount (p : ClientActivity → Bool) (hp : p did = false) :
      (events ++ [did]).countP p = events.countP p := by
    rw [List.countP_append, List.countP_singleton, hp]
    rfl
  refine ⟨?_, ?_, ?_, ?_, ?_, ?_⟩
  · rw [hissuedTo]
    exact h.size_issuedTo
  · rw [hansweredBy]
    exact h.size_answeredBy
  · intro server hserver
    rw [hissuedTo, hcount _ (hgoes server)]
    exact h.issuedTo server hserver
  · intro server hserver
    rw [hansweredBy, hcount _ (hnames server)]
    exact h.answeredBy server hserver
  · rw [hrequests, hissuedTo]
    exact h.requests
  · rw [hresponses, hansweredBy, hcount _ hstray]
    exact h.responses

theorem Tallies.step {servers : Nat} {events : List ClientActivity} {s t : ClientStats}
    {did : ClientActivity} (h : s.Tallies servers events) (hdid : did.counted? s = some t) :
    t.Tallies servers (events ++ [did]) := by
  cases did with
  | issued server =>
    obtain ⟨hs, rfl⟩ := recordIssue?_eq_some hdid
    refine ⟨(Array.size_set hs).trans h.size_issuedTo, h.size_answeredBy, ?_, ?_, ?_, ?_⟩
    · intro other hother
      have hcount := h.issuedTo other hother
      rw [List.countP_append, List.countP_singleton]
      by_cases hsame : server = other
      · subst hsame
        rw [Array.getElem?_eq_getElem hs, Option.some.injEq] at hcount
        rw [Array.getElem?_set_self, hcount, ClientActivity.goesTo, decide_eq_true rfl]
        rfl
      · rw [Array.getElem?_set_ne _ hsame, hcount, ClientActivity.goesTo, decide_eq_false hsame]
        rfl
    · intro other hother
      rw [List.countP_append]
      exact h.answeredBy other hother
    · show s.requests + 1 = (s.issuedTo.set server (s.issuedTo[server] + 1)).toList.sum
      rw [Array.toList_set, h.requests]
      exact (sum_set_succ hs).symm
    · rw [List.countP_append]
      exact h.responses
  | answered length rtt serverId =>
    cases hdid
    refine ⟨h.size_issuedTo, (size_countAnswer ..).trans h.size_answeredBy, ?_, ?_, ?_, ?_⟩
    · intro server hserver
      rw [List.countP_append]
      exact h.issuedTo server hserver
    · intro server hserver
      show (countAnswer s.answeredBy serverId)[server]? = _
      rw [getElem?_countAnswer, h.answeredBy server hserver, List.countP_append,
        List.countP_singleton, ClientActivity.names]
      simp only [Option.map_some, decide_eq_true_eq]
    · exact h.requests
    · show s.responses + 1 = (countAnswer s.answeredBy serverId).toList.sum + _
      rw [sum_countAnswer, h.responses, h.size_answeredBy, List.countP_append, List.countP_singleton,
        ClientActivity.isStray]
      simp only [Bool.or_eq_true, decide_eq_true_eq]
      split
      next => omega
      next => omega
  | lagged ticks =>
    cases hdid
    exact h.uncounted rfl rfl rfl rfl (fun _ => rfl) (fun _ => rfl) rfl
  | drained =>
    cases hdid
    exact h.uncounted rfl rfl rfl rfl (fun _ => rfl) (fun _ => rfl) rfl

/-- A port that is asked for its own servers only has counters for all it does. -/
theorem tallies_tally (servers capacity : Nat) (events : List ClientActivity)
    (haddressed : ∀ did ∈ events, did.isAddressed servers = true) :
    ∃ t, (new servers capacity).tally? events = some t ∧ t.Tallies servers events := by
  induction events using List.reverseRecOn with
  | nil => exact ⟨new servers capacity, rfl, tallies_new servers capacity⟩
  | append_singleton events did ih =>
    obtain ⟨hevents, hdid⟩ := List.forall_mem_append.mp haddressed
    obtain ⟨s, hs, htallies⟩ := ih hevents
    have happly : did.counted? s ≠ none := by
      cases did with
      | issued server =>
        apply recordIssue?_ne_none
        rw [htallies.size_issuedTo]
        exact of_decide_eq_true (hdid _ (List.mem_singleton.mpr rfl))
      | _ => exact Option.some_ne_none _
    obtain ⟨t, ht⟩ := Option.ne_none_iff_exists'.mp happly
    refine ⟨t, ?_, htallies.step ht⟩
    unfold tally? at hs ⊢
    rw [List.foldlM_append, hs]
    show (did.counted? s >>= pure) = some t
    rw [ht]
    rfl

/-- **What is unanswered by server covers what is outstanding in all.** A port with any number of servers
issues requests to them and gets responses that name any number, in any order. It never counts past its
counters. By server, it has how often each was asked and how often each was named; in all, the sum of the
former, and the sum of the latter with the responses that named no server of the port. The list of
incomplete servers has those with more requests than responses, in order, none twice, each with the
difference. Together the differences are no less than what is outstanding, and just that if all responses
named servers and none named a server more often than it was asked. If the list is empty, nothing is
outstanding. -/
theorem tally?_accounts (servers capacity : Nat) {events : List ClientActivity}
    (haddressed : ∀ did ∈ events, did.isAddressed servers = true) :
    ∃ t, (new servers capacity).tally? events = some t ∧
      t.issuedTo.size = servers ∧ t.answeredBy.size = servers ∧
      (∀ server < servers,
        t.issuedTo[server]? = some (events.countP (·.goesTo server)) ∧
        t.answeredBy[server]? = some (events.countP (·.names server))) ∧
      t.requests = t.issuedTo.toList.sum ∧
      t.responses = t.answeredBy.toList.sum + events.countP (·.isStray servers) ∧
      (t.incomplete.Pairwise fun x y => x.1 < y.1) ∧
      (∀ server n, (server, n) ∈ t.incomplete ↔ ∃ issued answered,
        t.issuedTo[server]? = some issued ∧ t.answeredBy[server]? = some answered ∧
        answered < issued ∧ n = issued - answered) ∧
      t.outstanding ≤ (t.incomplete.map Prod.snd).sum ∧
      (events.countP (·.isStray servers) = 0 →
        (∀ (server issued answered : Nat), t.issuedTo[server]? = some issued →
          t.answeredBy[server]? = some answered → answered ≤ issued) →
        t.outstanding = (t.incomplete.map Prod.snd).sum) ∧
      (t.incomplete = [] → t.outstanding = 0) := by
  obtain ⟨t, ht, h⟩ := tallies_tally servers capacity events haddressed
  have hsizes : t.issuedTo.toList.length = t.answeredBy.toList.length := by
    rw [Array.length_toList, Array.length_toList, h.size_issuedTo, h.size_answeredBy]
  have hrequests := h.requests
  have hresponses := h.responses
  have hcovered : t.outstanding ≤ (t.incomplete.map Prod.snd).sum := by
    have hle := sum_le_sum_sub_add hsizes
    rw [sum_incomplete, outstanding, missing]
    omega
  refine ⟨t, ht, h.size_issuedTo, h.size_answeredBy,
    fun server hserver => ⟨h.issuedTo server hserver, h.answeredBy server hserver⟩, hrequests, hresponses,
    t.pairwise_incomplete, t.mem_incomplete, hcovered, ?_, ?_⟩
  · intro hstray hle
    simp only [← Array.getElem?_toList] at hle
    have heq := sum_eq_sum_sub_add hsizes hle
    rw [sum_incomplete, outstanding, missing]
    omega
  · intro hempty
    rw [hempty] at hcovered
    exact Nat.le_zero.mp hcovered

/-- Three servers. The first is asked twice and answers once, the second answers unasked, the third is asked
and does not answer, and a response names a server that there is not. -/
theorem tally?_accounts_stray :
    let events : List ClientActivity := [.issued 0, .issued 0, .issued 2, .answered 16 5 0,
      .answered 16 5 1, .answered 16 5 7]
    ∃ t, (new 3 4).tally? events = some t ∧ t.requests = 3 ∧ t.responses = 3 ∧
      t.outstanding = 0 ∧ (0, 1) ∈ t.incomplete ∧ (2, 1) ∈ t.incomplete := by
  intro events
  have haddressed : ∀ did ∈ events, did.isAddressed 3 = true := by decide
  obtain ⟨t, ht, -, -, hcounts, -, -, -, hmem, -⟩ := tally?_accounts 3 4 haddressed
  obtain ⟨hissued₀, hanswered₀⟩ := hcounts 0 (by decide)
  obtain ⟨hissued₂, hanswered₂⟩ := hcounts 2 (by decide)
  have hrequests : ((new 3 4).tally? events).map requests = some 3 := by decide
  have hresponses : ((new 3 4).tally? events).map responses = some 3 := by decide
  rw [ht] at hrequests hresponses
  have hrequests : t.requests = 3 := Option.some.inj hrequests
  have hresponses : t.responses = 3 := Option.some.inj hresponses
  refine ⟨t, ht, hrequests, hresponses, ?_, ?_, ?_⟩
  · rw [outstanding, hrequests, hresponses]
  · exact (hmem 0 1).mpr ⟨2, 1, hissued₀, hanswered₀, by decide, rfl⟩
  · exact (hmem 2 1).mpr ⟨1, 0, hissued₂, hanswered₂, by decide, rfl⟩

end ClientStats

end EchoLoad
