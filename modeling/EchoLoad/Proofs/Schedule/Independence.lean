import EchoLoad.Client.Plan
import EchoLoad.Proofs.Schedule.Course
import EchoLoad.Proofs.Schedule.Drawn

/-!
# What the requests of a port do not depend on

The three sequences of a port are drawn one after the other from the same source, so each of them can only
depend on what was drawn before it. How much a sequence takes from the source does depend on its parameters:
a number may be rejected and drawn again, and a fixed length takes nothing at all. Two ports that differ in
a later parameter therefore part where that parameter is first used, and not before:

> `Sequences.drawFrom_independent`: from the same state of a source, the servers are the same whatever the
> workload and the rate, and the lengths of the same workload are the same whatever the rate.

The bandwidth of an experiment is a rate for its ports, so it changes nothing but the gaps between requests.
-/

namespace EchoLoad

open EchoLoad.Random EchoLoad.Random.Drawing

namespace Sequences

variable {σ : Type} {supply : Supply σ} {s t t' : σ} {servers : Nat} {w w' : Workload}
  {rate rate' : Option Float} {q q' : Sequences}

/-- What is drawn after what, and what is left of the source in between. -/
theorem drawFrom_eq_some (h : drawFrom supply servers w rate s = some (q, t)) :
    ∃ afterServers afterLengths,
      times serverCount (supply.below (max servers 1)) s = some (q.servers, afterServers) ∧
      w.sampleFrom supply lengthCount afterServers = some (q.lengths, afterLengths) ∧
      drawIntervals supply rate afterLengths = some (q.intervals, t) := by
  unfold drawFrom at h
  obtain ⟨chosen, afterServers, hservers, h⟩ := bind_eq_some.mp h
  obtain ⟨lengths, afterLengths, hlengths, h⟩ := bind_eq_some.mp h
  obtain ⟨gaps, rest, hgaps, h⟩ := bind_eq_some.mp h
  cases h
  exact ⟨afterServers, afterLengths, hservers, hlengths, hgaps⟩

/-- The servers are drawn before anything looks at the workload or the rate. -/
theorem servers_eq (h : drawFrom supply servers w rate s = some (q, t))
    (h' : drawFrom supply servers w' rate' s = some (q', t')) : q'.servers = q.servers := by
  obtain ⟨_, _, hservers, -, -⟩ := drawFrom_eq_some h
  obtain ⟨_, _, hservers', -, -⟩ := drawFrom_eq_some h'
  have hsame := Option.some.inj (hservers'.symm.trans hservers)
  exact (Prod.mk.inj hsame).1

/-- The lengths are drawn where the servers left the source, before anything looks at the rate. -/
theorem lengths_eq (h : drawFrom supply servers w rate s = some (q, t))
    (h' : drawFrom supply servers w rate' s = some (q', t')) : q'.lengths = q.lengths := by
  obtain ⟨_, _, hservers, hlengths, -⟩ := drawFrom_eq_some h
  obtain ⟨_, _, hservers', hlengths', -⟩ := drawFrom_eq_some h'
  -- what the servers left is the same, though a number may have been drawn more than once for them
  obtain ⟨-, rfl⟩ := Prod.mk.inj (Option.some.inj (hservers'.symm.trans hservers))
  have hsame := Option.some.inj (hlengths'.symm.trans hlengths)
  exact (Prod.mk.inj hsame).1

theorem eq_with_intervals (hservers : q'.servers = q.servers) (hlengths : q'.lengths = q.lengths) :
    q' = { q with intervals := q'.intervals } := by
  rw [← hservers, ← hlengths]

end Sequences

/-! ## Ports -/

namespace RequestPlan

variable {o o' : ClientOptions} {port servers : Nat} {p p' : RequestPlan}

/-- A port draws from the source of its seed. -/
theorem ofPort?_eq_some (h : ofPort? o port servers = some p) :
    ∃ rest, Sequences.drawFrom .source servers o.workload
        (o.portRate (o.workload.mean (o.lengthLimit o.protocol.limits))) (sourceOf o port) =
          some (p.sequences, rest) ∧
      p.lengthLimit = o.lengthLimit o.protocol.limits ∧
      p.expectedLength = o.workload.mean (o.lengthLimit o.protocol.limits) := by
  obtain ⟨⟨_, rest⟩, hrun, rfl⟩ := Option.map_eq_some_iff.mp h
  obtain ⟨q, _, hq, hrun⟩ := bind_eq_some.mp hrun
  cases hrun
  exact ⟨rest, hq, rfl, rfl⟩

theorem sourceOf_congr (hseed : o'.seed = o.seed) (port : Nat) : sourceOf o' port = sourceOf o port := by
  rw [sourceOf, sourceOf, hseed]

/-- Ports with the same seed address the same servers. -/
theorem servers_eq (hseed : o'.seed = o.seed) (h : ofPort? o port servers = some p)
    (h' : ofPort? o' port servers = some p') : p'.sequences.servers = p.sequences.servers := by
  obtain ⟨_, hq, -, -⟩ := ofPort?_eq_some h
  obtain ⟨_, hq', -, -⟩ := ofPort?_eq_some h'
  rw [sourceOf_congr hseed] at hq'
  exact Sequences.servers_eq hq hq'

/-- With the same workload, requests have the same lengths too. -/
theorem lengths_eq (hseed : o'.seed = o.seed) (hworkload : o'.workload = o.workload)
    (h : ofPort? o port servers = some p) (h' : ofPort? o' port servers = some p') :
    p'.sequences.lengths = p.sequences.lengths := by
  obtain ⟨_, hq, -, -⟩ := ofPort?_eq_some h
  obtain ⟨_, hq', -, -⟩ := ofPort?_eq_some h'
  rw [sourceOf_congr hseed, hworkload] at hq'
  exact Sequences.lengths_eq hq hq'

/-- Another bandwidth has other gaps, and all else is as it was. -/
theorem eq_of_netBw {bandwidth : Float} (h : ofPort? o port servers = some p)
    (h' : ofPort? { o with netBw := bandwidth } port servers = some p') :
    p' = { p with sequences.intervals := p'.sequences.intervals } := by
  obtain ⟨_, hq, hlimit, hmean⟩ := ofPort?_eq_some h
  obtain ⟨_, hq', hlimit', hmean'⟩ := ofPort?_eq_some h'
  obtain ⟨limit, mean, q⟩ := p
  obtain ⟨limit', mean', q'⟩ := p'
  -- the bandwidth is only read for the rate: limit and mean are the same without it
  cases hlimit
  cases hmean
  cases hlimit'
  cases hmean'
  have hservers : q'.servers = q.servers := Sequences.servers_eq hq hq'
  have hlengths : q'.lengths = q.lengths := Sequences.lengths_eq hq hq'
  exact congrArg (RequestPlan.mk _ _) (Sequences.eq_with_intervals hservers hlengths)

end RequestPlan

/-! ## Requests -/

namespace Scheduler

variable {q q' : Sequences} {cap cap' first first' n m m' : Nat} {limit limit' : Int32}
  {s s' t t' : Scheduler} {chosen chosen' : Selection}

/-- Over the same servers, requests with the same number go to the same server. -/
theorem Reaches.server_congr (hservers : q'.servers = q.servers)
    (hs : (new q cap limit first).Reaches n m s) (hs' : (new q' cap' limit' first').Reaches n m' s')
    (hselect : s.select? = some (chosen, t)) (hselect' : s'.select? = some (chosen', t')) :
    chosen'.server = chosen.server := by
  have hserver' := hs'.server_eq hselect'
  rw [hservers, hs.server_eq hselect] at hserver'
  exact (Option.some.inj hserver').symm

/-- Over the same servers and lengths, requests with the same number are the same. -/
theorem Reaches.chosen_congr (hservers : q'.servers = q.servers) (hlengths : q'.lengths = q.lengths)
    (hs : (new q cap limit first).Reaches n m s) (hs' : (new q' cap' limit first').Reaches n m' s')
    (hselect : s.select? = some (chosen, t)) (hselect' : s'.select? = some (chosen', t')) :
    chosen' = chosen := by
  have hserver := hs.server_congr hservers hs' hselect hselect'
  obtain ⟨drawn, hdrawn, hlength⟩ := hs.length_eq hselect
  obtain ⟨drawn', hdrawn', hlength'⟩ := hs'.length_eq hselect'
  rw [hlengths, hdrawn] at hdrawn'
  cases hdrawn'
  obtain ⟨server, length⟩ := chosen
  obtain ⟨server', length'⟩ := chosen'
  cases hserver
  cases hlength
  cases hlength'
  rfl

end Scheduler

namespace Sequences

/-- Requests with the same number go to the same server, whichever schedules go over the sequences and
whatever they were asked before. -/
def SameServers (q q' : Sequences) : Prop :=
  ∀ {cap cap' first first' n m m' : Nat} {limit limit' : Int32} {s s' t t' : Scheduler}
    {chosen chosen' : Selection}, (Scheduler.new q cap limit first).Reaches n m s →
    (Scheduler.new q' cap' limit' first').Reaches n m' s' → s.select? = some (chosen, t) →
    s'.select? = some (chosen', t') → chosen'.server = chosen.server

/-- Requests with the same number are the same, whichever schedules go over the sequences, if they cut
lengths to the same limit. -/
def SameRequests (q q' : Sequences) : Prop :=
  ∀ {cap cap' first first' n m m' : Nat} {limit : Int32} {s s' t t' : Scheduler}
    {chosen chosen' : Selection}, (Scheduler.new q cap limit first).Reaches n m s →
    (Scheduler.new q' cap' limit first').Reaches n m' s' → s.select? = some (chosen, t) →
    s'.select? = some (chosen', t') → chosen' = chosen

/-- **Requests do not depend on what is drawn after them.** Two draws from the same state of any source,
for as many servers, give the same servers, whatever the workloads and the rates; and for the same workload
they give the same lengths, and differ in the gaps at most. It is so for the ports of two commands with the
same seed, and for each request that they send: the bandwidth of a command changes when its requests are
sent, and its workload does not change where to. -/
theorem drawFrom_independent :
    (∀ {σ : Type} (supply : Supply σ) (s : σ) (servers : Nat) (w w' : Workload)
      (rate rate' : Option Float) (q q' : Sequences) (t t' : σ),
      drawFrom supply servers w rate s = some (q, t) →
      drawFrom supply servers w' rate' s = some (q', t') →
        q'.servers = q.servers ∧ q.SameServers q' ∧
        (w' = w → q'.lengths = q.lengths ∧ q' = { q with intervals := q'.intervals } ∧
          q.SameRequests q')) ∧
    (∀ (o o' : ClientOptions) (port servers : Nat) (p p' : RequestPlan), o'.seed = o.seed →
      RequestPlan.ofPort? o port servers = some p → RequestPlan.ofPort? o' port servers = some p' →
        p'.sequences.servers = p.sequences.servers ∧ p.sequences.SameServers p'.sequences) ∧
    ∀ (o : ClientOptions) (bandwidth : Float) (port servers : Nat) (p p' : RequestPlan),
      RequestPlan.ofPort? o port servers = some p →
      RequestPlan.ofPort? { o with netBw := bandwidth } port servers = some p' →
        p' = { p with sequences.intervals := p'.sequences.intervals } ∧
        p.sequences.SameRequests p'.sequences := by
  refine ⟨?_, ?_, ?_⟩
  · intro σ supply s servers w w' rate rate' q q' t t' h h'
    have hservers : q'.servers = q.servers := servers_eq h h'
    refine ⟨hservers, Scheduler.Reaches.server_congr hservers, ?_⟩
    rintro rfl
    have hlengths : q'.lengths = q.lengths := lengths_eq h h'
    exact ⟨hlengths, eq_with_intervals hservers hlengths,
      Scheduler.Reaches.chosen_congr hservers hlengths⟩
  · intro o o' port servers p p' hseed h h'
    have hservers := RequestPlan.servers_eq hseed h h'
    exact ⟨hservers, Scheduler.Reaches.server_congr hservers⟩
  · intro o bandwidth port servers p p' h h'
    have hservers := RequestPlan.servers_eq (by rfl) h h'
    have hlengths := RequestPlan.lengths_eq (by rfl) (by rfl) h h'
    exact ⟨RequestPlan.eq_of_netBw h h', Scheduler.Reaches.chosen_congr hservers hlengths⟩

/-- Numbers made from a counter, which the three kinds of draws move by different steps. -/
def countedNumbers : Supply Nat where
  below range := fun n => some (n % range, n + 1)
  between low high := fun n => some (if n % 2 = 0 then low else high, n + 2)
  exponential := fun n => some (Float.ofNat n, n + 3)

theorem lasting_countedNumbers : countedNumbers.Lasting where
  below range _ := fun n => ⟨n % range, n + 1, rfl⟩
  between low high _ := fun n => ⟨if n % 2 = 0 then low else high, n + 2, rfl⟩
  exponential := fun n => ⟨Float.ofNat n, n + 3, rfl⟩

/-- Three draws from one counter: a fixed length takes nothing from it and an exponential one does, and the
servers are the same; so are the lengths when a rate is given. -/
theorem drawFrom_independent_counted :
    ∃ q q' q'' t t' t'',
      drawFrom countedNumbers 3 (.exponential 100) none 5 = some (q, t) ∧
      drawFrom countedNumbers 3 (.fixed 100) none 5 = some (q', t') ∧
      drawFrom countedNumbers 3 (.exponential 100) (some 1e6) 5 = some (q'', t'') ∧
      q'.servers = q.servers ∧ q''.servers = q.servers ∧ q''.lengths = q.lengths := by
  have hexponential : (Workload.exponential 100).IsProper := by decide +kernel
  have hfixed : (Workload.fixed 100).IsProper := by decide +kernel
  have hdraws {w : Workload} (hw : w.IsProper) (rate : Option Float) :=
    returns_drawFrom lasting_countedNumbers 3 hw rate 5
  obtain ⟨q, t, h⟩ := hdraws hexponential none
  obtain ⟨q', t', h'⟩ := hdraws hfixed none
  obtain ⟨q'', t'', h''⟩ := hdraws hexponential (some 1e6)
  obtain ⟨hdrawn, -, -⟩ := drawFrom_independent
  obtain ⟨hservers, -, -⟩ := hdrawn _ _ _ _ _ _ _ _ _ _ _ h h'
  obtain ⟨hservers', -, hsame⟩ := hdrawn _ _ _ _ _ _ _ _ _ _ _ h h''
  exact ⟨q, q', q'', t, t', t'', h, h', h'', hservers, hservers', (hsame rfl).1⟩

end Sequences

end EchoLoad
