import EchoLoad.Client.Group
import EchoLoad.Proofs.Client.Turns
import Mathlib.Algebra.Group.Action.Defs
import Mathlib.Algebra.Order.BigOperators.Group.List
import Mathlib.Algebra.Order.Ring.Nat

/-!
# How many requests may be unanswered

A port looks at its counters before it lets a request go, and counts the request once the transport has
taken it. In between, responses may be counted by others, to this request or to any other one:

> `SenderGroup.run_capped`: at every moment each port has issued at most its share more than it has
> counted responses, and all ports together at most the limit of the command.

What makes this hold is that a port has one sender. The room that it saw for a request is still there
when the request is counted, since in between responses can only become more (`Sender.Capped.turn`).
-/

namespace EchoLoad

/-! ## One port -/

namespace Sender

/-- A sender has issued at most `cap` requests more than responses were counted; there is room for the
one that it is about to send. -/
structure Capped (cap : Nat) (s : Sender) : Prop where
  cap_eq : s.scheduler.cap = cap
  requests_eq : s.stats.requests = s.issued
  bound : s.issued ≤ s.stats.responses + cap
  room : ∀ call, s.phase.call? = some call → s.issued < s.stats.responses + cap

theorem capped_start (scheduler : Scheduler) (servers ringCapacity : Nat) (firstId : UInt32)
    (fill : Bytes) (receivers : Nat) :
    (start scheduler (.new servers ringCapacity) firstId fill receivers).Capped scheduler.cap where
  cap_eq := rfl
  requests_eq := rfl
  bound := Nat.zero_le _
  room := by
    intro call hcall
    exact absurd hcall (by simp [start, SenderPhase.call?])

/-- To look, to wait or to end does not matter. -/
theorem Capped.rephase {cap : Nat} {s : Sender} (h : s.Capped cap) (phase : SenderPhase)
    (quiet : phase.call? = none) : { s with phase := phase }.Capped cap := by
  refine ⟨h.cap_eq, h.requests_eq, h.bound, ?_⟩
  intro call hcall
  rw [quiet] at hcall
  cases hcall

/-- A request is counted, for which there was room. -/
theorem Capped.count {cap : Nat} {s : Sender} (h : s.Capped cap) {call : SendCall}
    (hcall : s.phase.call? = some call) {server : Nat} {stats : ClientStats}
    (counted : s.stats.recordIssue? server = some stats) (phase : SenderPhase)
    (quiet : phase.call? = none) :
    { s with stats := stats, issued := s.issued + 1, phase := phase }.Capped cap := by
  have hroom := h.room call hcall
  obtain ⟨-, rfl⟩ := ClientStats.recordIssue?_eq_some counted
  refine ⟨h.cap_eq, congrArg (· + 1) h.requests_eq, hroom, ?_⟩
  intro call hcall
  rw [quiet] at hcall
  cases hcall

/-- The cursors and the number of the next message do not matter. -/
theorem Capped.renumber {cap : Nat} {s : Sender} (h : s.Capped cap) {scheduler : Scheduler}
    (hcap : scheduler.cap = s.scheduler.cap) (nextId : UInt32) :
    { s with scheduler := scheduler, nextId := nextId }.Capped cap :=
  ⟨hcap.trans h.cap_eq, h.requests_eq, h.bound, h.room⟩

theorem Capped.lagging {cap : Nat} {s : Sender} (h : s.Capped cap) (ticks : Nat) :
    { s with stats := s.stats.addLag ticks }.Capped cap :=
  ⟨h.cap_eq, h.requests_eq, h.bound, h.room⟩

/-- Whatever happens to a sender, it stays within its bound. -/
theorem Capped.turn {cap : Nat} {s t : Sender} {e : SenderEvent} (h : s.Capped cap)
    (ht : s.Turn e t) : t.Capped cap := by
  have hbound := h.bound
  cases ht with
  | recorded header finish =>
    refine ⟨h.cap_eq, h.requests_eq, ?_, ?_⟩
    · show s.issued ≤ s.stats.responses + 1 + cap
      omega
    · intro call hcall
      have hroom := h.room call hcall
      show s.issued < s.stats.responses + 1 + cap
      omega
  | unasked => exact h
  | @turned e phase active uncalled quiet alive => exact h.rephase phase quiet
  | issued checking ready selected built =>
    obtain ⟨-, -, hscheduler⟩ := Scheduler.select?_eq_some selected
    refine ⟨?_, h.requests_eq, hbound, ?_⟩
    · rw [hscheduler]
      exact h.cap_eq
    · intro call _
      unfold Scheduler.ready at ready
      rw [h.cap_eq, Bool.and_eq_true] at ready
      have hunanswered := of_decide_eq_true ready.2
      show s.issued < s.stats.responses + cap
      omega
  | unselected => exact h.rephase .aborted rfl
  | unbuilt checking selected missing =>
    obtain ⟨-, -, hscheduler⟩ := Scheduler.select?_eq_some selected
    have hcap := congrArg Scheduler.cap hscheduler
    exact (h.rephase .aborted rfl).renumber hcap _
  | @accepted server now before behind frame stats scheduler sending counted moved =>
    obtain ⟨gap, -, -, hscheduler⟩ := Scheduler.reschedule?_eq_some moved
    have hcap := congrArg Scheduler.cap hscheduler
    -- the room was seen before the request went out, and responses are not fewer now
    have hcall : s.phase.call? = some _ := congrArg SenderPhase.call? sending
    have hquiet : (if s.receivers = 0 then SenderPhase.waiting before else .checking).call? = none := by
      split <;> rfl
    exact ((h.count hcall counted _ hquiet).lagging behind).renumber hcap _
  | skipped sending moved =>
    obtain ⟨gap, -, -, hscheduler⟩ := Scheduler.reschedule?_eq_some moved
    have hcap := congrArg Scheduler.cap hscheduler
    exact ((h.rephase .checking rfl).lagging _).renumber hcap _
  | @failed server now before frame error => exact h.rephase (.ended (.error error)) rfl
  | uncounted => exact h.rephase .aborted rfl
  | unmoved sending missing kept =>
    rcases kept with ⟨rfl, rfl⟩ | ⟨rfl, counted⟩
    · exact h.rephase .aborted rfl
    · have hcall : s.phase.call? = some _ := congrArg SenderPhase.call? sending
      exact h.count hcall counted .aborted rfl

end Sender

/-! ## All ports of a command -/

namespace ClientOptions

theorem portCap_eq {o : ClientOptions} (h : 1 ≤ o.ports) :
    o.portCap = max 1 (o.clientMax / o.ports) := by
  rw [portCap, Nat.max_eq_left h, Nat.max_comm]

/-- The shares of all ports together. -/
theorem ports_mul_portCap_le (o : ClientOptions) : o.ports * o.portCap ≤ max o.clientMax o.ports := by
  rcases Nat.eq_zero_or_pos o.ports with hnone | hsome
  · rw [hnone, Nat.zero_mul]
    exact Nat.zero_le _
  · rw [portCap_eq hsome]
    rcases Nat.le_total 1 (o.clientMax / o.ports) with hshare | hfloor
    · rw [Nat.max_eq_right hshare]
      exact (Nat.mul_div_le o.clientMax o.ports).trans (Nat.le_max_left _ _)
    · rw [Nat.max_eq_left hfloor, Nat.mul_one]
      exact Nat.le_max_right _ _

end ClientOptions

namespace SenderGroup

theorem length_step (g : SenderGroup) (port : Nat) (e : SenderEvent) :
    (g.step port e).senders.length = g.senders.length := by
  unfold step
  split
  · rfl
  · exact List.length_set

theorem length_run (events : List (Nat × SenderEvent)) :
    ∀ g : SenderGroup, (g.run events).senders.length = g.senders.length := by
  induction events with
  | nil => intro g; rfl
  | cons event events ih =>
    intro g
    exact (ih (g.step event.1 event.2)).trans (g.length_step event.1 event.2)

theorem capped_step {cap : Nat} {g : SenderGroup} (h : ∀ s ∈ g.senders, s.Capped cap) (port : Nat)
    (e : SenderEvent) : ∀ s ∈ (g.step port e).senders, s.Capped cap := by
  unfold step
  cases hport : g.senders[port]? with
  | none => exact h
  | some old =>
    intro s hs
    rcases List.mem_or_eq_of_mem_set hs with hs | rfl
    · exact h s hs
    · have hold := h old (List.mem_of_getElem? hport)
      exact (hold.renumber rfl g.nextId).turn (Sender.turn _ e)

theorem capped_run {cap : Nat} (events : List (Nat × SenderEvent)) :
    ∀ {g : SenderGroup}, (∀ s ∈ g.senders, s.Capped cap) →
      ∀ s ∈ (g.run events).senders, s.Capped cap := by
  induction events with
  | nil => intro g h; exact h
  | cons event events ih =>
    intro g h
    exact ih (capped_step h event.1 event.2)

theorem capped_start (o : ClientOptions) (servers : Nat) (firstId : UInt32)
    (plan : Nat → RequestPlan) (now : Nat → Nat) :
    ∀ s ∈ (start o servers firstId plan now).senders, s.Capped o.portCap := by
  intro s hs
  obtain ⟨port, -, rfl⟩ := List.mem_map.mp hs
  have hcap : max o.portCap 1 = o.portCap := Nat.max_eq_left (Nat.le_max_right _ _)
  have hfresh := Sender.capped_start
    (.new (plan port).sequences o.portCap (plan port).lengthLimit (now port)) servers
    o.ringCapacity firstId (List.replicate (plan port).longest 0) o.receivers
  rw [Scheduler.new, hcap] at hfresh
  rw [RequestPlan.sender, Scheduler.new, hcap]
  exact hfresh

/-- **Ports stay within the limit.** The senders of a command look, send and count in any order, and any
responses are counted on any port at any time, be they late, repeated or to no request at all. Then
each port has issued at most its share of the limit more than it has counted responses, where a share is
rounded down but is never nothing; and what is unanswered on all ports together is within the limit, or
is at most one request for each port if the limit is less than that. -/
theorem run_capped (o : ClientOptions) (servers : Nat) (firstId : UInt32) (plan : Nat → RequestPlan)
    (now : Nat → Nat) (events : List (Nat × SenderEvent)) :
    let g := (start o servers firstId plan now).run events
    g.senders.length = o.ports ∧
      (∀ s ∈ g.senders, s.stats.requests = s.issued ∧
        s.issued ≤ s.stats.responses + max 1 (o.clientMax / o.ports)) ∧
      (g.senders.map fun s => s.issued - s.stats.responses).sum ≤ max o.clientMax o.ports := by
  intro g
  have hlength : g.senders.length = o.ports := by
    rw [length_run, start, List.length_map, List.length_range]
  have hcapped := capped_run events (capped_start o servers firstId plan now)
  refine ⟨hlength, ?_, ?_⟩
  · intro s hs
    have hports : 1 ≤ o.ports := by
      rw [← hlength]
      exact List.length_pos_of_mem hs
    have hbound := (hcapped s hs).bound
    rw [ClientOptions.portCap_eq hports] at hbound
    exact ⟨(hcapped s hs).requests_eq, hbound⟩
  · have heach : ∀ n ∈ g.senders.map fun s => s.issued - s.stats.responses, n ≤ o.portCap := by
      intro n hn
      obtain ⟨s, hs, rfl⟩ := List.mem_map.mp hn
      have hbound := (hcapped s hs).bound
      omega
    calc (g.senders.map fun s => s.issued - s.stats.responses).sum
        ≤ (g.senders.map fun s => s.issued - s.stats.responses).length • o.portCap :=
          List.sum_le_card_nsmul _ _ heach
      _ = o.ports * o.portCap := by rw [List.length_map, hlength, smul_eq_mul]
      _ ≤ max o.clientMax o.ports := o.ports_mul_portCap_le

end SenderGroup

end EchoLoad
