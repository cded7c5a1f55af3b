import EchoLoad.Proofs.Framing.Waiting
import EchoLoad.Stream.Client

/-!
# What the calls on a client do to its connections

A connection of a client is open or closed, and if it is open something waits in its queue or nothing
does. What a call leaves is known from what was there:

> `Client.send?_sent`, `Client.resume_resumed`: what can come of sending a request and of writing what
> waits.

> `Client.connection?_receive`: a receiver closes a connection or leaves its queue alone.

A request for a server for which something waits never goes out ahead of that (`Client.send?_behind`).
-/

namespace EchoLoad.Stream

open Framing

namespace Client

/-- The connection of a server, as long as it is open. -/
def connection? (c : Client) (server : Nat) : Option Framer := (c.connections[server]?).join

/-- The connection of the server is open, and something waits in its queue. -/
def Waits (c : Client) (server : Nat) : Prop :=
  ∃ f, c.connection? server = some f ∧ f.pending ≠ 0

/-- The connection of the server is open, and nothing waits in its queue. -/
def Idle (c : Client) (server : Nat) : Prop :=
  ∃ f, c.connection? server = some f ∧ f.pending = 0

variable {c : Client} {server : Nat}

theorem getElem?_of_connection? {f : Framer} (h : c.connection? server = some f) :
    c.connections[server]? = some (some f) := Option.join_eq_some_iff.mp h

theorem lt_size_of_connection? {f : Framer} (h : c.connection? server = some f) :
    server < c.connections.size := (Array.getElem?_eq_some_iff.mp (getElem?_of_connection? h)).1

theorem size_put (c : Client) (server : Nat) (f : Framer) :
    (c.put server f).connections.size = c.connections.size := Array.size_setIfInBounds

theorem connection?_put (h : server < c.connections.size) (f : Framer) (other : Nat) :
    (c.put server f).connection? other = if other = server then some f else c.connection? other := by
  show ((c.connections.setIfInBounds server (some f))[other]?).join = _
  rw [Array.getElem?_setIfInBounds]
  by_cases hother : other = server
  · rw [if_pos hother.symm, if_pos h, if_pos hother]
    rfl
  · rw [if_neg (Ne.symm hother), if_neg hother]
    rfl

theorem waits_put (h : server < c.connections.size) (f : Framer) (other : Nat) :
    (c.put server f).Waits other ↔ if other = server then f.pending ≠ 0 else c.Waits other := by
  unfold Waits
  rw [connection?_put h]
  split <;> simp

theorem idle_put (h : server < c.connections.size) (f : Framer) (other : Nat) :
    (c.put server f).Idle other ↔ if other = server then f.pending = 0 else c.Idle other := by
  unfold Idle
  rw [connection?_put h]
  split <;> simp

/-- **A request never goes out ahead of those that wait**: it is put behind them, and nothing is
written. -/
theorem send?_behind {before : Framer} (hopen : c.connection? server = some before)
    (hwaits : before.pending ≠ 0) (frame : Frame) (writes : List WriteOutcome) :
    ∃ outbound : Outbound,
      c.send? server frame writes =
        some ⟨c.put server { before with outbound := outbound }, [], .ok ()⟩ ∧
      outbound.queue = before.outbound.queue ++ [frame] ∧
      outbound.sent = before.outbound.sent := by
  obtain ⟨hresult, hcalls, -, hqueue, hsent⟩ := Outbound.enqueue_busy hwaits frame writes
  have hwritten : (before.outbound.enqueue frame writes).written = [] := by
    rw [Drained.written, hcalls]
    rfl
  refine ⟨(before.outbound.enqueue frame writes).outbound, ?_, hqueue, hsent⟩
  simp only [send?, getElem?_of_connection? hopen, hresult, hwritten, hwaits, decide_false,
    Bool.and_false]
  rfl

/-- What can come of sending a request. -/
inductive Sent (c : Client) (server : Nat) : ClientRun Unit → Prop
  /-- the connection is closed -/
  | closed (gone : c.connection? server = none) : Sent c server ⟨c, [], .error .peerClosed⟩
  /-- something waits already, and the request is put behind it -/
  | behind {before after : Framer} (opened : c.connection? server = some before)
      (waits : before.pending ≠ 0) (still : after.pending ≠ 0) :
      Sent c server ⟨c.put server after, [], .ok ()⟩
  /-- the request is written -/
  | written {before after : Framer} {bytes : Bytes} (opened : c.connection? server = some before)
      (idle : before.pending = 0) (empty : after.pending = 0) :
      Sent c server ⟨c.put server after, bytes, .ok ()⟩
  /-- the request waits, and the server comes into the backlog -/
  | backedUp {before after : Framer} {bytes : Bytes} (opened : c.connection? server = some before)
      (idle : before.pending = 0) (waits : after.pending ≠ 0) :
      Sent c server
        ⟨{ c.put server after with
            backlog := { c.backlog with servers := c.backlog.servers.push server } }, bytes, .ok ()⟩
  /-- writing failed -/
  | failed {before after : Framer} {bytes : Bytes} {e : SystemError}
      (opened : c.connection? server = some before) (idle : before.pending = 0) :
      Sent c server ⟨c.put server after, bytes, .error (.system e)⟩

/-- **Sending is one of these.** -/
theorem send?_sent (h : server < c.connections.size) (frame : Frame) (writes : List WriteOutcome) :
    ∃ run, c.send? server frame writes = some run ∧ c.Sent server run := by
  obtain ⟨slot, hslot⟩ : ∃ slot, c.connections[server]? = some slot := ⟨_, Array.getElem?_eq_getElem h⟩
  cases slot with
  | none =>
    refine ⟨_, by rw [send?, hslot], .closed ?_⟩
    rw [connection?, hslot]
    rfl
  | some framer =>
    have hopen : c.connection? server = some framer := by
      rw [connection?, hslot]
      rfl
    simp only [send?, hslot]
    by_cases hidle : framer.pending = 0
    · cases hresult : (framer.outbound.enqueue frame writes).result with
      | error e => exact ⟨_, rfl, .failed hopen hidle⟩
      | ok complete =>
        have hempty := Outbound.enqueue_ok hresult
        simp only [hidle, decide_true, Bool.and_true]
        cases complete with
        | true => exact ⟨_, rfl, .written hopen hidle (hempty.mp rfl)⟩
        | false => exact ⟨_, rfl, .backedUp hopen hidle fun h => Bool.noConfusion (hempty.mpr h)⟩
    · obtain ⟨outbound, hrun, hqueue, -⟩ := send?_behind hopen hidle frame writes
      simp only [send?, hslot] at hrun
      exact ⟨_, hrun, .behind hopen hidle (Outbound.pending_ne_zero hqueue)⟩

/-- What can come of writing what waits. -/
inductive Resumed (c : Client) (server : Nat) : ClientRun Bool → Prop
  /-- the connection is closed, and nothing is left -/
  | closed (gone : c.connection? server = none) : Resumed c server ⟨c, [], .ok true⟩
  /-- nothing is left -/
  | drained {before after : Framer} {bytes : Bytes} (opened : c.connection? server = some before)
      (empty : after.pending = 0) : Resumed c server ⟨c.put server after, bytes, .ok true⟩
  /-- something still waits -/
  | stuck {before after : Framer} {bytes : Bytes} (opened : c.connection? server = some before)
      (waits : after.pending ≠ 0) : Resumed c server ⟨c.put server after, bytes, .ok false⟩
  /-- writing failed -/
  | failed {before after : Framer} {bytes : Bytes} {e : SystemError}
      (opened : c.connection? server = some before) (waits : after.pending ≠ 0) :
      Resumed c server ⟨c.put server after, bytes, .error (.system e)⟩

/-- **Writing what waits is one of these.** -/
theorem resume_resumed (c : Client) (server : Nat) (writes : List WriteOutcome) :
    c.Resumed server (c.resume server writes) := by
  cases hopen : c.connection? server with
  | none =>
    have hslot : (c.connections[server]?).join = none := hopen
    simp only [resume, hslot]
    exact .closed hopen
  | some framer =>
    have hslot : (c.connections[server]?).join = some framer := hopen
    simp only [resume, hslot]
    cases hresult : (framer.outbound.drain writes).result with
    | error e => exact .failed hopen (Outbound.drain_error hresult)
    | ok empty =>
      have hempty := Outbound.drain_ok hresult
      cases empty with
      | true => exact .drained hopen (hempty.mp rfl)
      | false => exact .stuck hopen fun h => Bool.noConfusion (hempty.mpr h)

theorem backlog_resume (c : Client) (server : Nat) (writes : List WriteOutcome) :
    (c.resume server writes).client.backlog = c.backlog := by
  unfold resume
  split <;> rfl

/-- **A receiver leaves what waits alone**; all it does to a connection is to close it. -/
theorem connection?_receive {mode : ReadMode} {reads : List ReadOutcome} {other : Nat} {f : Framer}
    (h : (c.receive mode server reads).2.connection? other = some f) :
    ∃ before, c.connection? other = some before ∧ before.pending = f.pending := by
  cases hslot : (c.connections[server]?).join with
  | none =>
    simp only [receive, hslot] at h
    exact ⟨f, h, rfl⟩
  | some framer =>
    simp only [receive, hslot] at h
    generalize framer.inbound.read mode reads = run at h
    have hlt := lt_size_of_connection? (c := c) hslot
    by_cases hother : server = other
    · subst hother
      have h' : ((c.connections.setIfInBounds server _)[server]?).join = some f := h
      rw [Array.getElem?_setIfInBounds, if_pos rfl, if_pos hlt, Option.join_some] at h'
      split at h'
      · cases h'
        exact ⟨framer, hslot, rfl⟩
      · cases h'
    · have h' : ((c.connections.setIfInBounds server _)[other]?).join = some f := h
      rw [Array.getElem?_setIfInBounds, if_neg hother] at h'
      exact ⟨f, h', rfl⟩

theorem Waits.of_receive {mode : ReadMode} {reads : List ReadOutcome} {other : Nat}
    (h : (c.receive mode server reads).2.Waits other) : c.Waits other := by
  obtain ⟨f, hf, hpending⟩ := h
  obtain ⟨before, hbefore, hsame⟩ := connection?_receive hf
  exact ⟨before, hbefore, hsame ▸ hpending⟩

theorem Idle.of_receive {mode : ReadMode} {reads : List ReadOutcome} {other : Nat}
    (h : (c.receive mode server reads).2.Idle other) : c.Idle other := by
  obtain ⟨f, hf, hpending⟩ := h
  obtain ⟨before, hbefore, hsame⟩ := connection?_receive hf
  exact ⟨before, hbefore, hsame.trans hpending⟩

theorem size_receive (c : Client) (mode : ReadMode) (server : Nat) (reads : List ReadOutcome) :
    (c.receive mode server reads).2.connections.size = c.connections.size := by
  unfold receive
  split
  · rfl
  · exact Array.size_setIfInBounds

theorem backlog_receive (c : Client) (mode : ReadMode) (server : Nat) (reads : List ReadOutcome) :
    (c.receive mode server reads).2.backlog = c.backlog := by
  unfold receive
  split <;> rfl

end Client

end EchoLoad.Stream
