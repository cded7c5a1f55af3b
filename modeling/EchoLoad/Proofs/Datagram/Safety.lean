import EchoLoad.Proofs.Datagram.Conservation
import EchoLoad.Proofs.Stats.Sampling
import Mathlib.Data.List.Induction
import Mathlib.Data.List.Nodup
import Mathlib.Data.List.Perm.Subperm

/-!
# What a client makes of the responses

There is no table of the requests under way: whatever comes back is taken for a response, by the header
that it has. In a network that loses and reorders datagrams, but makes none up, this is enough:

> `Exchange.run_safe`: each response that is handed on has the number and the header of a request that
> was sent, a different one for each response; it is recorded with the length of that request and the
> time since it was issued. So no server is counted more responses than requests were sent to it.

The first part weighs messages (`Tally.message`), the number of requests that a server counts is weighed
likewise (`Tally.counted`). The records of the client are read off what was handed on (`Records`).
-/

namespace EchoLoad.Datagram

variable {α : Type}

/-! ## What is weighed -/

theorem sum_map_indicator {β : Type} (p : β → Prop) [DecidablePred p] (l : List β) :
    (l.map fun x => if p x then 1 else 0).sum = l.countP (p ·) := by
  induction l with
  | nil => rfl
  | cons x l ih =>
    rw [List.map_cons, List.sum_cons, List.countP_cons, ih, Nat.add_comm]
    simp only [decide_eq_true_eq]

/-- A message that the client would take for the response to a call, with a header. -/
def Answers (call : UInt64) (header : Header) (c : UInt64 × Bytes) : Prop :=
  c.1 = call ∧ responseHeader? c.2 = some header

instance (call : UInt64) (header : Header) : DecidablePred (Answers call header) :=
  fun c => inferInstanceAs (Decidable (c.1 = call ∧ responseHeader? c.2 = some header))

theorem answers_iff {message : Bytes} {h : Header} (hh : responseHeader? message = some h)
    (c call : UInt64) (header : Header) :
    Answers call header (c, message) ↔ c = call ∧ h = header := by
  unfold Answers
  rw [hh, Option.some.injEq]

/-- A thread weighs what it is about to send. -/
def WorkerPhase.weight (call : UInt64) (header : Header) : WorkerPhase α → Nat
  | .replying r => if Answers call header (r.call, r.message) then 1 else 0
  | _ => 0

namespace Tally

/-- Messages with the number of a call and a header, whatever their kind. -/
def message (call : UInt64) (header : Header) : Tally α where
  packet _ datagram := if Answers call header (content datagram) then 1 else 0
  thread _ t := t.phase.weight call header
  response r := if r.call = call ∧ r.header = header then 1 else 0
  request r := if r.call = call ∧ r.frame.header = header then 1 else 0
  fresh _ := rfl
  sent := by
    intro r datagram hannounced hencode
    obtain ⟨-, hcontent⟩ := encode_eq_ok hencode
    rw [flatten_requestPieces] at hcontent
    simp only [hcontent, answers_iff (responseHeader?_encode hannounced)]
    exact Nat.le_refl _
  received := by
    intro address t peer datagram d hphase hdecode
    obtain ⟨-, -, hcontent, hroom⟩ := decode?_eq_some hdecode
    have hlimit : messageLimit ≤ datagramLimit := by decide
    have hreply := Worker.accept_reply (w := t.worker) (d := d) (by rw [t.roomy]; omega)
    show (WorkerPhase.replying (t.worker.accept d).1).weight call header ≤ _
    rw [hreply, hcontent]
    exact Nat.le_add_right _ _
  passed := by
    intro address t e hphase
    cases e <;> exact Nat.zero_le _
  replied := by
    intro address t r datagram hphase hencode
    obtain ⟨-, hcontent⟩ := encode_eq_ok hencode
    have hmessage : [r.message].flatten = r.message := List.append_nil _
    rw [hcontent, hmessage, hphase]
    exact Nat.le_refl _
  refused := by
    intro address t r e hphase
    exact Nat.zero_le _
  handed := by
    intro address finish peer datagram d r hdecode hr
    obtain ⟨-, -, hcontent, -⟩ := decode?_eq_some hdecode
    obtain ⟨header', hheader, rfl⟩ := Option.map_eq_some_iff.mp hr
    simp only [hcontent, answers_iff hheader]
    exact Nat.le_refl _

/-- Requests for some addresses, and those that the servers there counted. -/
def counted (q : α → Bool) : Tally α where
  packet address datagram :=
    if q address = true ∧ datagram.head? = some Kind.request.code then 1 else 0
  thread address t := if q address = true then t.worker.stats.requests else 0
  response _ := 0
  request r := if q r.target = true then 1 else 0
  fresh address := by
    split <;> rfl
  sent := by
    intro r datagram _ hencode
    obtain ⟨hkind, -⟩ := encode_eq_ok hencode
    simp only [hkind, and_true]
    exact Nat.le_refl _
  received := by
    intro address t peer datagram d _ hdecode
    obtain ⟨hkind, -, -, -⟩ := decode?_eq_some hdecode
    by_cases hq : q address = true
    · simp only [hq, hkind, true_and, if_true]
      have hcount := ServerStats.requests_record_le t.worker.stats
        (min d.message.length t.worker.buffer.length)
      rw [Nat.add_comm]
      exact hcount
    · rw [if_neg hq, if_neg hq]
      exact Nat.zero_le _
  passed := by
    intro address t e _
    cases e <;> exact Nat.le_refl _
  replied := by
    intro address t r datagram _ hencode
    obtain ⟨hkind, -⟩ := encode_eq_ok hencode
    have hother : ¬ datagram.head? = some Kind.request.code := by
      rw [hkind]
      decide
    rw [if_neg fun h => hother h.2, Nat.zero_add]
    exact Nat.le_refl _
  refused := by
    intro address t r e _
    exact Nat.le_refl _
  handed := by
    intro address finish peer datagram d r _ _
    exact Nat.zero_le _

end Tally

/-- The requests that the workers of a server counted. -/
def Server.requests (s : Server α) : Nat := (s.threads.map (·.worker.stats.requests)).sum

/-! ## What is recorded -/

/-- The sample of a response. -/
def Response.sample (r : Response) : Sample :=
  ⟨ClientStats.countedLength r.header, elapsedTicks r.header.issueTime (UInt32.ofNat r.finish)⟩

/-- The counters of a client that handed on these responses. -/
structure Records (servers capacity : Nat) (handed : List Response) (s : ClientStats) : Prop where
  responses : s.responses = handed.length
  bytes : s.responseBytes = (handed.map (·.sample.length.toNat)).sum
  ticks : s.totalRtt = (handed.map (·.sample.rtt.toNat)).sum
  answeredBy : ∀ server < servers,
    s.answeredBy[server]? = some (handed.countP fun r => r.header.serverId.toInt = (server : Int))
  size : s.answeredBy.size = servers
  kept : s.Keeps (max capacity 1) (handed.map Response.sample)

theorem one_le_countedLength (h : Header) : 1 ≤ ClientStats.countedLength h := by
  unfold ClientStats.countedLength
  split
  next => exact UInt32.le_refl 1
  next hlength =>
    have hone : (1 : Int32).toInt = 1 := rfl
    have hint := mt Int32.lt_iff_toInt_lt.mpr hlength
    have hnat := Int32.toNat_toUInt32_of_le (x := h.length) (Int32.le_iff_toInt_le.mpr (by
      have hzero : (0 : Int32).toInt = 0 := rfl
      omega))
    have hclamp : h.length.toNatClampNeg = h.length.toInt.toNat := rfl
    rw [UInt32.le_iff_toNat_le]
    have : (1 : UInt32).toNat = 1 := rfl
    omega

theorem records_new (servers capacity : Nat) :
    Records servers capacity [] (.new servers capacity) where
  responses := rfl
  bytes := rfl
  ticks := rfl
  answeredBy := by
    intro server hserver
    show (Array.replicate servers 0)[server]? = some 0
    rw [Array.getElem?_replicate, if_pos hserver]
  size := Array.size_replicate
  kept := ClientStats.keeps_new servers capacity

theorem Records.record {servers capacity : Nat} {handed : List Response} {s : ClientStats}
    (h : Records servers capacity handed s) (r : Response) :
    Records servers capacity (handed ++ [r])
      (s.recordResponse r.header (UInt32.ofNat r.finish)) where
  responses := by
    rw [List.length_append, ← h.responses]
    rfl
  bytes := by
    rw [List.map_append, List.sum_append, ← h.bytes]
    rfl
  ticks := by
    rw [List.map_append, List.sum_append, ← h.ticks]
    rfl
  answeredBy := by
    intro server hserver
    show (ClientStats.countAnswer s.answeredBy r.header.serverId)[server]? = _
    rw [ClientStats.getElem?_countAnswer, h.answeredBy server hserver, List.countP_append,
      List.countP_singleton]
    simp only [Option.map_some, decide_eq_true_eq]
  size := by
    rw [← h.size]
    exact ClientStats.size_countAnswer _ _
  kept := by
    rw [List.map_append]
    exact h.kept.record (one_le_countedLength r.header) _ _

/-- The low bits of two ticks are enough for the time between them, as far as it has no more bits. -/
theorem elapsedTicks_ofNat (issued finish : Nat) :
    ((elapsedTicks (UInt32.ofNat issued) (UInt32.ofNat finish)).toNat : Int) =
      ((finish : Int) - issued) % 4294967296 := by
  rw [elapsedTicks, UInt32.toNat_sub, UInt32.toNat_ofNat', UInt32.toNat_ofNat']
  omega

/-- A length of sixteen or more is counted as it is. -/
theorem toNat_countedLength {h : Header} {n : Nat} (hn : 1 ≤ n) (hlength : h.length.toInt = n) :
    (ClientStats.countedLength h).toNat = n := by
  have hzero : (0 : Int32).toInt = 0 := rfl
  have hone : (1 : Int32).toInt = 1 := rfl
  have hshort : ¬ h.length < 1 := by
    rw [Int32.lt_iff_toInt_lt]
    omega
  have hnat := Int32.toNat_toUInt32_of_le (x := h.length) (Int32.le_iff_toInt_le.mpr (by omega))
  have hclamp : h.length.toNatClampNeg = h.length.toInt.toNat := rfl
  rw [ClientStats.countedLength, if_neg hshort, hnat, hclamp]
  omega

/-! ## What happened -/

namespace Exchange

/-- What the client has is what the history says, after so many calls. -/
structure Recounts (servers : List α) (capacity calls : Nat) (x : Exchange α) : Prop where
  table : x.client.servers = servers
  nextCall : x.client.endpoint.nextCall = UInt64.ofNat (1 + calls)
  numbers : (x.sent.map (·.call)).Sublist ((List.range calls).map fun i => UInt64.ofNat (1 + i))
  targets : ∀ q ∈ x.sent, servers[q.server]? = some q.target
  announced : ∀ q ∈ x.sent, q.frame.header.length.toInt = q.frame.length
  records : Records servers.length capacity x.handed x.client.stats

variable {servers : List α} {capacity calls : Nat} {x : Exchange α}

theorem recounts_start (address : α) (servers : List α) (capacity : Nat) (listening : List (α × Nat)) :
    Recounts servers capacity 0 (start address servers capacity listening) where
  table := rfl
  nextCall := rfl
  numbers := List.Sublist.refl _
  targets := by
    intro q hq
    cases hq
  announced := by
    intro q hq
    cases hq
  records := records_new servers.length capacity

/-- Where nothing is sent or handed on, the endpoint of the client may change but for its numbers. -/
theorem Recounts.quiet (h : Recounts servers capacity calls x) (endpoint : Endpoint α)
    (hnext : endpoint.nextCall = x.client.endpoint.nextCall) (others : List (Server α))
    (inFlight : List (Packet α)) :
    Recounts servers capacity calls
      { x with
        client := { x.client with endpoint := endpoint }
        servers := others
        inFlight := inFlight } :=
  ⟨h.table, hnext.trans h.nextCall, h.numbers, h.targets, h.announced, h.records⟩

theorem Recounts.send (h : Recounts servers capacity calls x) (server : Nat) (header : Header)
    (fill : Bytes) (fault : Option SystemError) :
    ∃ calls' ≤ calls + 1, Recounts servers capacity calls' (x.send server header fill fault) := by
  have hsame : ∃ calls' ≤ calls + 1, Recounts servers capacity calls' x :=
    ⟨calls, Nat.le_succ calls, h⟩
  unfold Exchange.send
  cases hbuilt : Frame.build? header fill with
  | none => exact hsame
  | some frame =>
    dsimp only
    unfold sendFrame
    cases hsent : x.client.send? server frame fault with
    | none => exact hsame
    | some outcome =>
      obtain ⟨result, client⟩ := outcome
      obtain ⟨rfl, hresult⟩ := Client.send?_eq_some hsent
      refine ⟨calls + 1, Nat.le_refl _, ?_⟩
      have hnext : x.client.endpoint.nextCall + 1 = UInt64.ofNat (1 + (calls + 1)) := by
        rw [h.nextCall, ← Nat.add_assoc, UInt64.ofNat_add (1 + calls)]
        rfl
      have hmore : (List.range (calls + 1)).map (fun i => UInt64.ofNat (1 + i)) =
          (List.range calls).map (fun i => UInt64.ofNat (1 + i)) ++ [x.client.endpoint.nextCall] := by
        rw [List.range_succ, List.map_append, h.nextCall]
        rfl
      cases result with
      | error e =>
        refine ⟨h.table, hnext, ?_, h.targets, h.announced, h.records⟩
        rw [hmore]
        exact h.numbers.trans (List.sublist_append_left _ _)
      | ok made =>
        obtain ⟨call, packet⟩ := made
        obtain ⟨rfl, htarget, -⟩ := hresult call packet rfl
        refine ⟨h.table, hnext, ?_, ?_, ?_, h.records⟩
        · rw [hmore]
          show ((x.sent ++ [_]).map Request.call).Sublist _
          rw [List.map_append]
          exact h.numbers.append (List.Sublist.refl _)
        · intro q hq
          rcases List.mem_append.mp hq with hq | hq
          · exact h.targets q hq
          · rw [List.mem_singleton.mp hq, ← h.table]
            exact htarget
        · intro q hq
          rcases List.mem_append.mp hq with hq | hq
          · exact h.announced q hq
          · rw [List.mem_singleton.mp hq]
            exact (Frame.build?_eq_some hbuilt).2

theorem Recounts.atServer (h : Recounts servers capacity calls x) (server : Nat)
    (f : Server α → Option (Packet α) × Server α) :
    Recounts servers capacity calls (x.atServer server f) := by
  unfold Exchange.atServer
  cases x.servers[server]? with
  | none => exact h
  | some s => exact h.quiet x.client.endpoint rfl _ _

theorem Recounts.wait (h : Recounts servers capacity calls x) (finish : Nat) :
    Recounts servers capacity calls (x.wait finish) := by
  cases hreceive : x.client.endpoint.receive .response datagramLimit with
  | mk outcome rest =>
    obtain ⟨hnext, -, -⟩ := Endpoint.receive_eq hreceive
    have hendpoint : (x.client.wait finish).2.endpoint = rest := congrArg Prod.snd hreceive
    have hrecords : Records servers.length capacity
        (x.handed ++ (x.client.wait finish).1.toList) (x.client.wait finish).2.stats := by
      show Records servers.length capacity _ ((x.client.wait finish).1.elim x.client.stats _)
      cases (x.client.wait finish).1 with
      | none =>
        rw [Option.toList_none, List.append_nil]
        exact h.records
      | some r => exact h.records.record r
    refine ⟨h.table, ?_, h.numbers, h.targets, h.announced, hrecords⟩
    show (x.client.wait finish).2.endpoint.nextCall = _
    rw [hendpoint, hnext]
    exact h.nextCall

variable [DecidableEq α]

theorem Recounts.step (h : Recounts servers capacity calls x) (e : ExchangeEvent) :
    ∃ calls' ≤ calls + 1, Recounts servers capacity calls' (x.step e) := by
  cases e with
  | send server header fill fault => exact h.send server header fill fault
  | lose packet => exact ⟨calls, Nat.le_succ calls, h.quiet x.client.endpoint rfl _ _⟩
  | arrive packet =>
    refine ⟨calls, Nat.le_succ calls, ?_⟩
    show Recounts servers capacity calls (x.arrive packet)
    unfold Exchange.arrive
    split
    next => exact h
    next p _ =>
      split
      next => exact h.quiet (x.client.endpoint.arrive p.source p.bytes) rfl _ _
      next => exact h
  | arriveAt packet server =>
    refine ⟨calls, Nat.le_succ calls, ?_⟩
    show Recounts servers capacity calls (x.arriveAt packet server)
    unfold Exchange.arriveAt
    split
    next =>
      split
      next => exact h.quiet x.client.endpoint rfl _ _
      next => exact h
    next => exact h
  | receive server thread => exact ⟨calls, Nat.le_succ calls, h.atServer server _⟩
  | reply server thread fault => exact ⟨calls, Nat.le_succ calls, h.atServer server _⟩
  | wait finish => exact ⟨calls, Nat.le_succ calls, h.wait finish⟩
  | shutDown => exact ⟨calls, Nat.le_succ calls, h.quiet x.client.endpoint.shutDown rfl _ _⟩
  | shutDownAt server => exact ⟨calls, Nat.le_succ calls, h.atServer server _⟩

theorem recounts_run (address : α) (servers : List α) (capacity : Nat) (listening : List (α × Nat))
    (events : List ExchangeEvent) :
    ∃ calls ≤ events.length,
      Recounts servers capacity calls ((start address servers capacity listening).run events) := by
  induction events using List.reverseRecOn with
  | nil => exact ⟨0, Nat.le_refl 0, recounts_start address servers capacity listening⟩
  | append_singleton events e ih =>
    obtain ⟨calls, hcalls, h⟩ := ih
    obtain ⟨calls', hcalls', h'⟩ := h.step e
    refine ⟨calls', ?_, ?_⟩
    · rw [List.length_append, List.length_singleton]
      omega
    · rw [run_append]
      exact h'

/-! ## Results -/

theorem count_map_pair {β : Type} (f : β → UInt64) (g : β → Header) (l : List β) (call : UInt64)
    (header : Header) :
    (l.map fun x => (f x, g x)).count (call, header) =
      l.countP fun x => f x = call ∧ g x = header := by
  rw [List.count, List.countP_map]
  apply List.countP_congr
  intro x _
  simp only [Function.comp_apply, beq_iff_eq, Prod.mk.injEq, decide_eq_true_eq]

omit [DecidableEq α] in
/-- What weighs no more than the requests has a request of its own for each response. -/
theorem handed_subperm (h : ∀ call header, (Tally.message call header).Covers x) :
    (x.handed.map fun r => (r.call, r.header)).Subperm
      (x.sent.map fun q => (q.call, q.frame.header)) := by
  -- it is enough to count each number with each header on both sides
  rw [List.subperm_ext_iff]
  rintro ⟨call, header⟩ -
  have hweight := h call header
  unfold Tally.Covers Tally.message at hweight
  dsimp only at hweight
  rw [sum_map_indicator, sum_map_indicator] at hweight
  rw [count_map_pair, count_map_pair]
  omega

theorem sum_map_filter_le {β : Type} (p : β → Bool) {f g : β → Nat} (hfg : ∀ x, p x = true → f x ≤ g x)
    (l : List β) : ((l.filter p).map f).sum ≤ (l.map g).sum := by
  induction l with
  | nil => exact Nat.le_refl 0
  | cons x l ih =>
    rw [List.filter_cons, List.map_cons, List.sum_cons]
    by_cases hx : p x = true
    · have := hfg x hx
      rw [if_pos hx, List.map_cons, List.sum_cons]
      omega
    · rw [if_neg hx]
      omega

omit [DecidableEq α] in
/-- The servers at some addresses counted no more requests than were sent there. -/
theorem requests_le {q : α → Bool} (h : (Tally.counted q).Covers x) :
    ((x.servers.filter (q ·.address)).map Server.requests).sum ≤ x.sent.countP (q ·.target) := by
  have hserver (s : Server α) (hs : q s.address = true) :
      s.requests ≤ (Tally.counted q).server s := by
    unfold Tally.server Tally.counted
    simp only [hs, if_true]
    exact Nat.le_add_left _ _
  have hsum := sum_map_filter_le (q ·.address) hserver x.servers
  unfold Tally.Covers at h
  have hsent : (x.sent.map (Tally.counted q).request).sum = x.sent.countP (q ·.target) := by
    show (x.sent.map fun r => if q r.target = true then 1 else 0).sum = _
    rw [sum_map_indicator]
    simp only [Bool.decide_eq_true]
  omega

/-- What is safe about an exchange with the servers of a table. -/
structure Safe (servers : List α) (capacity : Nat) (x : Exchange α) : Prop where
  /-- each response that was handed on is that of a request of its own -/
  answers : (x.handed.map fun r => (r.call, r.header)).Subperm
    (x.sent.map fun q => (q.call, q.frame.header))
  /-- its sample has the length of the request, and the time since the tick in the header -/
  sampled : ∀ r ∈ x.handed, ∃ q ∈ x.sent, q.call = r.call ∧ q.frame.header = r.header ∧
    r.sample.length.toNat = q.frame.length ∧
      ∀ issued : Nat, q.frame.header.issueTime = UInt32.ofNat issued →
        (r.sample.rtt.toNat : Int) = ((r.finish : Int) - issued) % 4294967296
  kept : x.client.stats.drainSamples.1 = (x.handed.map Response.sample).rtake (max capacity 1)
  bytes : x.client.stats.responseBytes = (x.handed.map (·.sample.length.toNat)).sum
  ticks : x.client.stats.totalRtt = (x.handed.map (·.sample.rtt.toNat)).sum
  responses : x.client.stats.responses = x.handed.length
  responses_le : x.client.stats.responses ≤ x.sent.length
  targets : ∀ q ∈ x.sent, servers[q.server]? = some q.target
  /-- as long as each request names the server that it is sent to -/
  answeredBy_le : (∀ q ∈ x.sent, q.frame.header.serverId.toInt = q.server) → ∀ server n,
    x.client.stats.answeredBy[server]? = some n → n ≤ x.sent.countP fun q => q.server = server
  requests_le : ∀ address, ((x.servers.filter (·.address = address)).map Server.requests).sum ≤
    x.sent.countP fun q => q.target = address
  total_le : (x.servers.map Server.requests).sum ≤ x.sent.length

theorem Recounts.safe (h : Recounts servers capacity calls x) (hall : ∀ T : Tally α, T.Covers x) :
    x.Safe servers capacity := by
  have hanswers := handed_subperm fun call header => hall (Tally.message call header)
  have hrecords := h.records
  refine ⟨hanswers, ?_, hrecords.kept.drainSamples.1, hrecords.bytes, hrecords.ticks,
    hrecords.responses, ?_, h.targets, ?_, ?_, ?_⟩
  · intro r hr
    obtain ⟨q, hq, hpair⟩ := List.mem_map.mp (hanswers.subset (List.mem_map_of_mem hr))
    obtain ⟨hcall, hheader⟩ := Prod.mk.inj hpair
    refine ⟨q, hq, hcall, hheader, ?_, ?_⟩
    · show (ClientStats.countedLength r.header).toNat = _
      rw [← hheader]
      exact toNat_countedLength (Nat.le_trans (by decide) q.frame.size_le_length) (h.announced q hq)
    · intro issued hissued
      show ((elapsedTicks r.header.issueTime (UInt32.ofNat r.finish)).toNat : Int) = _
      rw [← hheader, hissued]
      exact elapsedTicks_ofNat issued r.finish
  · have hlength := hanswers.length_le
    rw [List.length_map, List.length_map] at hlength
    rw [hrecords.responses]
    exact hlength
  · intro hnames server n hn
    have hknown : server < servers.length := by
      rw [← hrecords.size]
      exact (Array.getElem?_eq_some_iff.mp hn).1
    rw [hrecords.answeredBy server hknown, Option.some.injEq] at hn
    -- a response is counted for the server that its header names, which is that of its request
    have hcount := hanswers.countP_le fun l => l.2.serverId.toInt = (server : Int)
    rw [List.countP_map, List.countP_map] at hcount
    rw [← hn]
    refine Nat.le_trans hcount (List.countP_mono_left ?_)
    intro q hq hserver
    have hid := of_decide_eq_true hserver
    dsimp only at hid
    rw [hnames q hq] at hid
    exact decide_eq_true (by omega)
  · intro address
    exact requests_le (hall (Tally.counted (· = address)))
  · have htotal := requests_le (hall (Tally.counted fun _ => true))
    rw [List.filter_true, List.countP_true] at htotal
    exact htotal

/-- **Native echo is safe.** Whatever the client sends, whatever is lost, late or out of order, whichever
workers receive and reply in between, whatever the system refuses, each response that is handed on is
that of a request of its own, and is recorded as such; and the numbers of calls are all different until
they come round. -/
theorem run_safe (address : α) (servers : List α) (capacity : Nat) (listening : List (α × Nat))
    (events : List ExchangeEvent) :
    let x := (start address servers capacity listening).run events
    x.Safe servers capacity ∧
      (events.length < 18446744073709551616 → (x.sent.map Request.call).Nodup) := by
  obtain ⟨calls, hcalls, h⟩ := recounts_run address servers capacity listening events
  refine ⟨h.safe fun T => T.covers_run address servers capacity listening events, ?_⟩
  intro hfew
  -- calls that failed have used up numbers too, so those of the requests may have gaps
  refine h.numbers.nodup (List.Nodup.map_on ?_ List.nodup_range)
  intro i hi j hj hij
  rw [List.mem_range] at hi hj
  have hnat := congrArg UInt64.toNat hij
  rw [UInt64.toNat_ofNat', UInt64.toNat_ofNat'] at hnat
  omega

end Exchange

end EchoLoad.Datagram
