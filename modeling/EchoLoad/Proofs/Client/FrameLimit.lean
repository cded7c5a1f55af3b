import EchoLoad.Client.Plan
import EchoLoad.Proofs.Client.Turns
import EchoLoad.Proofs.Framing.Reassembly

/-!
# Requests and the frame limit

A port has a frame limit, which is meant to be that of its servers as well; a connection that meets a
longer frame fails. A stream port cuts its requests to a million bytes, and then does not look at the
limit; only a port that does not cut them so keeps them to it.

> `RequestPlan.run_fits`: a connection with the frame limit of the port takes each request, but for those
> of a port that cuts to a million bytes and has a lower limit: there it takes those up to the limit and
> refuses the longer ones.

> `RequestPlan.run_refused`: such a port, and a request of it that is refused.

What a request looks like is known from the turns of the sender (`Sender.isRequest_calls`), what a
connection makes of a frame is said by `Inbound.feed_fitting` and `Inbound.feed_oversized`.
-/

namespace EchoLoad

open Framing

/-! ## What a sender builds -/

/-- A request announces its own length, which is one of the drawn lengths, cut to the limit. -/
structure Frame.IsRequest (lengths : List Int32) (limit : Int32) (f : Frame) : Prop where
  announced : f.header.length.toInt = f.length
  drawn : ∃ n ∈ lengths, (f.length : Int) = max 16 (min n.toInt limit.toInt)

namespace Sender

variable {s t : Sender} {e : SenderEvent}

theorem Turn.scheduler (ht : s.Turn e t) :
    t.scheduler.sequences = s.scheduler.sequences ∧
      t.scheduler.lengthLimit = s.scheduler.lengthLimit := by
  cases ht with
  | recorded h finish => exact ⟨rfl, rfl⟩
  | unasked nothing => exact ⟨rfl, rfl⟩
  | turned active uncalled quiet alive => exact ⟨rfl, rfl⟩
  | issued checking ready selected built =>
    obtain ⟨-, -, rfl⟩ := Scheduler.select?_eq_some selected
    exact ⟨rfl, rfl⟩
  | unselected checking missing => exact ⟨rfl, rfl⟩
  | unbuilt checking selected missing =>
    obtain ⟨-, -, rfl⟩ := Scheduler.select?_eq_some selected
    exact ⟨rfl, rfl⟩
  | accepted sending counted moved =>
    obtain ⟨gap, -, -, rfl⟩ := Scheduler.reschedule?_eq_some moved
    exact ⟨rfl, rfl⟩
  | skipped sending moved =>
    obtain ⟨gap, -, -, rfl⟩ := Scheduler.reschedule?_eq_some moved
    exact ⟨rfl, rfl⟩
  | failed sending fatal => exact ⟨rfl, rfl⟩
  | uncounted sending missing => exact ⟨rfl, rfl⟩
  | unmoved sending missing kept => exact ⟨rfl, rfl⟩

/-- A call is one that the sender made before, or its frame is a request. -/
theorem Turn.isRequest (ht : s.Turn e t) {c : SendCall} (hc : t.phase.call? = some c) :
    s.phase.call? = some c ∨
      c.frame.IsRequest s.scheduler.sequences.lengths s.scheduler.lengthLimit := by
  cases ht with
  | recorded h finish => exact .inl hc
  | unasked nothing => exact .inl hc
  | @issued now chosen scheduler frame checking ready selected built =>
    right
    obtain rfl : (⟨chosen.server, frame, now⟩ : SendCall) = c := Option.some.inj hc
    obtain ⟨-, ⟨n, hn, hlength⟩, -⟩ := Scheduler.select?_eq_some selected
    obtain ⟨hheader, hannounced⟩ := Frame.build?_eq_some built
    refine ⟨hannounced, n, List.mem_of_getElem? hn, ?_⟩
    rw [← hannounced, hheader, Header.toInt_roundUp, ← max_clampLength, ← hlength]
    rfl
  | turned active uncalled quiet alive =>
    rw [show _ = none from quiet] at hc
    cases hc
  | accepted sending counted moved =>
    have hquiet : (if s.receivers = 0 then SenderPhase.waiting _ else .checking).call? = some c := hc
    split at hquiet <;> cases hquiet
  | unselected checking missing => cases hc
  | unbuilt checking selected missing => cases hc
  | skipped sending moved => cases hc
  | failed sending fatal => cases hc
  | uncounted sending missing => cases hc
  | unmoved sending missing kept => cases hc

/-- The requests under way are built from these lengths. -/
structure Requesting (lengths : List Int32) (limit : Int32) (s : Sender) : Prop where
  lengths_eq : s.scheduler.sequences.lengths = lengths
  limit_eq : s.scheduler.lengthLimit = limit
  isRequest : ∀ c, s.phase.call? = some c → c.frame.IsRequest lengths limit

theorem Requesting.step {lengths : List Int32} {limit : Int32} (h : s.Requesting lengths limit)
    (e : SenderEvent) : (s.step e).Requesting lengths limit := by
  have hturn := s.turn e
  obtain ⟨hsequences, hlimit⟩ := hturn.scheduler
  refine ⟨?_, hlimit.trans h.limit_eq, ?_⟩
  · rw [hsequences]
    exact h.lengths_eq
  · intro c hc
    rcases hturn.isRequest hc with hbefore | hnew
    · exact h.isRequest c hbefore
    · rw [h.lengths_eq, h.limit_eq] at hnew
      exact hnew

/-- **All calls of a sender carry requests.** -/
theorem isRequest_calls {lengths : List Int32} {limit : Int32}
    (hlengths : s.scheduler.sequences.lengths = lengths) (hlimit : s.scheduler.lengthLimit = limit)
    (hs : ∀ c, s.phase.call? = some c → c.frame.IsRequest lengths limit)
    (events : List SenderEvent) : ∀ c ∈ s.calls events, c.frame.IsRequest lengths limit :=
  forall_calls (fun _ e h => h.step e) (fun _ c (h : Requesting lengths limit _) => h.isRequest c) events
    ⟨hlengths, hlimit, hs⟩

end Sender

/-! ## What a port cuts its requests to -/

theorem ClientOptions.toInt_lengthLimit (o : ClientOptions) (limits : TransportLimits) :
    (o.lengthLimit limits).toInt =
      (min (if limits.bounded || o.truncate then limits.maxMessage else o.maxFrameLength)
        2147483647 : Nat) := by
  have hpow : Nat.pow 2 31 = 2147483648 := rfl
  unfold lengthLimit
  rw [hpow, Int32.toInt_ofNat_of_lt (by omega)]

/-- Which requests of a stream port are longer than its frame limit. -/
theorem ClientOptions.oversized_iff {o : ClientOptions} (hstream : o.protocol = .stream)
    (hmin : 16 ≤ o.maxFrameLength) (n : Int) :
    o.maxFrameLength < max 16 (min n (o.lengthLimit o.protocol.limits).toInt) ↔
      o.truncate = true ∧ o.maxFrameLength < min n 1000000 := by
  rw [toInt_lengthLimit, hstream]
  cases htruncate : o.truncate with
  | true =>
    simp only [Protocol.limits, Bool.or_true, if_true, true_and]
    omega
  | false =>
    simp only [Protocol.limits, Bool.or_false, Bool.false_eq_true, if_false, false_and, iff_false]
    omega

namespace RequestPlan

/-- **Which requests of a stream port its own frame limit takes.** Whatever lengths are drawn and
whatever happens to the sender, each request has one of these lengths, cut to the longest request of the
port. A connection with the frame limit of the port takes the request, unless the port cuts to a million
bytes and the limit is below that and below the drawn length: then the connection refuses it at its
header. So a port that does not cut to a million bytes, or has no lower limit, sends nothing to any server
at which such a connection fails, however the bytes are cut into chunks. -/
theorem run_fits {o : ClientOptions} (hstream : o.protocol = .stream)
    (hmin : 16 ≤ o.maxFrameLength) {p : RequestPlan}
    (hplan : p.lengthLimit = o.lengthLimit o.protocol.limits) (servers : Nat) (firstId : UInt32)
    (now : Nat) (events : List SenderEvent) :
    let calls := (p.sender o servers firstId now).calls events
    (∀ c ∈ calls, ∃ n ∈ p.sequences.lengths,
      (c.frame.length : Int) = max 16 (min n.toInt p.lengthLimit.toInt) ∧
      let fed := (Inbound.new o.maxFrameLength).feed c.frame.encode
      if o.truncate = true ∧ o.maxFrameLength < min n.toInt 1000000 then
        fed.frames = [] ∧
          fed.result = .error (.invalidLength c.frame.header.length o.maxFrameLength)
      else fed.frames = [c.frame] ∧ fed.result = .ok c.frame.length) ∧
    (o.truncate = false ∨ 1000000 ≤ o.maxFrameLength → ∀ server chunks,
      let sent := (calls.filter (·.server = server)).map (·.frame)
      chunks.flatten <+: sent.flatMap Frame.encode →
        ∃ run, feedAll? o.maxFrameLength .new chunks = some run ∧ run.failure = none ∧
          run.frames <+: sent ∧ (chunks.flatten = sent.flatMap Frame.encode → run.frames = sent)) := by
  intro calls
  have hidle : (p.sender o servers firstId now).phase.call? = none := rfl
  have hrequests : ∀ c ∈ calls, c.frame.IsRequest p.sequences.lengths p.lengthLimit := by
    refine Sender.isRequest_calls rfl rfl (fun c hc => ?_) events
    rw [hidle] at hc
    cases hc
  have hlong : ∀ c ∈ calls, ∀ n : Int32,
      (c.frame.length : Int) = max 16 (min n.toInt p.lengthLimit.toInt) →
        (o.maxFrameLength < c.frame.length ↔
          o.truncate = true ∧ o.maxFrameLength < min n.toInt 1000000) := by
    intro c _ n hn
    rw [← ClientOptions.oversized_iff hstream hmin, ← hplan, ← hn, Int.ofNat_lt]
  constructor
  · intro c hc
    obtain ⟨hannounced, n, hn, hlength⟩ := hrequests c hc
    refine ⟨n, hn, hlength, ?_⟩
    dsimp only
    split
    next hcase => exact Inbound.feed_oversized hannounced ((hlong c hc n hlength).mpr hcase)
    next hcase =>
      have hwithin := Nat.le_of_not_lt (mt (hlong c hc n hlength).mp hcase)
      exact Inbound.feed_fitting ⟨hannounced, hwithin⟩
  · intro hcut server chunks sent hbytes
    refine feedAll?_fitting (fun f hf => ?_) hbytes
    obtain ⟨c, hc, rfl⟩ := List.mem_map.mp hf
    have hmem := (List.mem_filter.mp hc).1
    obtain ⟨hannounced, n, -, hlength⟩ := hrequests c hmem
    refine ⟨hannounced, Nat.le_of_not_lt fun hover => ?_⟩
    obtain ⟨htruncate, hlimit⟩ := (hlong c hmem n hlength).mp hover
    rcases hcut with hcut | hcut
    · rw [htruncate] at hcut
      cases hcut
    · omega

/-- A port with a frame limit of 18, and requests of 20 bytes, which it cuts to a million bytes or to its
frame limit. -/
def smallLimit (truncate : Bool) : ClientOptions where
  protocol := .stream
  ports := 1
  receivers := 1
  clientMax := 4
  netBw := 0.0
  workload := .fixed 20
  truncate := truncate
  seed := 1
  ringCapacity := 16
  maxFrameLength := 18
  batch := 8

/-- What the port will send. -/
def longPlan (truncate : Bool) : RequestPlan where
  lengthLimit := (smallLimit truncate).lengthLimit Protocol.stream.limits
  expectedLength := 20.0
  sequences := ⟨[0], [20], [0]⟩

/-- Cut to the frame limit, the request is taken, also in two parts. -/
theorem run_fits_cut :
    ∃ c, ((longPlan false).sender (smallLimit false) 1 7 0).calls [.checked false 0] = [c] ∧
      ((Inbound.new 18).feed c.frame.encode).frames = [c.frame] ∧
      ∃ run, feedAll? 18 .new [c.frame.encode.take 17, c.frame.encode.drop 17] = some run ∧
        run.failure = none := by
  have hcalls : ((longPlan false).sender (smallLimit false) 1 7 0).calls [.checked false 0] =
      [⟨0, ⟨⟨18, 0, 0, 7⟩, [0, 0]⟩, 0⟩] := rfl
  obtain ⟨hone, hall⟩ := run_fits (o := smallLimit false) rfl (by decide) (p := longPlan false) rfl
    1 7 0 [.checked false 0]
  rw [hcalls] at hone hall
  obtain ⟨n, -, -, hfed⟩ := hone _ (List.mem_singleton_self _)
  dsimp only at hfed
  rw [if_neg (fun h => Bool.false_ne_true h.1)] at hfed
  obtain ⟨run, hrun, hnone, -⟩ := hall (.inl rfl) 0
    [(Frame.encode ⟨⟨18, 0, 0, 7⟩, [0, 0]⟩).take 17, (Frame.encode ⟨⟨18, 0, 0, 7⟩, [0, 0]⟩).drop 17]
    (by simp)
  exact ⟨_, hcalls, hfed.1, run, hrun, hnone⟩

/-- **A port sends what its own frame limit refuses.** The port cuts to a million bytes, which is more
than its frame limit. -/
theorem run_refused :
    (smallLimit true).protocol = .stream ∧ 16 ≤ (smallLimit true).maxFrameLength ∧
      ∃ c, ((longPlan true).sender (smallLimit true) 1 7 0).calls [.checked false 0] = [c] ∧
        ((Inbound.new (smallLimit true).maxFrameLength).feed c.frame.encode).frames = [] ∧
        ((Inbound.new (smallLimit true).maxFrameLength).feed c.frame.encode).result =
          .error (.invalidLength 20 18) := by
  have hcalls : ((longPlan true).sender (smallLimit true) 1 7 0).calls [.checked false 0] =
      [⟨0, ⟨⟨20, 0, 0, 7⟩, [0, 0, 0, 0]⟩, 0⟩] := rfl
  exact ⟨rfl, by decide, _, hcalls, Inbound.feed_oversized (by decide) (by decide)⟩

end RequestPlan

end EchoLoad
