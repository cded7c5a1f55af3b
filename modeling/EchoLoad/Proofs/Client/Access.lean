import EchoLoad.Client.Plan
import EchoLoad.Datagram.Client
import EchoLoad.Proofs.Client.FrameLimit
import EchoLoad.Proofs.Schedule.Course
import EchoLoad.Proofs.Schedule.Drawn
import EchoLoad.Stream.Client

/-!
# A sender finds all that it looks up

A sender looks up the next server and the next length, cuts the body of the request out of a buffer of
zeros, and uses the number of the server with its connections and with the counters of the port. Nothing
of this is checked when it is done. It goes well because of what was drawn before the port started:

> `RequestPlan.run_provided`: sequences are drawn for every workload that has a name and every source that
> gives numbers of the ranges it is asked for, and a sender that goes round them never looks past the end
> of anything; and a datagram holds each of its requests.

The bounds come from four places that do not know of each other: the draws (`Sequences.Drawn`), the
limit on lengths, which may be less than a header (`toInt_clampLength`), the longest request of the plan
(`RequestPlan.le_longest`), and the raising of short lengths when a frame is built (`Frame.build?`).
-/

namespace EchoLoad

/-! ## Zeros -/

/-- From a buffer that holds the clamped length a frame can be built, which has that length or that of a
header. -/
theorem Frame.build?_clamped {h : Header} {fill : Bytes} {drawn limit : Int32}
    (hlength : h.length = (clampLength drawn limit).1) (hfill : h.length.toInt ≤ fill.length) :
    ∃ f, Frame.build? h fill = some f ∧ f.header.length.toInt = f.encode.length ∧
      f.header.length.toInt = max 16 (min drawn.toInt limit.toInt) := by
  cases hbuild : Frame.build? h fill with
  | none => exact absurd hbuild (Frame.build?_ne_none hfill)
  | some f =>
    obtain ⟨hheader, hannounced⟩ := Frame.build?_eq_some hbuild
    refine ⟨f, rfl, ?_, ?_⟩
    · rw [Frame.length_encode]
      exact hannounced
    · rw [hheader, Header.toInt_roundUp, hlength, max_clampLength]

theorem le_foldl_max {α : Type} (f : α → Nat) (l : List α) :
    ∀ start : Nat, start ≤ l.foldl (fun most a => max most (f a)) start ∧
      ∀ a ∈ l, f a ≤ l.foldl (fun most a => max most (f a)) start := by
  induction l with
  | nil => intro start; exact ⟨Nat.le_refl _, fun a ha => absurd ha (by simp)⟩
  | cons b l ih =>
    intro start
    obtain ⟨hstart, hall⟩ := ih (max start (f b))
    rw [List.foldl_cons]
    refine ⟨by omega, ?_⟩
    intro a ha
    rcases List.mem_cons.mp ha with rfl | ha
    · omega
    · exact hall a ha

namespace RequestPlan

/-- There are zeros enough for each request. -/
theorem le_longest (p : RequestPlan) {drawn : Int32} (hdrawn : drawn ∈ p.sequences.lengths) :
    (clampLength drawn p.lengthLimit).1.toInt ≤ p.longest := by
  have hmem : (clampLength drawn p.lengthLimit).1 ∈ p.sequences.clampedLengths p.lengthLimit :=
    List.mem_map.mpr ⟨drawn, hdrawn, rfl⟩
  have hle := (le_foldl_max (fun n : Int32 => n.toInt.toNat) _ 0).2 _ hmem
  unfold longest
  omega

end RequestPlan

/-! ## The turns of a sender -/

namespace Sender

variable {q : Sequences} {cap first servers : Nat} {limit : Int32} {s t : Sender} {e : SenderEvent}

/-- A sender that went round these sequences for a port with so many servers. -/
structure Provided (q : Sequences) (cap : Nat) (limit : Int32) (first servers : Nat) (s : Sender) :
    Prop where
  course : ∃ n m, (Scheduler.new q cap limit first).Reaches n m s.scheduler
  filled : ∀ drawn ∈ q.lengths, (clampLength drawn limit).1.toInt ≤ s.fill.length
  counters : s.stats.issuedTo.size = servers
  known : ∀ c, s.phase.call? = some c → c.server < servers
  alive : s.phase ≠ .aborted

/-- A call is over, or none is made: the sender is in another phase now. -/
theorem Provided.rephase (h : s.Provided q cap limit first servers) {phase : SenderPhase}
    (quiet : phase.call? = none) (alive : phase ≠ .aborted) :
    { s with phase := phase }.Provided q cap limit first servers := by
  refine ⟨h.course, h.filled, h.counters, ?_, alive⟩
  intro c hc
  rw [show phase.call? = some c from hc] at quiet
  cases quiet

/-- The schedule was moved on, and the counters are as many as before. -/
theorem Provided.moved (h : s.Provided q cap limit first servers) {now behind : Nat}
    {scheduler : Scheduler} (moved : s.scheduler.reschedule? now = some (behind, scheduler))
    {stats : ClientStats} (hstats : stats.issuedTo.size = s.stats.issuedTo.size) (issued : Nat) :
    { s with scheduler := scheduler, stats := stats, issued := issued }.Provided q cap limit first
      servers := by
  obtain ⟨n, m, hcourse⟩ := h.course
  exact ⟨⟨n, m + 1, hcourse.reschedule moved⟩, h.filled, hstats.trans h.counters, h.known, h.alive⟩

/-- A request that was selected can be built. -/
theorem Provided.builds (h : s.Provided q cap limit first servers) {chosen : Selection}
    {scheduler : Scheduler} (selected : s.scheduler.select? = some (chosen, scheduler)) (now : Nat) :
    Frame.build? (s.headerFor chosen now) s.fill ≠ none := by
  obtain ⟨n, m, hcourse⟩ := h.course
  obtain ⟨hsequences, hlimit⟩ := hcourse.kept
  obtain ⟨-, ⟨drawn, hdrawn, hlength⟩, -⟩ := Scheduler.select?_eq_some selected
  rw [hsequences] at hdrawn
  rw [hlimit] at hlength
  apply Frame.build?_ne_none
  show chosen.length.toInt ≤ _
  rw [hlength]
  exact h.filled drawn (List.mem_of_getElem? hdrawn)

/-- What the sender looks up in a turn is there. -/
theorem Provided.turn (hservers : q.servers ≠ []) (hlengths : q.lengths ≠ [])
    (hgaps : q.intervals ≠ []) (hknown : ∀ server ∈ q.servers, server < servers)
    (h : s.Provided q cap limit first servers) (ht : s.Turn e t) :
    t.Provided q cap limit first servers := by
  obtain ⟨n, m, hcourse⟩ := h.course
  cases ht with
  | recorded header finish => exact ⟨h.course, h.filled, h.counters, h.known, h.alive⟩
  | unasked nothing => exact h
  | turned active uncalled quiet alive => exact h.rephase quiet alive
  | @issued now chosen scheduler frame checking ready selected built =>
    refine ⟨⟨n + 1, m, hcourse.select selected⟩, h.filled, h.counters, ?_, by simp⟩
    intro c hc
    cases hc
    have hserver := (Scheduler.select?_eq_some selected).1
    rw [hcourse.kept.1] at hserver
    exact hknown _ (List.mem_of_getElem? hserver)
  | unselected checking missing =>
    obtain ⟨chosen, u, drawn, hselected, -⟩ := hcourse.selects hservers hlengths
    rw [hselected] at missing
    cases missing
  | unbuilt checking selected missing => exact absurd missing (h.builds selected _)
  | @accepted server now before behind frame stats scheduler sending counted moved =>
    obtain ⟨hknown, rfl⟩ := ClientStats.recordIssue?_eq_some counted
    have hquiet : (if s.receivers = 0 then SenderPhase.waiting before else .checking).call? = none := by
      split <;> rfl
    refine (h.moved moved ?_ (s.issued + 1)).rephase hquiet ?_
    · exact Array.size_set hknown
    · split <;> simp
  | @skipped server now before behind frame scheduler sending moved =>
    have hkept : (s.stats.addLag behind).issuedTo.size = s.stats.issuedTo.size := rfl
    have hquiet : SenderPhase.checking.call? = none := rfl
    exact (h.moved moved hkept s.issued).rephase hquiet (by simp)
  | failed sending fatal => exact h.rephase rfl (by simp)
  | @uncounted server now before frame sending missing =>
    have hserver := h.known ⟨server, frame, now⟩ (congrArg SenderPhase.call? sending)
    rw [← h.counters] at hserver
    exact absurd missing (ClientStats.recordIssue?_ne_none hserver)
  | unmoved sending missing kept => exact absurd missing (hcourse.reschedules hgaps _)

theorem Provided.run (hservers : q.servers ≠ []) (hlengths : q.lengths ≠ [])
    (hgaps : q.intervals ≠ []) (hknown : ∀ server ∈ q.servers, server < servers)
    (events : List SenderEvent) :
    ∀ {s : Sender}, s.Provided q cap limit first servers →
      (s.run events).Provided q cap limit first servers := by
  induction events with
  | nil => exact fun h => h
  | cons e events ih =>
    intro s h
    exact ih (h.turn hservers hlengths hgaps hknown (s.turn e))

end Sender

/-! ## The transports -/

theorem Stream.Client.send?_ne_none {c : Stream.Client} {server : Nat}
    (h : server < c.connections.size) (f : Frame) (writes : List Framing.WriteOutcome) :
    c.send? server f writes ≠ none := by
  unfold Stream.Client.send?
  rw [Array.getElem?_eq_getElem h]
  cases c.connections[server] with
  | none => simp
  | some framer =>
    dsimp only
    split <;> simp

theorem Datagram.Client.send?_ne_none {α : Type} {c : Datagram.Client α} {server : Nat}
    (h : server < c.servers.length) (f : Frame) (fault : Option SystemError) :
    c.send? server f fault ≠ none := by
  unfold Datagram.Client.send?
  rw [List.getElem?_eq_getElem h]
  simp

/-- A datagram holds a request of up to its limit. -/
theorem Datagram.encode_requestPieces {f : Frame} (h : f.encode.length ≤ messageLimit) (call : UInt64) :
    ∃ datagram, encode .request call (requestPieces f) = .ok datagram := by
  refine ⟨_, encode_eq_ok_iff.mpr ⟨?_, ?_, rfl⟩⟩
  · rw [flatten_requestPieces]
    exact h
  · show 2 ≤ pieceLimit
    decide

/-! ## Ports -/

/-- The next request of a schedule goes to one of so many servers, and can be cut from the zeros. -/
structure Scheduler.Serves (servers : Nat) (fill : Bytes) (drawn limit : Int32) (t : Scheduler) :
    Prop where
  selects : ∃ chosen u, t.select? = some (chosen, u) ∧ chosen.server < servers ∧
    0 ≤ chosen.length.toInt ∧ chosen.length.toInt ≤ fill.length ∧
    ∀ h : Header, h.length = chosen.length → ∃ f, Frame.build? h fill = some f ∧
      f.header.length.toInt = f.encode.length ∧
      f.header.length.toInt = max 16 (min drawn.toInt limit.toInt)
  reschedules : ∀ now, t.reschedule? now ≠ none

namespace RequestPlan

variable {servers : Nat} {w : Workload}

/-- The limit of a port is no negative number, though it may be less than a header. -/
theorem zero_le_lengthLimit (o : ClientOptions) (limits : TransportLimits) :
    0 ≤ (o.lengthLimit limits).toInt := by
  rw [ClientOptions.toInt_lengthLimit]
  omega

theorem serves {p : RequestPlan} (hp : p.sequences.Drawn servers w)
    (hlimit : 0 ≤ p.lengthLimit.toInt) {cap first n m : Nat} {t : Scheduler}
    (ht : (Scheduler.new p.sequences cap p.lengthLimit first).Reaches n m t) :
    ∃ drawn, p.sequences.lengths[n % 7207]? = some drawn ∧
      t.Serves servers (List.replicate p.longest 0) drawn p.lengthLimit := by
  have hservers : p.sequences.servers ≠ [] := List.ne_nil_of_length_eq_add_one hp.servers_length
  have hlengths : p.sequences.lengths ≠ [] := List.ne_nil_of_length_eq_add_one hp.lengths_length
  obtain ⟨chosen, u, drawn, hselected, hserver, hdrawn, hlength⟩ := ht.selects hservers hlengths
  rw [hp.lengths_length] at hdrawn
  have hmem := List.mem_of_getElem? hdrawn
  have hlongest : chosen.length.toInt ≤ (List.replicate p.longest (0 : UInt8)).length := by
    rw [hlength, List.length_replicate]
    exact p.le_longest hmem
  have hnonneg : 0 ≤ chosen.length.toInt := by
    rw [hlength, toInt_clampLength]
    omega
  refine ⟨drawn, hdrawn, ?_, fun now => ht.reschedules hp.intervals_ne now⟩
  refine ⟨chosen, u, hselected, hp.servers_lt _ (List.mem_of_getElem? hserver), hnonneg, hlongest, ?_⟩
  intro h hsame
  exact Frame.build?_clamped (hsame.trans hlength) (hsame ▸ hlongest)

/-- A port starts with what it needs. -/
theorem provided_sender (p : RequestPlan) (o : ClientOptions) (servers : Nat) (firstId : UInt32)
    (now : Nat) :
    (p.sender o servers firstId now).Provided p.sequences o.portCap p.lengthLimit now servers where
  course := ⟨0, 0, .start⟩
  filled drawn hdrawn := by
    show _ ≤ ((List.replicate p.longest (0 : UInt8)).length : Int)
    rw [List.length_replicate]
    exact p.le_longest hdrawn
  counters := Array.size_replicate
  known c hc := by cases hc
  alive := by simp [sender, Sender.start]

/-- **A port finds all that it looks up.** For each workload that has a name, and uniform numbers that lie
in their ranges, sequences can be drawn if there are enough numbers; all that is drawn is as long as it
should be and within its bounds. Whatever the options and the limits of the transport are, and in
whatever order requests are selected and issue times set, there is a next request and a next gap; the
request goes to one of the servers, and its frame, which can be cut from the zeros of the port, announces
its own length, the drawn one cut to the limit and raised to that of a header. So a sender that goes
through any events does not look past the end of anything; each of its requests goes to an entry of the
table of servers, with either transport, and a datagram can hold it. -/
theorem run_provided {name : String} {w : Workload} (hname : Workload.ofName name = .ok w)
    {servers : Nat} (hservers : 1 ≤ servers) (rate : Option Float) {σ : Type}
    {supply : Random.Supply σ} (hrange : supply.InRange) (seed : σ) :
    (supply.Lasting → ∃ q rest, Sequences.drawFrom supply servers w rate seed = some (q, rest)) ∧
    ∀ q rest, Sequences.drawFrom supply servers w rate seed = some (q, rest) →
      q.Drawn servers w ∧
      ∀ (o : ClientOptions) (limits : TransportLimits) (expected : Float) (firstId : UInt32)
        (now : Nat),
        let p : RequestPlan := ⟨o.lengthLimit limits, expected, q⟩
        let port := p.sender o servers firstId now
        port.fill.length = p.longest ∧
        (∀ n m t, port.scheduler.Reaches n m t → ∃ drawn, q.lengths[n % 7207]? = some drawn ∧
          t.Serves servers port.fill drawn p.lengthLimit) ∧
        ∀ events,
          (port.run events).phase ≠ .aborted ∧
          (∃ n m, port.scheduler.Reaches n m (port.run events).scheduler) ∧
          ∀ c ∈ port.calls events,
            c.server < servers ∧
            (∃ drawn ∈ q.lengths, c.frame.header.length.toInt = c.frame.encode.length ∧
              (c.frame.encode.length : Int) = max 16 (min drawn.toInt p.lengthLimit.toInt)) ∧
            (∀ (client : Stream.Client) writes, client.connections.size = servers →
              client.send? c.server c.frame writes ≠ none) ∧
            (∀ (α : Type) (client : Datagram.Client α) fault, client.servers.length = servers →
              client.send? c.server c.frame fault ≠ none) ∧
            (limits = Protocol.native.limits → c.frame.encode.length ≤ 65491 ∧
              ∀ call, ∃ datagram,
                Datagram.encode .request call (Datagram.requestPieces c.frame) = .ok datagram) := by
  have hproper := Workload.isProper_ofName hname
  constructor
  · intro hlasting
    exact Sequences.returns_drawFrom hlasting servers hproper rate seed
  intro q rest hdrawn
  have hq : q.Drawn servers w :=
    Sequences.gives_drawFrom hrange hservers hproper rate seed q rest hdrawn
  refine ⟨hq, ?_⟩
  intro o limits expected firstId now p port
  refine ⟨List.length_replicate, ?_, ?_⟩
  · intro n m t ht
    exact p.serves hq (zero_le_lengthLimit o limits) ht
  intro events
  have hserversNe : q.servers ≠ [] := List.ne_nil_of_length_eq_add_one hq.servers_length
  have hlengthsNe : q.lengths ≠ [] := List.ne_nil_of_length_eq_add_one hq.lengths_length
  have hstart := p.provided_sender o servers firstId now
  have hend := hstart.run hserversNe hlengthsNe hq.intervals_ne hq.servers_lt events
  refine ⟨hend.alive, hend.course, ?_⟩
  intro c hc
  have hserver : c.server < servers :=
    Sender.forall_calls
      (fun s e h => h.turn hserversNe hlengthsNe hq.intervals_ne hq.servers_lt (s.turn e))
      (fun _ c h hc => h.known c hc) events hstart c hc
  have hrequest : c.frame.IsRequest q.lengths p.lengthLimit :=
    Sender.isRequest_calls rfl rfl (fun c hc => by cases hc) events c hc
  obtain ⟨hannounced, drawn, hmem, hlength⟩ := hrequest
  rw [← Frame.length_encode] at hannounced hlength
  refine ⟨hserver, ⟨drawn, hmem, hannounced, hlength⟩, ?_, ?_, ?_⟩
  · intro client writes hsize
    exact Stream.Client.send?_ne_none (hsize ▸ hserver) c.frame writes
  · intro α client fault hsize
    exact Datagram.Client.send?_ne_none (hsize ▸ hserver) c.frame fault
  · intro hnative
    have hlimit : p.lengthLimit.toInt = 65491 := by
      show (o.lengthLimit limits).toInt = 65491
      rw [ClientOptions.toInt_lengthLimit, hnative]
      rfl
    have hshort : c.frame.encode.length ≤ 65491 := by
      rw [hlimit] at hlength
      omega
    exact ⟨hshort, Datagram.encode_requestPieces hshort⟩

/-- Numbers that are always the least of their range. -/
def leastNumbers : Random.Supply Unit where
  below _ := pure 0
  between low _ := pure low
  exponential := pure 0.0

theorem inRange_leastNumbers : leastNumbers.InRange where
  below _ hrange := Random.Drawing.gives_pure hrange
  between _ _ h := Random.Drawing.gives_pure ⟨Int32.le_refl _, h⟩

theorem lasting_leastNumbers : leastNumbers.Lasting where
  below _ _ := Random.Drawing.returns_pure _
  between _ _ _ := Random.Drawing.returns_pure _
  exponential := Random.Drawing.returns_pure _

/-- A port with a native transport, three servers, and requests of ten to twenty bytes: whatever happens
to it, none of its requests is longer than a datagram. -/
theorem run_provided_native :
    ∃ q, q.Drawn 3 (.uniform 10 20) ∧ ∀ events,
      ∀ c ∈ ((RequestPlan.mk ((smallLimit true).lengthLimit Protocol.native.limits) 15.0 q).sender
          (smallLimit true) 3 7 0).calls events,
        c.server < 3 ∧ c.frame.encode.length ≤ 65491 := by
  have hname : Workload.ofName "uniform:10:20" = .ok (.uniform 10 20) := rfl
  have hservers : 1 ≤ 3 := by decide
  obtain ⟨hdraws, hall⟩ := run_provided hname hservers none inRange_leastNumbers ()
  obtain ⟨q, rest, hq⟩ := hdraws lasting_leastNumbers
  obtain ⟨hdrawn, hports⟩ := hall q rest hq
  refine ⟨q, hdrawn, ?_⟩
  intro events c hc
  obtain ⟨-, -, hruns⟩ := hports (smallLimit true) Protocol.native.limits 15.0 7 0
  obtain ⟨hserver, -, -, -, hfits⟩ := (hruns events).2.2 c hc
  exact ⟨hserver, (hfits rfl).1⟩

end RequestPlan

end EchoLoad
