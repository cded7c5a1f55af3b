import EchoLoad.Framing.Outbound

/-!
# Frames leave in order

A queue that is empty at first is called upon to take frames and to write them, in any order, and the
stream answers each write call as it likes. Whatever it answers, the frames leave in the order in which
they came, and each of them is written whole, unless the peer was lost while it was at the head:

> `sendAll?_fifo`: the frames that came are those that left and then those that wait. The calls fall
> apart into those for each frame that left and those for the frame at the head; a frame that left was
> written whole, or else the last of its calls, and only that one, lost the peer.

The history of the frames that left (`History`) is no part of the program. It goes with a single write
call (`History.Accounts.step`), then with the calls of one run (`History.Accounts.trace`), and in the
end with all requests. `Request.Served` says where each request stops, by what waited before it, and
`Sending.Answered` that the calls met the outcomes of the script.
-/

namespace EchoLoad.Framing

/-! ## What an answer says -/

namespace WriteOutcome

/-- The peer has gone away. -/
def losesPeer : WriteOutcome → Bool
  | accept most => most == 0
  | fault e => e.kind == .brokenPipe || e.kind == .connectionReset

/-- A signal came in between. -/
def interrupted : WriteOutcome → Bool
  | accept _ => false
  | fault e => e.kind == .interrupted

/-- The error of an answer that ends the call with it. -/
def fatal? : WriteOutcome → Option SystemError
  | accept _ => none
  | fault e =>
    if e.kind ∈ [.wouldBlock, .interrupted, .brokenPipe, .connectionReset] then none else some e

theorem effect_dropped {offered : Bytes} {answer : WriteOutcome} (hoffered : offered ≠ []) :
    answer.effect offered = .dropped ↔ answer.losesPeer = true := by
  cases answer with
  | accept most =>
    cases offered with
    | nil => exact absurd rfl hoffered
    | cons b rest => cases most <;> simp [effect, losesPeer]
  | fault e =>
    simp only [effect, losesPeer]
    split <;> simp_all

theorem effect_failed {offered : Bytes} {answer : WriteOutcome} (e : SystemError) :
    answer.effect offered = .failed e ↔ answer.fatal? = some e := by
  cases answer with
  | accept most =>
    simp only [effect, fatal?]
    split <;> simp
  | fault x =>
    simp only [effect, fatal?]
    split <;> simp_all

theorem effect_again {offered : Bytes} {answer : WriteOutcome}
    (h : answer.interrupted = true) : answer.effect offered = .again := by
  cases answer with
  | accept most => exact absurd h (by simp [interrupted])
  | fault e =>
    have hkind : e.kind = .interrupted := beq_iff_eq.mp h
    simp only [effect, hkind]

end WriteOutcome

/-! ## The history of a queue -/

namespace Transmission

/-- The bytes of the frame at the head that are written. -/
def begun (s : Transmission) : Bytes :=
  match s.queue with
  | [] => []
  | head :: _ => head.encode.take s.sent

theorem Sound.sent_of_idle {s : Transmission} (hs : s.Sound) (hidle : s.queue = []) :
    s.sent = 0 := by
  cases hs with
  | idle => rfl
  | busy short => exact absurd hidle (List.cons_ne_nil _ _)

theorem Sound.sent_lt {s : Transmission} (hs : s.Sound) {head : Frame} {rest : List Frame}
    (hqueue : s.queue = head :: rest) : s.sent < head.length := by
  cases hs with
  | idle => exact absurd hqueue.symm (List.cons_ne_nil _ _)
  | busy short =>
    obtain ⟨rfl, -⟩ := List.cons.inj hqueue
    exact short

/-- Every call offers something. -/
theorem Step.offered_ne_nil {s t : Transmission} {c : WriteCall} (h : Step s c t) :
    c.slices.bytes ≠ [] := by
  have hdrop : ∀ {head : Frame} {sent : Nat}, sent < head.length → head.encode.drop sent ≠ [] := by
    intro head sent short
    rw [Ne, List.drop_eq_nil_iff, Frame.length_encode]
    omega
  cases h with
  | moved frame offered effect split some_taken some_left =>
    rw [offered, split]
    simp [some_taken]
  | finished frame offered effect short => exact offered ▸ hdrop short
  | dropped frame offered effect short => exact offered ▸ hdrop short
  | stayed frame offered effect short => exact offered ▸ hdrop short

theorem begun_zero (frames : List Frame) : begun ⟨frames, 0⟩ = [] := by
  cases frames <;> rfl

end Transmission

/-- The bytes that the stream took in some calls. -/
def accepted (calls : List WriteCall) : Bytes := calls.flatMap (·.accepted)

/-- A frame that left the queue, and the write calls while it was at the head. -/
structure Departure where
  frame : Frame
  calls : List WriteCall

namespace Departure

/-- The bytes of the frame that were written. -/
def written (d : Departure) : Bytes := accepted d.calls

/-- How a frame left. -/
inductive Left (d : Departure) : Prop
  /-- all of it was written -/
  | whole (kept : ∀ c ∈ d.calls, c.answer.losesPeer = false) (written : d.written = d.frame.encode)
  /-- the peer was lost at the last call, before all of it was written -/
  | cut (before : List WriteCall) (last : WriteCall) (calls : d.calls = before ++ [last])
      (kept : ∀ c ∈ before, c.answer.losesPeer = false) (lost : last.answer.losesPeer = true)
      (some_left : ∃ left, left ≠ [] ∧ d.frame.encode = d.written ++ left)

end Departure

/-- The frames that left, in order, and the calls since then. -/
structure History where
  gone : List Departure
  current : List WriteCall

theorem accepted_append (calls later : List WriteCall) :
    accepted (calls ++ later) = accepted calls ++ accepted later := List.flatMap_append

theorem accepted_singleton (c : WriteCall) : accepted [c] = c.accepted := List.flatMap_singleton _ _

open Transmission

namespace History

/-- All calls so far. -/
def calls (h : History) : List WriteCall := h.gone.flatMap (·.calls) ++ h.current

/-- The history is that of a queue to which these frames came. -/
structure Accounts (h : History) (frames : List Frame) (s : Transmission) : Prop where
  order : frames = h.gone.map (·.frame) ++ s.queue
  left : ∀ d ∈ h.gone, (∀ c ∈ d.calls, c.frame = d.frame) ∧ d.Left
  head : ∀ c ∈ h.current, s.queue.head? = some c.frame ∧ c.answer.losesPeer = false
  begun : accepted h.current = s.begun
  offered : ∀ c ∈ h.calls, c.slices.bytes ≠ []
  sound : s.Sound

theorem accounts_new : Accounts ⟨[], []⟩ [] .new where
  order := rfl
  left := by simp
  head := by simp
  begun := rfl
  offered := by simp [calls]
  sound := .idle

/-- A frame comes. -/
theorem Accounts.push {h : History} {frames : List Frame} {s : Transmission}
    (ha : h.Accounts frames s) (f : Frame) :
    h.Accounts (frames ++ [f]) { s with queue := s.queue ++ [f] } where
  order := by rw [ha.order, List.append_assoc]
  left := ha.left
  head := by
    intro c hc
    obtain ⟨hframe, hkept⟩ := ha.head c hc
    exact ⟨by rw [List.head?_append, hframe]; rfl, hkept⟩
  begun := by
    rw [ha.begun]
    cases ha.sound with
    | idle => rfl
    | busy short => rfl
  offered := ha.offered
  sound := ha.sound.push f

/-- A call that leaves the frame at the head where it is. -/
theorem Accounts.stay {h : History} {frames rest : List Frame} {head : Frame} {sent : Nat}
    {c : WriteCall} (ha : h.Accounts frames ⟨head :: rest, sent⟩) (hframe : c.frame = head)
    (hoffered : c.slices.bytes ≠ []) (hkept : c.answer.losesPeer = false)
    (hbegun : head.encode.take (sent + c.accepted.length) = head.encode.take sent ++ c.accepted)
    (short : sent + c.accepted.length < head.length) :
    Accounts ⟨h.gone, h.current ++ [c]⟩ frames ⟨head :: rest, sent + c.accepted.length⟩ where
  order := ha.order
  left := ha.left
  head := by
    refine List.forall_mem_append.mpr ⟨ha.head, List.forall_mem_singleton.mpr ⟨?_, hkept⟩⟩
    rw [hframe]
    rfl
  begun := by
    rw [accepted_append, accepted_singleton, ha.begun]
    exact hbegun.symm
  offered := by
    rw [calls, ← List.append_assoc]
    exact List.forall_mem_append.mpr ⟨ha.offered, List.forall_mem_singleton.mpr hoffered⟩
  sound := .busy short

/-- A call after which the frame at the head is gone. -/
theorem Accounts.leave {h : History} {frames rest : List Frame} {head : Frame} {sent : Nat}
    {c : WriteCall} (ha : h.Accounts frames ⟨head :: rest, sent⟩) (hframe : c.frame = head)
    (hoffered : c.slices.bytes ≠ []) (hleft : Departure.Left ⟨head, h.current ++ [c]⟩) :
    Accounts ⟨h.gone ++ [⟨head, h.current ++ [c]⟩], []⟩ frames ⟨rest, 0⟩ where
  order := by rw [ha.order, List.map_append, List.append_assoc]; rfl
  left := by
    refine List.forall_mem_append.mpr ⟨ha.left, List.forall_mem_singleton.mpr ⟨?_, hleft⟩⟩
    refine List.forall_mem_append.mpr ⟨?_, List.forall_mem_singleton.mpr hframe⟩
    intro x hx
    exact (Option.some.inj (ha.head x hx).1).symm
  head := by simp
  begun := (begun_zero rest).symm
  offered := by
    simp only [calls, List.flatMap_append, List.flatMap_singleton, List.append_nil,
      ← List.append_assoc]
    exact List.forall_mem_append.mpr ⟨ha.offered, List.forall_mem_singleton.mpr hoffered⟩
  sound := sound_zero rest

/-- **One write call and the history.** The call is added to those of the frame at the head, and a frame
that leaves takes its calls with it. -/
theorem Accounts.step {h : History} {frames : List Frame} {s t : Transmission} {c : WriteCall}
    (ha : h.Accounts frames s) (hstep : Step s c t) :
    ∃ h' : History, h'.Accounts frames t ∧ h'.calls = h.calls ++ [c] := by
  have hoffered := hstep.offered_ne_nil
  have hkept : c.effect ≠ .dropped → c.answer.losesPeer = false := by
    intro hne
    rw [← Bool.not_eq_true, ← WriteOutcome.effect_dropped hoffered]
    exact hne
  have hleave : ∀ d : Departure, d.calls = h.current ++ [c] →
      calls ⟨h.gone ++ [d], []⟩ = h.calls ++ [c] := by
    intro d hd
    simp only [calls, List.flatMap_append, List.flatMap_singleton, List.append_nil, hd,
      List.append_assoc]
  have hcurrent : ∀ x ∈ h.current, x.answer.losesPeer = false := fun x hx => (ha.head x hx).2
  -- the head stays after `moved` and `stayed`, and takes all its calls with it after the other two
  cases hstep with
  | @moved head rest sent c taken left frame offered effect split some_taken some_left =>
    have haccepted : c.accepted = taken := by rw [WriteCall.accepted, effect]
    have htake : head.encode.take (sent + taken.length) = head.encode.take sent ++ taken := by
      rw [List.take_add, split, List.take_left]
    have hlen := congrArg List.length split
    have := List.length_pos_iff.mpr some_left
    rw [List.length_drop, Frame.length_encode, List.length_append] at hlen
    refine ⟨⟨h.gone, h.current ++ [c]⟩, ?_, (List.append_assoc _ _ _).symm⟩
    rw [← haccepted]
    refine ha.stay frame hoffered (hkept (by simp [effect])) ?_ ?_
    · rw [haccepted]
      exact htake
    · rw [haccepted]
      omega
  | @finished head rest sent c frame offered effect short =>
    refine ⟨_, ha.leave frame hoffered ?_, hleave _ rfl⟩
    refine .whole ?_ ?_
    · have hlast := hkept (by simp [effect])
      exact List.forall_mem_append.mpr ⟨hcurrent, List.forall_mem_singleton.mpr hlast⟩
    · have haccepted : c.accepted = head.encode.drop sent := by rw [WriteCall.accepted, effect]
      rw [Departure.written, accepted_append, accepted_singleton, ha.begun, haccepted]
      exact List.take_append_drop sent head.encode
  | @dropped head rest sent c frame offered effect short =>
    refine ⟨_, ha.leave frame hoffered ?_, hleave _ rfl⟩
    have haccepted : c.accepted = [] := by rw [WriteCall.accepted, effect]
    refine .cut h.current c rfl hcurrent ((WriteOutcome.effect_dropped hoffered).mp effect)
      ⟨head.encode.drop sent, offered ▸ hoffered, ?_⟩
    rw [Departure.written, accepted_append, accepted_singleton, ha.begun, haccepted,
      List.append_nil]
    exact (List.take_append_drop sent head.encode).symm
  | @stayed head rest sent c frame offered effect short =>
    have haccepted : c.accepted = [] := by
      rcases effect with effect | effect | ⟨e, effect⟩ <;> rw [WriteCall.accepted, effect]
    refine ⟨⟨h.gone, h.current ++ [c]⟩, ?_, (List.append_assoc _ _ _).symm⟩
    have hstay := ha.stay frame hoffered (hkept ?_) (by simp [haccepted]) (by simpa [haccepted])
    · simpa only [haccepted, List.length_nil, Nat.add_zero] using hstay
    · rcases effect with effect | effect | ⟨e, effect⟩ <;> simp [effect]

theorem Accounts.trace {h : History} {frames : List Frame} {s t : Transmission}
    {calls : List WriteCall} (ha : h.Accounts frames s) (htrace : Trace s calls t) :
    ∃ h' : History, h'.Accounts frames t ∧ h'.calls = h.calls ++ calls := by
  induction htrace generalizing h with
  | nil => exact ⟨h, ha, (List.append_nil _).symm⟩
  | cons first later ih =>
    obtain ⟨h', ha', hcalls⟩ := ha.step first
    obtain ⟨h'', ha'', hcalls'⟩ := ih ha'
    exact ⟨h'', ha'', by rw [hcalls', hcalls, List.append_assoc]; rfl⟩

/-- What was written: the bytes of the frames that left, and those of the head that are out. -/
theorem Accounts.accepted_calls {h : History} {frames : List Frame} {s : Transmission}
    (ha : h.Accounts frames s) : accepted h.calls = h.gone.flatMap (·.written) ++ s.begun := by
  rw [calls, accepted_append, ha.begun]
  congr 1
  exact List.flatMap_assoc

end History

/-- The peer is lost as often as a frame leaves that was not all written. -/
theorem Departure.Left.countP {d : Departure} (h : d.Left) :
    d.calls.countP (·.answer.losesPeer) = if d.written = d.frame.encode then 0 else 1 := by
  cases h with
  | whole kept written =>
    rw [if_pos written, List.countP_eq_zero]
    intro c hc
    rw [kept c hc]
    exact Bool.false_ne_true
  | cut before last calls kept lost some_left =>
    obtain ⟨left, hleft, hencode⟩ := some_left
    have hbefore : before.countP (·.answer.losesPeer) = 0 := by
      rw [List.countP_eq_zero]
      intro c hc
      rw [kept c hc]
      exact Bool.false_ne_true
    have hne : d.written ≠ d.frame.encode := by
      intro heq
      rw [heq] at hencode
      exact hleft (List.self_eq_append_right.mp hencode)
    rw [if_neg hne, calls, List.countP_append, hbefore, List.countP_singleton, if_pos lost]

theorem History.Accounts.countP {h : History} {frames : List Frame} {s : Transmission}
    (ha : h.Accounts frames s) : h.calls.countP (·.answer.losesPeer) =
      h.gone.countP fun d => d.written ≠ d.frame.encode := by
  have hcurrent : h.current.countP (·.answer.losesPeer) = 0 := by
    rw [List.countP_eq_zero]
    intro c hc
    rw [(ha.head c hc).2]
    exact Bool.false_ne_true
  have hgone : ∀ gone : List Departure, (∀ d ∈ gone, d.Left) →
      (gone.flatMap (·.calls)).countP (·.answer.losesPeer) =
        gone.countP fun d => d.written ≠ d.frame.encode := by
    intro gone hleft
    induction gone with
    | nil => rfl
    | cons d gone ih =>
      obtain ⟨hd, hgone⟩ := List.forall_mem_cons.mp hleft
      rw [List.flatMap_cons, List.countP_append, hd.countP, ih hgone, List.countP_cons, Nat.add_comm]
      by_cases hwhole : d.written = d.frame.encode <;> simp [hwhole]
  rw [calls, List.countP_append, hcurrent, hgone h.gone fun d hd => (ha.left d hd).2]
  rfl

/-! ## Runs of requests -/

/-- What is asked of the queue. -/
inductive Request
  | enqueue (f : Frame)
  | drain

namespace Request

/-- The frames that come with a request. -/
def frames : Request → List Frame
  | enqueue f => [f]
  | drain => []

/-- Do what is asked, given the outcomes that the writes will have. -/
def serve? (s : Transmission) (script : List WriteOutcome) :
    Request → Option (Drained Transmission)
  | enqueue f => s.enqueue? f script
  | drain => s.drain? script

end Request

/-- What a run of requests led to. -/
structure Sending where
  outbound : Transmission
  /-- one for each request -/
  returns : List (Drained Transmission)
  /-- the outcomes that no write call got to -/
  unused : List WriteOutcome

/-- All write calls. -/
def Sending.calls (run : Sending) : List WriteCall := run.returns.flatMap (·.calls)

/-- Serve requests one after the other, all with the same stream. -/
def sendAll? (s : Transmission) : List Request → List WriteOutcome → Option Sending
  | [], script => some ⟨s, [], script⟩
  | request :: requests, script => do
    let d ← request.serve? s script
    let later ← sendAll? d.outbound requests d.unused
    some { later with returns := d :: later.returns }

/-- What a request returns: whether the queue is empty, unless an answer was an error of its own. -/
inductive Drained.Returned (d : Drained Transmission) : Prop
  | ok (result : d.result = .ok d.outbound.queue.isEmpty)
      (quiet : ∀ c ∈ d.calls, c.answer.fatal? = none)
  | error (before : List WriteCall) (last : WriteCall) (e : SystemError)
      (result : d.result = .error e) (calls : d.calls = before ++ [last])
      (quiet : ∀ c ∈ before, c.answer.fatal? = none) (fatal : last.answer.fatal? = some e)
      (waits : d.outbound.queue ≠ [])

/-- An answer that lets draining go on is no error of its own. -/
theorem WriteCall.GoesOn.not_fatal {c : WriteCall} (h : c.GoesOn) : c.answer.fatal? = none := by
  rw [Option.eq_none_iff_forall_ne_some]
  intro e he
  exact h.2 e ((WriteOutcome.effect_failed e).mpr he)

theorem Drained.Ended.returned {d : Drained Transmission} (h : d.Ended) : d.Returned := by
  cases h with
  | empty before => exact .ok rfl fun c hc => (before c hc).not_fatal
  | blocked calls last before effect =>
    have hlast : last.answer.fatal? = none := by
      rw [Option.eq_none_iff_forall_ne_some]
      intro e he
      rw [WriteCall.effect, (WriteOutcome.effect_failed e).mpr he] at effect
      exact absurd effect (by simp)
    refine .ok rfl (List.forall_mem_append.mpr ⟨?_, List.forall_mem_singleton.mpr hlast⟩)
    exact fun c hc => (before c hc).not_fatal
  | @failed head rest sent calls last unused e before effect =>
    exact .error calls last e rfl rfl (fun c hc => (before c hc).not_fatal)
      ((WriteOutcome.effect_failed e).mp effect) (List.cons_ne_nil _ _)

/-- Where a request stops that finds these frames waiting. A frame that is not alone is left for later;
else write calls are made until nothing waits, or one is blocked or fails. -/
inductive Request.Stopped (waiting : List Frame) : Request → Drained Transmission → Prop
  | behind {f : Frame} {sent : Nat} {unused : List WriteOutcome} (busy : waiting ≠ []) :
      Stopped waiting (.enqueue f) ⟨⟨waiting ++ [f], sent⟩, .ok false, [], unused⟩
  | alone {f : Frame} {d : Drained Transmission} (idle : waiting = []) (ended : d.Ended) :
      Stopped waiting (.enqueue f) d
  | drained {d : Drained Transmission} (ended : d.Ended) : Stopped waiting .drain d

theorem Request.Stopped.returned {waiting : List Frame} {request : Request}
    {d : Drained Transmission} (h : request.Stopped waiting d) : d.Returned := by
  cases h with
  | behind busy => exact .ok (by simp) (by simp)
  | alone idle ended => exact ended.returned
  | drained ended => exact ended.returned

/-- Requests one after the other, each of which finds what the last one left. -/
inductive Request.Served : List Frame → List Request → List (Drained Transmission) → Prop
  | nil {waiting : List Frame} : Served waiting [] []
  | cons {waiting : List Frame} {request : Request} {requests : List Request}
      {d : Drained Transmission} {returns : List (Drained Transmission)}
      (first : request.Stopped waiting d) (later : Served d.outbound.queue requests returns) :
      Served waiting (request :: requests) (d :: returns)

theorem Request.Served.length {waiting : List Frame} {requests : List Request}
    {returns : List (Drained Transmission)} (h : Served waiting requests returns) :
    returns.length = requests.length := by
  induction h with
  | nil => rfl
  | cons first later ih => rw [List.length_cons, List.length_cons, ih]

theorem Request.Served.returned {waiting : List Frame} {requests : List Request}
    {returns : List (Drained Transmission)} (h : Served waiting requests returns) :
    ∀ d ∈ returns, d.Returned := by
  induction h with
  | nil => simp
  | cons first later ih => exact List.forall_mem_cons.mpr ⟨first.returned, ih⟩

/-- The write calls of a run met the outcomes of the script in order. Past the last of them the stream
took nothing. -/
def Sending.Answered (script : List WriteOutcome) (run : Sending) : Prop :=
  ∃ extra, script ++ List.replicate extra .block = run.calls.map (·.answer) ++ run.unused ∧
    (extra ≠ 0 → run.unused = [])

/-- One more request in front of a run. -/
theorem Sending.Answered.cons {script : List WriteOutcome} {d : Drained Transmission}
    {later : Sending} (hd : Met script d) (h : later.Answered d.unused) :
    Answered script { later with returns := d :: later.returns } := by
  obtain ⟨extra, hlater, hleft⟩ := h
  have hcalls : calls { later with returns := d :: later.returns } = d.calls ++ later.calls :=
    List.flatMap_cons
  unfold Answered
  rw [hcalls, List.map_append]
  rcases hd with hscript | ⟨hunused, hscript⟩
  · refine ⟨extra, ?_, hleft⟩
    rw [hscript, List.append_assoc, List.append_assoc, hlater]
  · -- the call past the end of the script is followed by such calls only
    rw [hunused, List.nil_append] at hlater
    refine ⟨extra + 1, ?_, fun _ => ?_⟩
    · rw [← hscript, List.replicate_succ, List.append_assoc, List.append_assoc, ← hlater]
      rfl
    · by_cases hextra : extra = 0
      · rw [hextra, List.replicate_zero] at hlater
        exact (List.append_eq_nil_iff.mp hlater.symm).2
      · exact hleft hextra

/-- One request: no slice is missing, the history goes on, and it is known where the calls stop. -/
theorem Request.serve?_accounts {h : History} {frames : List Frame} {s : Transmission}
    (ha : h.Accounts frames s) (request : Request) (script : List WriteOutcome) :
    ∃ d h', request.serve? s script = some d ∧ request.Stopped s.queue d ∧ Met script d ∧
      History.Accounts h' (frames ++ request.frames) d.outbound ∧ h'.calls = h.calls ++ d.calls := by
  have hdrain : ∀ {frames' : List Frame} {t : Transmission}, h.Accounts frames' t →
      ∃ d h', t.drain? script = some d ∧ d.Ended ∧ Met script d ∧
        History.Accounts h' frames' d.outbound ∧ h'.calls = h.calls ++ d.calls := by
    intro frames' t ha'
    obtain ⟨d, hd, htrace, hended, hmet⟩ := drain?_trace ha'.sound script
    obtain ⟨h', ha'', hcalls⟩ := ha'.trace htrace
    exact ⟨d, h', hd, hended, hmet, ha'', hcalls⟩
  cases request with
  | drain =>
    rw [Request.frames, List.append_nil]
    obtain ⟨d, h', hd, hended, haccounts⟩ := hdrain ha
    exact ⟨d, h', hd, .drained hended, haccounts⟩
  | enqueue f =>
    show ∃ d h', s.enqueue? f script = some d ∧ _
    unfold Transmission.enqueue?
    dsimp only
    rw [List.length_append, List.length_singleton]
    split
    next hbusy =>
      -- something waits already, so that nothing is written
      have hwaits : s.queue ≠ [] := List.ne_nil_of_length_pos (by omega)
      exact ⟨_, h, rfl, .behind hwaits, .inl rfl, ha.push f, (List.append_nil _).symm⟩
    next hidle =>
      have hempty : s.queue = [] := List.eq_nil_of_length_eq_zero (by omega)
      obtain ⟨d, h', hd, hended, haccounts⟩ := hdrain (ha.push f)
      exact ⟨d, h', hd, .alone hempty hended, haccounts⟩

/-- The history of a run. -/
theorem sendAll?_accounts {h : History} {frames : List Frame} {s : Transmission}
    (ha : h.Accounts frames s) (requests : List Request) (script : List WriteOutcome) :
    ∃ run h', sendAll? s requests script = some run ∧
      Request.Served s.queue requests run.returns ∧ run.Answered script ∧
      History.Accounts h' (frames ++ requests.flatMap Request.frames) run.outbound ∧
      h'.calls = h.calls ++ run.calls := by
  -- each request hands the outcomes that it did not use, and the history, to the next
  induction requests generalizing h frames s script with
  | nil =>
    refine ⟨_, h, rfl, .nil, ⟨0, List.append_nil _, by simp⟩, ?_, (List.append_nil _).symm⟩
    rw [List.flatMap_nil, List.append_nil]
    exact ha
  | cons request requests ih =>
    obtain ⟨d, h', hd, hstopped, hmet, ha', hcalls⟩ := request.serve?_accounts ha script
    obtain ⟨later, h'', hlater, hserved, hanswered, ha'', hcalls'⟩ := ih ha' d.unused
    refine ⟨{ later with returns := d :: later.returns }, h'', ?_, .cons hstopped hserved,
      .cons hmet hanswered, ?_, ?_⟩
    · simp only [sendAll?, hd, hlater, Option.bind_eq_bind, Option.bind_some]
    · rw [List.flatMap_cons, ← List.append_assoc]
      exact ha''
    · rw [hcalls', hcalls, List.append_assoc]
      rfl

/-! ## Interruptions -/

/-- A run without the calls that were interrupted. -/
def Drained.quiet {σ : Type} (d : Drained σ) : Drained σ :=
  { d with
    calls := d.calls.filter fun c => !c.answer.interrupted
    unused := d.unused.filter fun a => !a.interrupted }

def Sending.quiet (run : Sending) : Sending :=
  { run with
    returns := run.returns.map Drained.quiet
    unused := run.unused.filter fun a => !a.interrupted }

theorem Drained.quiet_after_interrupted {σ : Type} {c : WriteCall}
    (h : c.answer.interrupted = true) (d : Drained σ) : (d.after c).quiet = d.quiet := by
  simp only [quiet, after, List.filter_cons, h, Bool.not_true, Bool.false_eq_true, if_false]

theorem Drained.quiet_after {σ : Type} {c : WriteCall} (h : c.answer.interrupted = false)
    (d : Drained σ) : (d.after c).quiet = d.quiet.after c := by
  simp only [quiet, after, List.filter_cons, h, Bool.not_false, if_true]

/-- A run of one call that was not interrupted. -/
theorem Drained.quiet_single {σ : Type} {c : WriteCall} (h : c.answer.interrupted = false)
    (outbound : σ) (result : Except SystemError Bool) (unused : List WriteOutcome) :
    quiet ⟨outbound, result, [c], unused⟩ =
      ⟨outbound, result, [c], unused.filter fun a => !a.interrupted⟩ := by
  simp only [quiet, List.filter_cons, h, Bool.not_false, if_true, List.filter_nil]

namespace Transmission

theorem drain?_idle (sent : Nat) (script : List WriteOutcome) :
    drain? ⟨[], sent⟩ script = some ⟨⟨[], sent⟩, .ok true, [], script⟩ := by
  cases script <;> rfl

/-- Draining comes to the same if no call is interrupted. -/
theorem drain?_quiet {s : Transmission} (hs : s.Sound) (script : List WriteOutcome) :
    s.drain? (script.filter fun a => !a.interrupted) = (s.drain? script).map Drained.quiet := by
  induction script generalizing s with
  | nil =>
    cases hs with
    | idle => rfl
    | @busy head rest sent short =>
      obtain ⟨c, hc, -, hanswer, -⟩ := write?_eq short .block
      have hkept : c.answer.interrupted = false := by rw [hanswer]; rfl
      rw [List.filter_nil, drain?, hc]
      simp only [Option.bind_eq_bind, Option.bind_some, Option.map_some,
        Drained.quiet_single hkept, List.filter_nil]
  | cons answer script ih =>
    cases hs with
    | idle => rw [drain?_idle, drain?_idle]; rfl
    | @busy head rest sent short =>
      obtain ⟨c, hc, hframe, hanswer, hoffered⟩ := write?_eq short answer
      by_cases hquiet : answer.interrupted = true
      · -- the call is made again, with the next outcome
        have heffect : c.effect = .again := by
          rw [WriteCall.effect, hanswer]
          exact WriteOutcome.effect_again hquiet
        rw [List.filter_cons, hquiet, Bool.not_true, if_neg Bool.false_ne_true, ih (.busy short),
          drain?, hc]
        simp only [Option.bind_eq_bind, Option.bind_some, heffect, Option.map_map]
        congr 1
        funext d
        exact (d.quiet_after_interrupted (hanswer ▸ hquiet)).symm
      · have hkept : answer.interrupted = false := Bool.not_eq_true _ ▸ hquiet
        have hkept' : c.answer.interrupted = false := hanswer ▸ hkept
        -- the call is made in both runs, and what follows comes to the same
        have hstep : ∀ t : Transmission, Step ⟨head :: rest, sent⟩ c t →
            (t.drain? (script.filter fun a => !a.interrupted)).map (·.after c) =
              ((t.drain? script).map (·.after c)).map Drained.quiet := by
          intro t hstep
          rw [ih hstep.sound, Option.map_map, Option.map_map]
          congr 1
          funext d
          exact (d.quiet_after hkept').symm
        rw [List.filter_cons, hkept, Bool.not_false, if_pos rfl, drain?, drain?, hc]
        simp only [Option.bind_eq_bind, Option.bind_some]
        cases heffect : c.effect with
        | moved taken => exact hstep _ (advance_step short hframe hoffered heffect)
        | dropped =>
          rw [advance_length]
          exact hstep _ (.dropped hframe hoffered heffect short)
        | again => exact hstep _ (.stayed hframe hoffered (.inl heffect) short)
        | blocked => simp only [Option.map_some, Drained.quiet_single hkept']
        | failed e => simp only [Option.map_some, Drained.quiet_single hkept']

end Transmission

theorem Request.serve?_quiet {s : Transmission} (hs : s.Sound) (request : Request)
    (script : List WriteOutcome) :
    request.serve? s (script.filter fun a => !a.interrupted) =
      (request.serve? s script).map Drained.quiet := by
  cases request with
  | drain => exact drain?_quiet hs script
  | enqueue f =>
    show s.enqueue? f _ = (s.enqueue? f script).map Drained.quiet
    unfold Transmission.enqueue?
    dsimp only
    split
    next => rfl
    next => exact drain?_quiet (hs.push f) script

theorem sendAll?_quiet {h : History} {frames : List Frame} {s : Transmission}
    (ha : h.Accounts frames s) (requests : List Request) (script : List WriteOutcome) :
    sendAll? s requests (script.filter fun a => !a.interrupted) =
      (sendAll? s requests script).map Sending.quiet := by
  induction requests generalizing h frames s script with
  | nil => rfl
  | cons request requests ih =>
    obtain ⟨d, h', hd, -, -, ha', -⟩ := request.serve?_accounts ha script
    simp only [sendAll?, request.serve?_quiet ha.sound, hd, Option.map_some, Option.bind_eq_bind,
      Option.bind_some]
    have hlater := ih ha' d.unused
    show (sendAll? d.outbound requests (d.unused.filter fun a => !a.interrupted)).bind _ = _
    rw [hlater]
    cases sendAll? d.outbound requests d.unused <;> rfl

/-! ## The law of a queue -/

/-- **Frames leave in order.** Whatever is asked of a queue, and whatever the stream answers, no slice
is missing and no write call offers nothing. The frames that came are those that left and those that
wait. What was written is what was written of the frames that left, and the bytes of the head that are
out; a frame that left was written whole, or the peer was lost at the last call for it. Each request
returns whether the queue is empty, or the error that ended it; interruptions are of no account. The
calls meet the outcomes of the script in order, and it is known where each request stops. -/
theorem sendAll?_fifo (requests : List Request) (script : List WriteOutcome) :
    ∃ (run : Sending) (gone : List Departure) (current : List WriteCall),
      sendAll? .new requests script = some run ∧
      run.returns.length = requests.length ∧
      requests.flatMap Request.frames = gone.map Departure.frame ++ run.outbound.queue ∧
      run.calls = gone.flatMap Departure.calls ++ current ∧
      accepted run.calls = gone.flatMap Departure.written ++ run.outbound.begun ∧
      (∀ d ∈ gone, (∀ c ∈ d.calls, c.frame = d.frame) ∧ d.Left) ∧
      (∀ c ∈ current, run.outbound.queue.head? = some c.frame ∧ c.answer.losesPeer = false) ∧
      run.calls.countP (·.answer.losesPeer) = gone.countP (fun d => d.written ≠ d.frame.encode) ∧
      (run.outbound.queue = [] → run.outbound.sent = 0) ∧
      (∀ head rest, run.outbound.queue = head :: rest → run.outbound.sent < head.encode.length) ∧
      (∀ c ∈ run.calls, c.slices.bytes ≠ []) ∧
      (∀ d ∈ run.returns, d.Returned) ∧
      Request.Served [] requests run.returns ∧
      run.Answered script ∧
      sendAll? .new requests (script.filter fun a => !a.interrupted) = some run.quiet := by
  obtain ⟨run, h, hrun, hserved, hanswered, ha, hcalls⟩ :=
    sendAll?_accounts History.accounts_new requests script
  have hcalls : h.calls = run.calls := hcalls
  refine ⟨run, h.gone, h.current, hrun, hserved.length, ha.order, hcalls.symm, ?_, ha.left, ha.head,
    ?_, ?_, ?_, ?_, hserved.returned, hserved, hanswered, ?_⟩
  · rw [← hcalls]
    exact ha.accepted_calls
  · rw [← hcalls]
    exact ha.countP
  · exact ha.sound.sent_of_idle
  · intro head rest hqueue
    rw [Frame.length_encode]
    exact ha.sound.sent_lt hqueue
  · rw [← hcalls]
    exact ha.offered
  · rw [sendAll?_quiet History.accounts_new, hrun]
    rfl

/-- A frame of eighteen bytes goes out in two parts, with an interruption and a block in between; the
next loses its peer after five bytes; of the last one three bytes are out. -/
theorem sendAll?_fifo_cut :
    let f : Frame := ⟨⟨18, 1, 2, 3⟩, [7, 8]⟩
    let g : Frame := ⟨⟨17, 1, 2, 4⟩, [9]⟩
    let last : Frame := ⟨⟨16, 1, 2, 5⟩, []⟩
    ∃ (run : Sending) (gone : List Departure),
      sendAll? .new [.enqueue f, .enqueue g, .drain, .enqueue last]
        [.accept 10, .fault (.ofKind .interrupted), .block, .accept 100, .accept 5, .accept 0,
          .accept 3, .block, .accept 9] = some run ∧
      gone.map Departure.frame = [f, g] ∧
      gone.flatMap Departure.written = f.encode ++ g.encode.take 5 ∧
      gone.countP (fun d => d.written ≠ d.frame.encode) = 1 ∧
      run.outbound = ⟨[last], 3⟩ ∧
      accepted run.calls = f.encode ++ g.encode.take 5 ++ last.encode.take 3 ∧
      run.returns.map (·.result) = [.ok false, .ok false, .ok true, .ok false] ∧
      run.unused = [.accept 9] := by
  intro f g last
  obtain ⟨run, gone, current, hrun, -, horder, -, haccepted, -, -, hlost, -⟩ :=
    sendAll?_fifo [.enqueue f, .enqueue g, .drain, .enqueue last]
      [.accept 10, .fault (.ofKind .interrupted), .block, .accept 100, .accept 5, .accept 0,
        .accept 3, .block, .accept 9]
  have hvalues : (sendAll? .new [.enqueue f, .enqueue g, .drain, .enqueue last]
      [.accept 10, .fault (.ofKind .interrupted), .block, .accept 100, .accept 5, .accept 0,
        .accept 3, .block, .accept 9]).map (fun run => (run.outbound, accepted run.calls,
          run.calls.countP (·.answer.losesPeer), run.returns.map (·.result), run.unused)) =
      some (⟨[last], 3⟩, f.encode ++ g.encode.take 5 ++ last.encode.take 3, 1,
        [.ok false, .ok false, .ok true, .ok false], [.accept 9]) := by cbv
  rw [hrun, Option.map_some, Option.some.injEq] at hvalues
  obtain ⟨hqueue, hbytes, hcount, hresults, hunused⟩ : _ ∧ _ ∧ _ ∧ _ ∧ _ := by
    simpa only [Prod.mk.injEq] using hvalues
  have hgone : [f, g] ++ [last] = gone.map Departure.frame ++ [last] := by
    rw [hqueue] at horder
    exact horder
  have hwritten : f.encode ++ g.encode.take 5 ++ last.encode.take 3 =
      gone.flatMap Departure.written ++ last.encode.take 3 := by
    rw [hbytes, hqueue] at haccepted
    exact haccepted
  exact ⟨run, gone, hrun, (List.append_cancel_right hgone).symm,
    (List.append_cancel_right hwritten).symm, hlost.symm.trans hcount, hqueue, hbytes, hresults,
    hunused⟩
end EchoLoad.Framing
