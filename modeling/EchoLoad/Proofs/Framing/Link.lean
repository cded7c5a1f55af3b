import EchoLoad.Proofs.Framing.Reassembly
import EchoLoad.Proofs.Framing.Sending

/-!
# Two connections joined by a stream

One side is asked to send frames, the other is fed what the stream took, cut as it happens to arrive.
The two take turns in any order, and the stream may lose its peer, if it then takes no more bytes.

> `Link.run?_delivers`: no feed fails, and at every moment the frames delivered are the first of those
> that came. If no frame was dropped, nothing waits and nothing is on the wire, they are all delivered,
> and no part of a message is left over.

What the stream took is always a front of the encodings of the frames that came
(`History.Accounts.accepted_prefix`): once a frame is dropped with its end missing, nothing follows it.
So what the receiver was fed is such a front too, and its cut is known (`Segmented.of_prefix`).
-/

namespace EchoLoad.Framing

/-! ## A stream that lost its peer takes no more -/

namespace WriteOutcome

/-- Some bytes are taken. -/
def takesBytes : WriteOutcome → Bool
  | accept most => most != 0
  | fault _ => false

/-- Once the peer is lost, no more bytes are taken. -/
def LostForGood (script : List WriteOutcome) : Prop :=
  script.Pairwise fun a b => a.losesPeer = true → b.takesBytes = false

instance (script : List WriteOutcome) : Decidable (LostForGood script) :=
  inferInstanceAs (Decidable (List.Pairwise _ _))

/-- A stream that takes nothing for now may follow. -/
theorem LostForGood.block {script : List WriteOutcome} (h : LostForGood script) :
    LostForGood (script ++ [.block]) := by
  refine List.pairwise_append.mpr ⟨h, List.pairwise_singleton _ _, ?_⟩
  intro a _ b hb _
  rw [List.mem_singleton.mp hb]
  rfl

end WriteOutcome

theorem accepted_of_not_takesBytes {calls : List WriteCall}
    (h : ∀ c ∈ calls, c.answer.takesBytes = false) : accepted calls = [] := by
  rw [accepted, List.flatMap_eq_nil_iff]
  intro c hc
  have hanswer := h c hc
  rw [WriteCall.accepted]
  split
  next taken heffect =>
    cases hcase : c.answer with
    | accept most =>
      rw [hcase] at hanswer
      have hzero : most = 0 := by simpa [WriteOutcome.takesBytes] using hanswer
      rw [WriteCall.effect, hcase, hzero] at heffect
      exact absurd heffect (by simp [WriteOutcome.effect])
    | fault e =>
      rw [WriteCall.effect, hcase, WriteOutcome.effect] at heffect
      split at heffect <;> exact absurd heffect (by simp)
  next => rfl

/-- What was taken of frames that left and of those that wait, if a peer that is lost takes no more, is
a front of their encodings. -/
theorem accepted_prefix {gone : List Departure} {current : List WriteCall} {frames : List Frame}
    (hgone : ∀ d ∈ gone, d.Left) (hcurrent : accepted current <+: frames.flatMap Frame.encode)
    (hlost : WriteOutcome.LostForGood ((gone.flatMap (·.calls) ++ current).map (·.answer))) :
    accepted (gone.flatMap (·.calls) ++ current) <+:
      (gone.map (·.frame) ++ frames).flatMap Frame.encode := by
  -- as long as frames left whole, the bytes of the next begin where they ended
  induction gone with
  | nil => exact hcurrent
  | cons d gone ih =>
    obtain ⟨hd, hgone⟩ := List.forall_mem_cons.mp hgone
    rw [List.flatMap_cons, List.append_assoc, List.map_append] at hlost
    obtain ⟨-, hlater, hacross⟩ := List.pairwise_append.mp hlost
    rw [List.flatMap_cons, List.append_assoc, accepted_append, List.map_cons, List.cons_append,
      List.flatMap_cons]
    cases hd with
    | whole kept written =>
      show d.written ++ _ <+: _
      rw [written, List.prefix_append_right_inj]
      exact ih hgone hlater
    | cut before last calls kept lost some_left =>
      -- nothing is taken after the last call
      obtain ⟨left, -, hencode⟩ := some_left
      have hlast : last.answer ∈ d.calls.map (·.answer) := by simp [calls]
      have hnothing : accepted (gone.flatMap (·.calls) ++ current) = [] := by
        apply accepted_of_not_takesBytes
        intro c hc
        exact hacross _ hlast _ (List.mem_map_of_mem hc) lost
      rw [hnothing, List.append_nil, hencode, List.append_assoc]
      exact List.prefix_append _ _

theorem History.Accounts.accepted_prefix {h : History} {frames : List Frame} {s : Transmission}
    (ha : h.Accounts frames s) (hlost : WriteOutcome.LostForGood (h.calls.map (·.answer))) :
    accepted h.calls <+: frames.flatMap Frame.encode := by
  rw [ha.order]
  refine Framing.accepted_prefix (fun d hd => (ha.left d hd).2) ?_ hlost
  rw [ha.begun]
  cases ha.sound with
  | idle => exact List.nil_prefix
  | busy short =>
    rw [List.flatMap_cons]
    exact (List.take_prefix _ _).trans (List.prefix_append _ _)

/-- If no frame was dropped and none waits, all of them were taken. -/
theorem History.Accounts.accepted_all {h : History} {frames : List Frame} {s : Transmission}
    (ha : h.Accounts frames s) (hidle : s.queue = [])
    (hkept : ∀ c ∈ h.calls, c.answer.losesPeer = false) :
    accepted h.calls = frames.flatMap Frame.encode := by
  have hbegun : s.begun = [] := by rw [Transmission.begun, hidle]
  rw [ha.accepted_calls, hbegun, List.append_nil, ha.order, hidle, List.append_nil,
    List.flatMap_map, List.flatMap_def, List.flatMap_def]
  refine congrArg List.flatten (List.map_congr_left ?_)
  intro d hd
  cases (ha.left d hd).2 with
  | whole kept written => exact written
  | cut before last calls kept lost some_left =>
    have hlast : last ∈ h.calls := by
      rw [History.calls, List.mem_append, List.mem_flatMap]
      exact .inl ⟨d, hd, by simp [calls]⟩
    rw [hkept last hlast] at lost
    exact absurd lost Bool.false_ne_true

/-! ## The two sides -/

/-- A side that sends, a side that receives, and what lies between them. -/
structure Link where
  outbound : Transmission
  /-- the outcomes that the writes to come will have -/
  script : List WriteOutcome
  /-- the write calls so far -/
  calls : List WriteCall
  /-- what the stream took and the receiver was not fed yet -/
  wire : Bytes
  inbound : Assembly
  /-- the frames that came out at the receiver -/
  delivered : List Frame
  /-- what each feed returned -/
  feeds : List (Except FrameError Nat)

namespace Link

/-- What happens next. -/
inductive Event
  /-- the sender is asked for something -/
  | send (request : Request)
  /-- the receiver is fed so many bytes of the wire, or all there are -/
  | receive (most : Nat)

/-- The frames that come with an event. -/
def Event.frames : Event → List Frame
  | send request => request.frames
  | receive _ => []

/-- Two fresh connections. -/
def start (script : List WriteOutcome) : Link := ⟨.new, script, [], [], .new, [], []⟩

/-- What comes of an event. -/
def step? (limit : Nat) (l : Link) : Event → Option Link
  | .send request => do
    let d ← request.serve? l.outbound l.script
    some { l with
      outbound := d.outbound
      script := d.unused
      calls := l.calls ++ d.calls
      wire := l.wire ++ d.written }
  | .receive most => do
    let chunk := l.wire.take most
    let g ← l.inbound.gather? limit chunk
    some { l with
      wire := l.wire.drop most
      inbound := g.assembly
      delivered := l.delivered ++ g.frames
      feeds := l.feeds ++ [g.result chunk] }

/-- Events one after the other. -/
def run? (limit : Nat) (l : Link) (events : List Event) : Option Link :=
  events.foldlM (step? limit) l

/-- What is between the two sides adds up: the bytes that the stream took are those that were fed and
those on the wire, and what was fed is cut into the frames that were delivered. -/
structure Joined (limit : Nat) (frames : List Frame) (l : Link) : Prop where
  history : ∃ h : History, h.Accounts frames l.outbound ∧ h.calls = l.calls
  lost : WriteOutcome.LostForGood (l.calls.map (·.answer) ++ l.script)
  fed : ∃ fed, accepted l.calls = fed ++ l.wire ∧ Segmented limit fed l.delivered l.inbound.held
  sound : l.inbound.Sound limit
  feeds : ∀ r ∈ l.feeds, errorOf? r = none

theorem joined_start {limit : Nat} {script : List WriteOutcome}
    (hlost : WriteOutcome.LostForGood script) : Joined limit [] (start script) where
  history := ⟨_, History.accounts_new, rfl⟩
  lost := hlost
  fed := ⟨[], rfl, Segmented.nil limit⟩
  sound := Assembly.sound_new limit
  feeds := by simp [start]

/-- All that the stream took is a front of the encodings of the frames that came. -/
theorem Joined.accepted_prefix {limit : Nat} {frames : List Frame} {l : Link}
    (hl : l.Joined limit frames) : accepted l.calls <+: frames.flatMap Frame.encode := by
  obtain ⟨h, ha, hcalls⟩ := hl.history
  rw [← hcalls]
  apply ha.accepted_prefix
  rw [hcalls]
  exact (List.pairwise_append.mp hl.lost).1

/-- The sender serves a request. -/
theorem Joined.send {limit : Nat} {frames : List Frame} {l : Link} (hl : l.Joined limit frames)
    (request : Request) :
    ∃ l', l.step? limit (.send request) = some l' ∧ l'.Joined limit (frames ++ request.frames) := by
  obtain ⟨h, ha, hcalls⟩ := hl.history
  obtain ⟨d, h', hd, -, hmet, ha', hcalls'⟩ := request.serve?_accounts ha l.script
  refine ⟨_, by simp only [step?, hd, Option.bind_eq_bind, Option.bind_some]; rfl, ?_⟩
  refine ⟨⟨h', ha', by rw [hcalls', hcalls]⟩, ?_, ?_, hl.sound, hl.feeds⟩
  · show WriteOutcome.LostForGood ((l.calls ++ d.calls).map (·.answer) ++ d.unused)
    rw [List.map_append, List.append_assoc]
    rcases hmet with hscript | ⟨hunused, hscript⟩
    · rw [← hscript]
      exact hl.lost
    · rw [hunused, List.append_nil, ← hscript, ← List.append_assoc]
      exact hl.lost.block
  · obtain ⟨fed, hfed, hcut⟩ := hl.fed
    refine ⟨fed, ?_, hcut⟩
    show accepted (l.calls ++ d.calls) = fed ++ (l.wire ++ d.written)
    rw [accepted_append, hfed, List.append_assoc]
    rfl

/-- The receiver is fed. The bytes are a front of the encodings of fitting frames, so that no header
can be out of bounds. -/
theorem Joined.receive {limit : Nat} {frames : List Frame} {l : Link} (hl : l.Joined limit frames)
    (hfits : ∀ f ∈ frames, f.Fits limit) (most : Nat) :
    ∃ l', l.step? limit (.receive most) = some l' ∧ l'.Joined limit frames := by
  obtain ⟨fed, hfed, hcut⟩ := hl.fed
  obtain ⟨g, hg, hfollows⟩ := l.inbound.gather?_follows hl.sound (l.wire.take most)
  have hbytes : accepted l.calls = (fed ++ l.wire.take most) ++ l.wire.drop most := by
    rw [hfed, List.append_assoc, List.take_append_drop]
  have hfront : fed ++ l.wire.take most <+: frames.flatMap Frame.encode := by
    refine List.IsPrefix.trans ?_ hl.accepted_prefix
    rw [hbytes]
    exact List.prefix_append _ _
  -- the cut of all bytes fed, which the one that the feed made must be
  obtain ⟨frames', rest, hcut', -, hopen⟩ := Segmented.of_prefix hfits hfront
  refine ⟨_, by simp only [step?, hg, Option.bind_eq_bind, Option.bind_some]; rfl, ?_⟩
  rcases hfollows.cut with ⟨hnone, -, hchunk⟩ | ⟨h, lost, -, hdecoded, hrefused, hchunk⟩
  · have hresult : errorOf? (g.result (l.wire.take most)) = none := by
      rw [Gathered.result, hnone]
      rfl
    exact ⟨hl.history, hl.lost, ⟨_, hbytes, hcut.append hchunk⟩, hfollows.sound,
      List.forall_mem_append.mpr ⟨hl.feeds, List.forall_mem_singleton.mpr hresult⟩⟩
  · -- the rest of the bytes fed would begin with a header out of bounds
    obtain ⟨-, hrest⟩ := (hcut.append hchunk).unique hcut'
    have hblocked : Blocked limit g.assembly.held := ⟨h, hdecoded, hrefused⟩
    exact absurd (hrest ▸ hblocked.append lost) hopen

theorem Joined.step {limit : Nat} {frames : List Frame} {l : Link} (hl : l.Joined limit frames)
    (event : Event) (hfits : ∀ f ∈ frames ++ event.frames, f.Fits limit) :
    ∃ l', l.step? limit event = some l' ∧ l'.Joined limit (frames ++ event.frames) := by
  cases event with
  | send request => exact hl.send request
  | receive most =>
    rw [Event.frames, List.append_nil] at hfits ⊢
    exact hl.receive hfits most

theorem Joined.run {limit : Nat} {frames : List Frame} {l : Link} (hl : l.Joined limit frames)
    (events : List Event) (hfits : ∀ f ∈ frames ++ events.flatMap Event.frames, f.Fits limit) :
    ∃ l', l.run? limit events = some l' ∧
      l'.Joined limit (frames ++ events.flatMap Event.frames) := by
  induction events generalizing l frames with
  | nil =>
    refine ⟨l, rfl, ?_⟩
    rw [List.flatMap_nil, List.append_nil]
    exact hl
  | cons event events ih =>
    rw [List.flatMap_cons, ← List.append_assoc] at hfits ⊢
    have hnow : ∀ f ∈ frames ++ event.frames, f.Fits limit :=
      fun f hf => hfits f (List.mem_append_left _ hf)
    obtain ⟨l', hstep, hl'⟩ := hl.step event hnow
    obtain ⟨l'', hrun, hl''⟩ := ih hl' hfits
    refine ⟨l'', ?_, hl''⟩
    rw [run?, List.foldlM_cons, hstep]
    exact hrun

/-- The frames delivered are the first of those that came. -/
theorem Joined.delivered_prefix {limit : Nat} {frames : List Frame} {l : Link}
    (hl : l.Joined limit frames) (hfits : ∀ f ∈ frames, f.Fits limit) :
    l.delivered <+: frames := by
  obtain ⟨fed, hfed, hcut⟩ := hl.fed
  have hfront : fed <+: frames.flatMap Frame.encode :=
    (hfed ▸ List.prefix_append fed l.wire).trans hl.accepted_prefix
  obtain ⟨frames', rest, hcut', hframes, -⟩ := Segmented.of_prefix hfits hfront
  rw [(hcut.unique hcut').1]
  exact hframes

/-- Nothing waits, nothing was dropped and nothing is on the wire. -/
theorem Joined.delivered_all {limit : Nat} {frames : List Frame} {l : Link}
    (hl : l.Joined limit frames) (hfits : ∀ f ∈ frames, f.Fits limit)
    (hidle : l.outbound.queue = []) (hkept : ∀ c ∈ l.calls, c.answer.losesPeer = false)
    (hwire : l.wire = []) : l.delivered = frames ∧ l.inbound.held = [] := by
  obtain ⟨h, ha, hcalls⟩ := hl.history
  obtain ⟨fed, hfed, hcut⟩ := hl.fed
  have hall := ha.accepted_all hidle (hcalls ▸ hkept)
  rw [hcalls, hfed, hwire, List.append_nil] at hall
  have hcut' : Segmented limit fed frames [] :=
    ⟨by rw [List.append_nil]; exact hall, hfits, noFrame_nil limit⟩
  exact hcut.unique hcut'

/-- **Frames are delivered in order, and once.** The sender is given fitting frames, in any order of
requests and feeds, and the stream takes no byte after it lost its peer. Then no slice is missing and no
feed fails, the frames delivered are at every moment the first of those that came, and what is held and
on the wire is a front of the next. If none was dropped, none waits and nothing is on the wire, they are
all delivered and no part of a message is held by the receiver. -/
theorem run?_delivers (limit : Nat) (events : List Event) (script : List WriteOutcome)
    (hfits : ∀ f ∈ events.flatMap Event.frames, f.Fits limit)
    (hlost : WriteOutcome.LostForGood script) :
    ∃ l, run? limit (start script) events = some l ∧
      (∀ r ∈ l.feeds, ∃ n, r = .ok n) ∧
      l.delivered <+: events.flatMap Event.frames ∧
      l.delivered.flatMap Frame.encode ++ l.inbound.held ++ l.wire <+:
        (events.flatMap Event.frames).flatMap Frame.encode ∧
      (l.outbound.queue = [] → (∀ c ∈ l.calls, c.answer.losesPeer = false) → l.wire = [] →
        l.delivered = events.flatMap Event.frames ∧ l.inbound.received = 0 ∧ l.inbound.held = []) := by
  obtain ⟨l, hrun, hl⟩ := (joined_start hlost).run events hfits
  rw [List.nil_append] at hl
  refine ⟨l, hrun, ?_, hl.delivered_prefix hfits, ?_, ?_⟩
  · intro r hr
    have hnone := hl.feeds r hr
    cases r with
    | ok n => exact ⟨n, rfl⟩
    | error e => exact absurd hnone (by simp [errorOf?])
  · obtain ⟨fed, hfed, hcut⟩ := hl.fed
    rw [← hcut.bytes, ← hfed]
    exact hl.accepted_prefix
  · intro hidle hkept hwire
    obtain ⟨hdelivered, hheld⟩ := hl.delivered_all hfits hidle hkept hwire
    have hlength := Assembly.length_held hl.sound
    rw [hheld] at hlength
    exact ⟨hdelivered, hlength.symm, hheld⟩

/-- Two frames, the first of which is taken in three parts; the receiver gets the first out of two
chunks, and the second out of the rest of these and a third. -/
theorem run?_delivers_first :
    let f : Frame := ⟨⟨18, 1, 2, 3⟩, [7, 8]⟩
    let g : Frame := ⟨⟨16, 1, 2, 4⟩, []⟩
    ∃ l, run? 64
        (start [.accept 10, .fault (.ofKind .interrupted), .accept 7, .block, .accept 9, .accept 40])
        [.send (.enqueue f), .receive 7, .send (.enqueue g), .send .drain, .receive 20, .receive 20] =
          some l ∧
      (∀ r ∈ l.feeds, ∃ n, r = .ok n) ∧ l.feeds.length = 3 ∧
      l.outbound.queue = [] ∧ l.wire = [] ∧ accepted l.calls = f.encode ++ g.encode ∧
      l.delivered = [f, g] ∧ l.inbound.received = 0 ∧ l.inbound.held = [] := by
  intro f g
  obtain ⟨l, hrun, hfeeds, -, -, hall⟩ := run?_delivers 64
    [.send (.enqueue f), .receive 7, .send (.enqueue g), .send .drain, .receive 20, .receive 20]
    [.accept 10, .fault (.ofKind .interrupted), .accept 7, .block, .accept 9, .accept 40]
    (by decide) (by decide)
  have hvalues : (run? 64
      (start [.accept 10, .fault (.ofKind .interrupted), .accept 7, .block, .accept 9, .accept 40])
      [.send (.enqueue f), .receive 7, .send (.enqueue g), .send .drain, .receive 20,
        .receive 20]).map
        (fun l => (l.outbound.queue, l.wire, l.feeds.length, accepted l.calls,
          l.calls.all (!·.answer.losesPeer))) =
      some ([], [], 3, f.encode ++ g.encode, true) := by cbv
  rw [hrun, Option.map_some, Option.some.injEq] at hvalues
  obtain ⟨hidle, hwire, hcount, hbytes, hkept⟩ : _ ∧ _ ∧ _ ∧ _ ∧ _ := by
    simpa only [Prod.mk.injEq] using hvalues
  have hkept : ∀ c ∈ l.calls, c.answer.losesPeer = false := by
    simpa only [List.all_eq_true, Bool.not_eq_true'] using hkept
  obtain ⟨hdelivered, hreceived, hheld⟩ := hall hidle hkept hwire
  exact ⟨l, hrun, hfeeds, hcount, hidle, hwire, hbytes, hdelivered, hreceived, hheld⟩

end Link

end EchoLoad.Framing
