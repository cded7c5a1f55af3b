import EchoLoad.Proofs.Framing.Sending

/-!
# A stream that stays up

While the stream takes some bytes, or nothing for now, or is interrupted, no frame is dropped and no
call fails. Then what goes out and what waits add up to what was to be sent:

> `Request.serve?_steady`: the bytes written, followed by those that wait, are the bytes that waited
> before and the encodings of the frames that came.

`unsent` is what waits. A write call moves bytes from its front to the stream (`Step.unsent`).

How far writing goes is said by `Wrote`: until nothing waits, or until the stream takes nothing for now.
A request may also write nothing, if it is to add a frame to others that wait (`Request.serve?_wrote`).
-/

namespace EchoLoad.Framing

/-- The stream takes some bytes, or nothing for now, or was interrupted. -/
def WriteOutcome.staysUp : WriteOutcome → Bool
  | accept most => most != 0
  | fault e => e.kind == .wouldBlock || e.kind == .interrupted

/-- The stream takes nothing for now. -/
def WriteOutcome.blocks : WriteOutcome → Bool
  | accept _ => false
  | fault e => e.kind == .wouldBlock

theorem WriteOutcome.blocks_of_effect {offered : Bytes} {answer : WriteOutcome}
    (h : answer.effect offered = .blocked) : answer.blocks = true := by
  cases answer with
  | accept most =>
    simp only [effect] at h
    split at h <;> exact absurd h (by simp)
  | fault e =>
    simp only [effect] at h
    split at h <;> simp_all [blocks]

theorem WriteOutcome.staysUp_losesPeer {answer : WriteOutcome} (h : answer.staysUp = true) :
    answer.losesPeer = false := by
  cases answer with
  | accept most => simpa [staysUp, losesPeer] using h
  | fault e =>
    simp only [staysUp, Bool.or_eq_true, beq_iff_eq] at h
    rcases h with h | h <;> simp [losesPeer, h]

theorem WriteOutcome.staysUp_fatal {answer : WriteOutcome} (h : answer.staysUp = true) :
    answer.fatal? = none := by
  cases answer with
  | accept most => rfl
  | fault e =>
    simp only [staysUp, Bool.or_eq_true, beq_iff_eq] at h
    rcases h with h | h <;> simp [fatal?, h]

namespace Transmission

/-- The bytes that wait. -/
def unsent (s : Transmission) : Bytes := (s.queue.flatMap Frame.encode).drop s.sent

theorem unsent_cons {head : Frame} {rest : List Frame} {sent : Nat} (short : sent < head.length) :
    unsent ⟨head :: rest, sent⟩ = head.encode.drop sent ++ rest.flatMap Frame.encode := by
  rw [unsent, List.flatMap_cons, List.drop_append_of_le_length]
  rw [Frame.length_encode]
  exact Nat.le_of_lt short

/-- A frame comes. -/
theorem Sound.unsent_push {s : Transmission} (hs : s.Sound) (f : Frame) :
    unsent { s with queue := s.queue ++ [f] } = s.unsent ++ f.encode := by
  cases hs with
  | idle => rw [List.nil_append]; exact List.flatMap_singleton _ f
  | @busy head rest sent short =>
    rw [unsent_cons short]
    show unsent ⟨head :: (rest ++ [f]), sent⟩ = _
    rw [unsent_cons short, List.flatMap_append, List.flatMap_singleton, List.append_assoc]

/-- A write call takes bytes from the front of what waits. -/
theorem Step.unsent {s t : Transmission} {c : WriteCall} (h : Step s c t)
    (hup : c.answer.staysUp = true) : c.accepted ++ t.unsent = s.unsent := by
  have hoffered := h.offered_ne_nil
  cases h with
  | @moved head rest sent c taken left frame offered effect split some_taken some_left =>
    have hlen := congrArg List.length split
    have := List.length_pos_iff.mpr some_left
    rw [List.length_drop, Frame.length_encode, List.length_append] at hlen
    have hdrop : head.encode.drop (sent + taken.length) = left := by
      rw [← List.drop_drop, split, List.drop_left]
    rw [WriteCall.accepted, effect, unsent_cons (by omega), unsent_cons (by omega), hdrop, split,
      List.append_assoc]
  | @finished head rest sent c frame offered effect short =>
    rw [WriteCall.accepted, effect, unsent_cons short]
    rfl
  | dropped frame offered effect short =>
    -- a stream that stays up drops nothing
    have hlost := (WriteOutcome.effect_dropped hoffered).mp effect
    rw [WriteOutcome.staysUp_losesPeer hup] at hlost
    exact absurd hlost Bool.false_ne_true
  | stayed frame offered effect short =>
    rcases effect with effect | effect | ⟨e, effect⟩ <;> rw [WriteCall.accepted, effect] <;> rfl

theorem Trace.unsent {s t : Transmission} {calls : List WriteCall} (h : Trace s calls t)
    (hup : ∀ c ∈ calls, c.answer.staysUp = true) : accepted calls ++ t.unsent = s.unsent := by
  induction h with
  | nil => rfl
  | @cons s t u c calls first later ih =>
    obtain ⟨hc, hcalls⟩ := List.forall_mem_cons.mp hup
    rw [← first.unsent hc, ← ih hcalls, ← List.append_assoc]
    rfl

/-- The outcomes that a run met, and those that are left, are those of a stream that stays up. -/
theorem Met.staysUp {script : List WriteOutcome} {d : Drained Transmission} (h : Met script d)
    (hup : ∀ a ∈ script, a.staysUp = true) :
    (∀ c ∈ d.calls, c.answer.staysUp = true) ∧ ∀ a ∈ d.unused, a.staysUp = true := by
  rcases h with hscript | ⟨hunused, hscript⟩
  · rw [hscript] at hup
    constructor
    · intro c hc
      exact hup _ (List.mem_append_left _ (List.mem_map_of_mem hc))
    · intro a ha
      exact hup _ (List.mem_append_right _ ha)
  · constructor
    · intro c hc
      have hmem : c.answer ∈ script ++ [.block] := hscript ▸ List.mem_map_of_mem hc
      rcases List.mem_append.mp hmem with hmem | hmem
      · exact hup _ hmem
      · rw [List.mem_singleton.mp hmem]
        rfl
    · rw [hunused]
      simp

/-- Draining moves bytes from what waits to the stream, and fails never. -/
theorem drain?_steady {s : Transmission} (hs : s.Sound) {script : List WriteOutcome}
    (hup : ∀ a ∈ script, a.staysUp = true) :
    ∃ d, s.drain? script = some d ∧ d.result = .ok d.outbound.queue.isEmpty ∧
      d.written ++ d.outbound.unsent = s.unsent ∧ ∀ a ∈ d.unused, a.staysUp = true := by
  obtain ⟨d, hd, htrace, hended, hmet⟩ := drain?_trace hs script
  obtain ⟨hcalls, hunused⟩ := hmet.staysUp hup
  refine ⟨d, hd, ?_, htrace.unsent hcalls, hunused⟩
  cases hended.returned with
  | ok result quiet => exact result
  | error before last e result calls quiet fatal waits =>
    rw [WriteOutcome.staysUp_fatal (hcalls last (by simp [calls]))] at fatal
    exact absurd fatal (by simp)

end Transmission

/-- How far writing went on the outcomes of a script, of which some are left unused; `rests` is what
permits to write nothing at all. -/
inductive Wrote (rests : Prop) (script unused : List WriteOutcome) (s : Transmission) : Prop
  /-- nothing waits -/
  | all (left : unused <:+ script) (empty : s.queue = [])
  /-- the stream took nothing for now -/
  | blocked (before : List WriteOutcome) (last : WriteOutcome)
      (split : script = before ++ last :: unused) (blocks : last.blocks = true)
  /-- all outcomes were used -/
  | exhausted (left : unused = [])
  /-- nothing was written -/
  | rested (why : rests) (same : unused = script)

namespace Wrote

variable {rests rests' : Prop} {script unused unused' : List WriteOutcome} {s t : Transmission}

theorem suffix (h : Wrote rests script unused s) : unused <:+ script := by
  cases h with
  | all left empty => exact left
  | blocked before last split blocks => exact ⟨before ++ [last], by simp [split]⟩
  | exhausted left => exact left ▸ List.nil_suffix
  | rested why same => exact same ▸ List.suffix_refl _

/-- Where nothing is written, something waits or there is nothing to write. -/
theorem refl (script : List WriteOutcome) (s : Transmission) :
    Wrote (s.queue ≠ []) script script s := by
  by_cases hidle : s.queue = []
  · exact .all (List.suffix_refl script) hidle
  · exact .rested hidle rfl

/-- Writing went on: it may rest on the whole only if it may rest at first, and then may rest on what
still waits. -/
theorem trans (h : Wrote rests script unused s)
    (later : Wrote (s.queue ≠ [] ∧ rests') unused unused' t) :
    Wrote (rests ∧ rests') script unused' t := by
  obtain ⟨front, rfl⟩ := h.suffix
  cases later with
  | all left empty => exact .all (left.trans (List.suffix_append front unused)) empty
  | blocked before last split blocks =>
    exact .blocked (front ++ before) last (by rw [split, List.append_assoc]) blocks
  | exhausted left => exact .exhausted left
  | rested why same =>
    -- what stopped the first writing is what stopped the whole
    subst same
    cases h with
    | all left empty => exact absurd empty why.1
    | blocked before last split blocks => exact .blocked before last split blocks
    | exhausted left => exact .exhausted left
    | rested why' same => exact .rested ⟨why', why.2⟩ same

theorem mono (h : Wrote rests script unused s) (hrests : rests → rests') :
    Wrote rests' script unused s := by
  cases h with
  | all left empty => exact .all left empty
  | blocked before last split blocks => exact .blocked before last split blocks
  | exhausted left => exact .exhausted left
  | rested why same => exact .rested (hrests why) same

end Wrote

namespace Transmission

/-- Draining stops when nothing waits, or when the stream takes nothing. -/
theorem drain?_wrote {s : Transmission} (hs : s.Sound) {script : List WriteOutcome}
    (hup : ∀ a ∈ script, a.staysUp = true) {d : Drained Transmission}
    (hd : s.drain? script = some d) : Wrote False script d.unused d.outbound := by
  obtain ⟨d', hd', htrace, hended, hmet⟩ := drain?_trace hs script
  obtain rfl : d = d' := Option.some.inj (hd.symm.trans hd')
  rcases hmet with hscript | ⟨hunused, -⟩
  · cases hended with
    | empty before => exact .all ⟨_, hscript.symm⟩ rfl
    | blocked calls last before effect =>
      rw [List.map_append, List.append_assoc] at hscript
      exact .blocked (calls.map (·.answer)) last.answer hscript (WriteOutcome.blocks_of_effect effect)
    | @failed head rest sent calls last unused e before effect =>
      -- a stream that stays up fails no call
      have hfatal := (WriteOutcome.effect_failed e).mp effect
      rw [WriteOutcome.staysUp_fatal (hup _ (by simp [hscript]))] at hfatal
      exact absurd hfatal (by simp)
  · exact .exhausted hunused

end Transmission

/-- **How far writing goes.** A request for a frame may rest if others wait. -/
theorem Request.serve?_wrote {s : Transmission} (hs : s.Sound) (request : Request)
    {script : List WriteOutcome} (hup : ∀ a ∈ script, a.staysUp = true) {d : Drained Transmission}
    (hd : request.serve? s script = some d) :
    Wrote (s.queue ≠ [] ∧ request.frames ≠ []) script d.unused d.outbound := by
  cases request with
  | drain => exact (Transmission.drain?_wrote hs hup hd).mono False.elim
  | enqueue f =>
    rw [Request.serve?, Transmission.enqueue?] at hd
    dsimp only at hd
    split at hd
    next hbusy =>
      obtain rfl := Option.some.inj hd
      rw [List.length_append, List.length_singleton] at hbusy
      exact .rested ⟨List.ne_nil_of_length_pos (by omega), List.cons_ne_nil f []⟩ rfl
    next => exact (Transmission.drain?_wrote (hs.push f) hup hd).mono False.elim

/-- **What goes out and what waits.** -/
theorem Request.serve?_steady {s : Transmission} (hs : s.Sound) (request : Request)
    {script : List WriteOutcome} (hup : ∀ a ∈ script, a.staysUp = true) :
    ∃ d, request.serve? s script = some d ∧ d.result = .ok d.outbound.queue.isEmpty ∧
      d.written ++ d.outbound.unsent = s.unsent ++ request.frames.flatMap Frame.encode ∧
      ∀ a ∈ d.unused, a.staysUp = true := by
  cases request with
  | drain =>
    rw [Request.frames, List.flatMap_nil, List.append_nil]
    exact Transmission.drain?_steady hs hup
  | enqueue f =>
    -- the frame waits first, whether writing starts at once or not
    rw [Request.frames, List.flatMap_singleton, ← hs.unsent_push f]
    show ∃ d, s.enqueue? f script = some d ∧ _
    unfold Transmission.enqueue?
    dsimp only
    split
    next =>
      refine ⟨_, rfl, ?_, rfl, hup⟩
      show Except.ok false = Except.ok (s.queue ++ [f]).isEmpty
      simp
    next => exact Transmission.drain?_steady (hs.push f) hup

end EchoLoad.Framing
