import EchoLoad.Checked
import EchoLoad.Fault
import EchoLoad.Message.Frame

/-!
# Frames on their way out

Frames wait in a queue, first in, first out. Only the frame at the head may be partly written, and
`drain?` goes on wherever the last write stopped. A write that covers header bytes offers the rest of
the header and the whole body in one gathered call; once the header is out, the rest of the body is
offered alone.

A peer that has gone away does not fail the call: the head counts as sent, so that the queue keeps
moving, and the read side reports the end of the connection.

The count of written bytes says where the slices that a write offers begin, and a slice of a place that
does not exist would end the program. `drain?_trace` says that on a queue that hangs together (`Sound`)
this never happens, and that draining is nothing but write calls, each of which does what `Step` says.
-/

namespace EchoLoad.Framing

open Checked

/-- What one write on a socket does: accept up to so many bytes, or fail. -/
inductive WriteOutcome
  | accept (most : Nat)
  | fault (error : SystemError)
deriving DecidableEq, Repr

/-- How many bytes a write call offers. -/
inductive Offer
  /-- so many bytes of the header and so many of the body, in one call -/
  | gathered (header body : Nat)
  /-- so many bytes of the body -/
  | plain (body : Nat)
deriving DecidableEq, Repr

/-- The bytes that a write call offers. -/
inductive Slices
  /-- a rest of the header and the body, in one call -/
  | gathered (header body : Bytes)
  /-- a rest of the body -/
  | plain (body : Bytes)
deriving DecidableEq, Repr

namespace Slices

/-- The offered bytes in order. -/
def bytes : Slices → Bytes
  | gathered header body => header ++ body
  | plain body => body

/-- How many they are. -/
def sizes : Slices → Offer
  | gathered header body => .gathered header.length body.length
  | plain body => .plain body.length

end Slices

/-- What an answer means for the frame at the head. -/
inductive Effect
  /-- these bytes of it are out as well -/
  | moved (taken : Bytes)
  /-- the peer is gone: the frame counts as sent -/
  | dropped
  /-- write again at once -/
  | again
  /-- the stream takes nothing for now -/
  | blocked
  /-- the call ends with an error -/
  | failed (error : SystemError)
deriving DecidableEq, Repr

namespace WriteOutcome

/-- The stream takes nothing for now. -/
def block : WriteOutcome := .fault (.ofKind .wouldBlock)

/-- What an answer to an offer means. -/
def effect (offered : Bytes) : WriteOutcome → Effect
  | accept most =>
    match offered.take most with
    | [] => .dropped
    | b :: taken => .moved (b :: taken)
  | fault e =>
    match e.kind with
    | .wouldBlock => .blocked
    | .interrupted => .again
    | .brokenPipe => .dropped
    | .connectionReset => .dropped
    | _ => .failed e

end WriteOutcome

/-- A write call: the frame at the head, the bytes offered of it, and the answer. -/
structure WriteCall where
  frame : Frame
  slices : Slices
  answer : WriteOutcome
deriving DecidableEq, Repr

namespace WriteCall

/-- How many bytes were offered. -/
def offer (c : WriteCall) : Offer := c.slices.sizes

/-- What the answer means. -/
def effect (c : WriteCall) : Effect := c.answer.effect c.slices.bytes

/-- The bytes that the stream took. -/
def accepted (c : WriteCall) : Bytes :=
  match c.effect with
  | .moved taken => taken
  | _ => []

end WriteCall

/-- The frames on their way out. -/
structure Transmission where
  /-- frames not yet completely written, oldest first -/
  queue : List Frame
  /-- bytes of the head of the queue that are written -/
  sent : Nat
deriving DecidableEq, Repr

/-- What a call led to. -/
structure Drained (σ : Type) where
  outbound : σ
  /-- whether the queue is empty, or the error that ended the call -/
  result : Except SystemError Bool
  calls : List WriteCall
  /-- the outcomes that the call did not get to -/
  unused : List WriteOutcome

namespace Drained

variable {σ : Type}

/-- The same run after one more call at its front. -/
def after (call : WriteCall) (run : Drained σ) : Drained σ := { run with calls := call :: run.calls }

/-- The bytes that the stream took. -/
def written (run : Drained σ) : Bytes := run.calls.flatMap (·.accepted)

end Drained

namespace Transmission

/-- Nothing to write. -/
def new : Transmission := ⟨[], 0⟩

/-- What the next write offers of a frame of which `sent` bytes are out. -/
def slices? (f : Frame) (sent : Nat) : Option Slices :=
  if sent < Header.size then do
    let header ← suffix? f.header.encode sent
    some (.gathered header f.body)
  else do
    let start ← minus? sent Header.size
    let body ← suffix? f.body start
    some (.plain body)

/-- The next write call, given its answer. -/
def write? (head : Frame) (sent : Nat) (answer : WriteOutcome) : Option WriteCall := do
  let slices ← slices? head sent
  some ⟨head, slices, answer⟩

/-- So many bytes of the head are out. If that is all of it, it leaves the queue. -/
def advance (head : Frame) (rest : List Frame) (sent : Nat) : Transmission :=
  if sent < head.length then ⟨head :: rest, sent⟩ else ⟨rest, 0⟩

/-- Write as much as the stream takes, given the outcomes that the writes will have; past the last of
them the stream takes nothing more. -/
def drain? : Transmission → List WriteOutcome → Option (Drained Transmission)
  | ⟨[], sent⟩, script => some ⟨⟨[], sent⟩, .ok true, [], script⟩
  | ⟨head :: rest, sent⟩, [] => do
    let call ← write? head sent .block
    some ⟨⟨head :: rest, sent⟩, .ok false, [call], []⟩
  | ⟨head :: rest, sent⟩, answer :: script => do
    let call ← write? head sent answer
    match call.effect with
    | .moved taken =>
      (drain? (advance head rest (sent + taken.length)) script).map (·.after call)
    | .dropped => (drain? (advance head rest head.length) script).map (·.after call)
    | .again => (drain? ⟨head :: rest, sent⟩ script).map (·.after call)
    | .blocked => some ⟨⟨head :: rest, sent⟩, .ok false, [call], script⟩
    | .failed e => some ⟨⟨head :: rest, sent⟩, .error e, [call], script⟩
termination_by structural _ script => script

/-- Queue a frame. If nothing was waiting, writing starts at once. -/
def enqueue? (s : Transmission) (f : Frame) (script : List WriteOutcome) :
    Option (Drained Transmission) :=
  let s := { s with queue := s.queue ++ [f] }
  if s.queue.length > 1 then some ⟨s, .ok false, [], script⟩ else s.drain? script

/-- What is on its way hangs together: a part of the head is written, and not all of it. -/
inductive Sound : Transmission → Prop
  | idle : Sound ⟨[], 0⟩
  | busy {head : Frame} {rest : List Frame} {sent : Nat} (short : sent < head.length) :
      Sound ⟨head :: rest, sent⟩

/-- One write call on the frame at the head. It offers all bytes of it that are not written. -/
inductive Step : Transmission → WriteCall → Transmission → Prop
  /-- some bytes are taken, and some are left -/
  | moved {head : Frame} {rest : List Frame} {sent : Nat} {c : WriteCall} {taken left : Bytes}
      (frame : c.frame = head) (offered : c.slices.bytes = head.encode.drop sent)
      (effect : c.effect = .moved taken) (split : head.encode.drop sent = taken ++ left)
      (some_taken : taken ≠ []) (some_left : left ≠ []) :
      Step ⟨head :: rest, sent⟩ c ⟨head :: rest, sent + taken.length⟩
  /-- all bytes that were left are taken -/
  | finished {head : Frame} {rest : List Frame} {sent : Nat} {c : WriteCall}
      (frame : c.frame = head) (offered : c.slices.bytes = head.encode.drop sent)
      (effect : c.effect = .moved (head.encode.drop sent)) (short : sent < head.length) :
      Step ⟨head :: rest, sent⟩ c ⟨rest, 0⟩
  /-- the peer is gone -/
  | dropped {head : Frame} {rest : List Frame} {sent : Nat} {c : WriteCall}
      (frame : c.frame = head) (offered : c.slices.bytes = head.encode.drop sent)
      (effect : c.effect = .dropped) (short : sent < head.length) :
      Step ⟨head :: rest, sent⟩ c ⟨rest, 0⟩
  /-- nothing is taken for now -/
  | stayed {head : Frame} {rest : List Frame} {sent : Nat} {c : WriteCall}
      (frame : c.frame = head) (offered : c.slices.bytes = head.encode.drop sent)
      (effect : c.effect = .again ∨ c.effect = .blocked ∨ ∃ e, c.effect = .failed e)
      (short : sent < head.length) :
      Step ⟨head :: rest, sent⟩ c ⟨head :: rest, sent⟩

/-- Write calls one after the other. -/
inductive Trace : Transmission → List WriteCall → Transmission → Prop
  | nil {s : Transmission} : Trace s [] s
  | cons {s t u : Transmission} {c : WriteCall} {calls : List WriteCall} (first : Step s c t)
      (later : Trace t calls u) : Trace s (c :: calls) u

end Transmission

/-- The answer to the call lets draining go on. -/
def WriteCall.GoesOn (c : WriteCall) : Prop := c.effect ≠ .blocked ∧ ∀ e, c.effect ≠ .failed e

/-- How draining ended: nothing is left, or a call, the last one, was blocked or failed. -/
inductive Drained.Ended : Drained Transmission → Prop
  | empty {sent : Nat} {calls : List WriteCall} {unused : List WriteOutcome}
      (before : ∀ c ∈ calls, c.GoesOn) : Ended ⟨⟨[], sent⟩, .ok true, calls, unused⟩
  | blocked {head : Frame} {rest : List Frame} {sent : Nat} (calls : List WriteCall) (c : WriteCall)
      {unused : List WriteOutcome} (before : ∀ c ∈ calls, c.GoesOn) (effect : c.effect = .blocked) :
      Ended ⟨⟨head :: rest, sent⟩, .ok false, calls ++ [c], unused⟩
  | failed {head : Frame} {rest : List Frame} {sent : Nat} (calls : List WriteCall) (c : WriteCall)
      {unused : List WriteOutcome} {e : SystemError} (before : ∀ c ∈ calls, c.GoesOn)
      (effect : c.effect = .failed e) :
      Ended ⟨⟨head :: rest, sent⟩, .error e, calls ++ [c], unused⟩

theorem Drained.Ended.after {d : Drained Transmission} (h : d.Ended) {c : WriteCall}
    (hc : c.GoesOn) : (d.after c).Ended := by
  cases h with
  | empty before => exact .empty (List.forall_mem_cons.mpr ⟨hc, before⟩)
  | blocked calls last before effect =>
    exact .blocked (c :: calls) last (List.forall_mem_cons.mpr ⟨hc, before⟩) effect
  | failed calls last before effect =>
    exact .failed (c :: calls) last (List.forall_mem_cons.mpr ⟨hc, before⟩) effect

theorem WriteOutcome.effect_moved {offered taken : Bytes} {answer : WriteOutcome}
    (h : answer.effect offered = .moved taken) : taken ≠ [] ∧ taken <+: offered := by
  cases answer with
  | accept most =>
    have hprefix := List.take_prefix most offered
    cases htake : offered.take most with
    | nil => simp only [effect, htake, reduceCtorEq] at h
    | cons b rest =>
      simp only [effect, htake, Effect.moved.injEq] at h
      rw [htake] at hprefix
      rw [← h]
      exact ⟨List.cons_ne_nil b rest, hprefix⟩
  | fault e =>
    simp only [effect] at h
    split at h <;> exact absurd h (by simp)

namespace Transmission

/-- A frame that is not all written has slices to offer: all its bytes from there on. -/
theorem write?_eq {head : Frame} {sent : Nat} (short : sent < head.length) (answer : WriteOutcome) :
    ∃ c, write? head sent answer = some c ∧ c.frame = head ∧ c.answer = answer ∧
      c.slices.bytes = head.encode.drop sent := by
  have hheader : head.header.encode.length = Header.size := head.header.length_encode
  have hlength : head.length = Header.size + head.body.length := rfl
  unfold write? slices?
  by_cases hs : sent < Header.size
  · rw [if_pos hs, suffix?_of_le (by omega)]
    refine ⟨_, rfl, rfl, rfl, ?_⟩
    rw [Slices.bytes, Frame.encode, List.drop_append_of_le_length (by omega)]
  · rw [if_neg hs, minus?_of_le (by omega)]
    simp only [Option.bind_eq_bind, Option.bind_some]
    rw [suffix?_of_le (by omega)]
    refine ⟨_, rfl, rfl, rfl, ?_⟩
    have hdrop : head.header.encode.drop sent = [] := List.drop_of_length_le (by omega)
    rw [Slices.bytes, Frame.encode, List.drop_append, hdrop, hheader, List.nil_append]

/-- A frame of which all is written leaves the queue. -/
theorem advance_length (head : Frame) (rest : List Frame) :
    advance head rest head.length = ⟨rest, 0⟩ := if_neg (Nat.lt_irrefl _)

/-- What is left of a frame after some of it was taken. -/
theorem advance_step {head : Frame} {rest : List Frame} {sent : Nat} {c : WriteCall} {taken : Bytes}
    (short : sent < head.length) (frame : c.frame = head)
    (offered : c.slices.bytes = head.encode.drop sent) (effect : c.effect = .moved taken) :
    Step ⟨head :: rest, sent⟩ c (advance head rest (sent + taken.length)) := by
  obtain ⟨htaken, left, hsplit⟩ := WriteOutcome.effect_moved effect
  rw [offered] at hsplit
  have hlen : taken.length + left.length = head.length - sent := by
    rw [← List.length_append, hsplit, List.length_drop, Frame.length_encode]
  unfold advance
  by_cases hleft : left = []
  · rw [hleft, List.append_nil] at hsplit
    rw [hleft, List.length_nil] at hlen
    rw [if_neg (by omega)]
    exact .finished frame offered (hsplit ▸ effect) short
  · have := List.length_pos_iff.mpr hleft
    rw [if_pos (by omega)]
    exact .moved frame offered effect hsplit.symm htaken hleft

theorem sound_zero (rest : List Frame) : Sound ⟨rest, 0⟩ := by
  cases rest with
  | nil => exact .idle
  | cons head rest => exact .busy (Nat.lt_of_lt_of_le (by decide) head.size_le_length)

theorem Step.sound {s t : Transmission} {c : WriteCall} (h : Step s c t) : t.Sound := by
  cases h with
  | @moved head rest sent c taken left frame offered effect split some_taken some_left =>
    have hlen := congrArg List.length split
    have := List.length_pos_iff.mpr some_left
    rw [List.length_drop, Frame.length_encode, List.length_append] at hlen
    exact .busy (by omega)
  | finished => exact sound_zero _
  | dropped => exact sound_zero _
  | stayed frame offered effect short => exact .busy short

theorem Trace.sound {s t : Transmission} {calls : List WriteCall} (h : Trace s calls t)
    (hs : s.Sound) : t.Sound := by
  induction h with
  | nil => exact hs
  | cons first later ih => exact ih first.sound

/-- The outcomes that the calls of a run met are those of the script, up to one that was not there. -/
def Met (script : List WriteOutcome) (d : Drained Transmission) : Prop :=
  script = d.calls.map (·.answer) ++ d.unused ∨
    d.unused = [] ∧ script ++ [.block] = d.calls.map (·.answer)

theorem Met.after {script : List WriteOutcome} {d : Drained Transmission} (h : Met script d)
    (c : WriteCall) : Met (c.answer :: script) (d.after c) := by
  rcases h with hscript | ⟨hunused, hscript⟩
  · exact .inl (congrArg (List.cons c.answer) hscript)
  · exact .inr ⟨hunused, congrArg (List.cons c.answer) hscript⟩

/-- **What draining does.** On a queue that hangs together no slice is missing; draining is a trace of
write calls, which meet the outcomes of the script in order, and it goes on until nothing is left or a
call is blocked or fails. -/
theorem drain?_trace {s : Transmission} (hs : s.Sound) (script : List WriteOutcome) :
    ∃ d, s.drain? script = some d ∧ Trace s d.calls d.outbound ∧ d.Ended ∧ Met script d := by
  induction script generalizing s with
  | nil =>
    cases hs with
    | idle => exact ⟨_, rfl, .nil, .empty (by simp), .inl rfl⟩
    | @busy head rest sent short =>
      obtain ⟨c, hc, hframe, hanswer, hoffered⟩ := write?_eq short .block
      have heffect : c.effect = .blocked := by rw [WriteCall.effect, hanswer]; rfl
      refine ⟨_, by rw [drain?, hc]; rfl, ?_, ?_, ?_⟩
      · exact .cons (.stayed hframe hoffered (.inr (.inl heffect)) short) .nil
      · exact .blocked [] c (by simp) heffect
      · exact .inr ⟨rfl, by simp [hanswer]⟩
  | cons answer script ih =>
    cases hs with
    | idle => exact ⟨_, rfl, .nil, .empty (by simp), .inl rfl⟩
    | @busy head rest sent short =>
      obtain ⟨c, hc, hframe, hanswer, hoffered⟩ := write?_eq short answer
      -- a call that lets draining go on, and what the rest of the script comes to after it
      have hgoes : ∀ t : Transmission, Step ⟨head :: rest, sent⟩ c t → c.GoesOn →
          ∃ d, (t.drain? script).map (·.after c) = some d ∧
            Trace ⟨head :: rest, sent⟩ d.calls d.outbound ∧ d.Ended ∧ Met (answer :: script) d := by
        intro t hstep hon
        obtain ⟨d, hd, htrace, hended, hmet⟩ := ih hstep.sound
        refine ⟨d.after c, by rw [hd]; rfl, .cons hstep htrace, hended.after hon, ?_⟩
        rw [← hanswer]
        exact hmet.after c
      rw [drain?, hc]
      simp only [Option.bind_eq_bind, Option.bind_some]
      cases heffect : c.effect with
      | moved taken =>
        exact hgoes _ (advance_step short hframe hoffered heffect) (by simp [WriteCall.GoesOn, heffect])
      | dropped =>
        rw [advance_length]
        exact hgoes _ (.dropped hframe hoffered heffect short) (by simp [WriteCall.GoesOn, heffect])
      | again =>
        exact hgoes _ (.stayed hframe hoffered (.inl heffect) short)
          (by simp [WriteCall.GoesOn, heffect])
      | blocked =>
        refine ⟨_, rfl, .cons (.stayed hframe hoffered (.inr (.inl heffect)) short) .nil, ?_, ?_⟩
        · exact .blocked [] c (by simp) heffect
        · exact .inl (by simp [hanswer])
      | failed e =>
        refine ⟨_, rfl, .cons (.stayed hframe hoffered (.inr (.inr ⟨e, heffect⟩)) short) .nil, ?_, ?_⟩
        · exact .failed [] c (by simp) heffect
        · exact .inl (by simp [hanswer])

end Transmission

end EchoLoad.Framing
