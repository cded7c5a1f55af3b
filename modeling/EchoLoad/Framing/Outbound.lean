import EchoLoad.Framing.Transmission

/-!
# Writing frames to a byte stream

The outbound half of a connection is a queue of frames on their way out, which always hangs together,
so that draining it and adding to it never miss a slice (`drain?_eq`, `enqueue?_eq`).
-/

namespace EchoLoad.Framing

/-- The outbound half of a connection. -/
structure Outbound extends Transmission where
  sound : toTransmission.Sound
deriving DecidableEq, Repr

/-- What a call on a connection led to. -/
abbrev DrainRun := Drained Outbound

namespace Transmission

/-- A queue is made longer at its end. -/
theorem Sound.push {s : Transmission} (hs : s.Sound) (f : Frame) :
    Sound { s with queue := s.queue ++ [f] } := by
  cases hs with
  | idle => exact sound_zero [f]
  | busy short => exact .busy short

theorem drain?_sound {s : Transmission} (hs : s.Sound) (script : List WriteOutcome) :
    ∃ d, s.drain? script = some d ∧ d.outbound.Sound := by
  obtain ⟨d, hd, htrace, -⟩ := drain?_trace hs script
  exact ⟨d, hd, htrace.sound hs⟩

theorem enqueue?_sound {s : Transmission} (hs : s.Sound) (f : Frame) (script : List WriteOutcome) :
    ∃ d, s.enqueue? f script = some d ∧ d.outbound.Sound := by
  unfold enqueue?
  dsimp only
  split
  next => exact ⟨_, rfl, hs.push f⟩
  next => exact drain?_sound (hs.push f) script

end Transmission

namespace Outbound

/-- Nothing to write. -/
def new : Outbound := ⟨.new, .idle⟩

/-- Frames waiting to be written. -/
def pending (s : Outbound) : Nat := s.queue.length

/-- A run that there is, on what hangs together. -/
def attach (run : Option (Drained Transmission)) (h : ∃ d, run = some d ∧ d.outbound.Sound) :
    DrainRun :=
  match run, h with
  | some d, h =>
    ⟨⟨d.outbound, by
      obtain ⟨_, he, hd⟩ := h
      rw [Option.some.inj he]
      exact hd⟩, d.result, d.calls, d.unused⟩
  | none, h => absurd h (by simp)

/-- Write as much as the stream takes, given the outcomes that the writes will have; past the last of
them the stream takes nothing more. -/
def drain (s : Outbound) (script : List WriteOutcome) : DrainRun :=
  attach (s.drain? script) (Transmission.drain?_sound s.sound script)

/-- Queue a frame. If nothing was waiting, writing starts at once. -/
def enqueue (s : Outbound) (f : Frame) (script : List WriteOutcome) : DrainRun :=
  attach (s.enqueue? f script) (Transmission.enqueue?_sound s.sound f script)

/-- A run, without the proof that what it leaves hangs together. -/
def bare (d : DrainRun) : Drained Transmission :=
  ⟨d.outbound.toTransmission, d.result, d.calls, d.unused⟩

theorem bare_attach {run : Option (Drained Transmission)}
    (h : ∃ d, run = some d ∧ d.outbound.Sound) : run = some (bare (attach run h)) := by
  obtain ⟨d, rfl, hd⟩ := h
  rfl

theorem drain?_eq (s : Outbound) (script : List WriteOutcome) :
    s.drain? script = some (bare (s.drain script)) := bare_attach _

theorem enqueue?_eq (s : Outbound) (f : Frame) (script : List WriteOutcome) :
    s.enqueue? f script = some (bare (s.enqueue f script)) := bare_attach _

end Outbound

end EchoLoad.Framing
