import EchoLoad.Framing.Assembly

/-!
# Reassembling frames from a byte stream

The inbound half of a connection is the message in progress and the longest message that it takes.
`feed` takes a chunk, `read` the outcomes of successive reads. What is in progress always hangs
together, so that there is always something that comes of a chunk (`gather?_eq`), and it is known what
(`gathered_follows`).

A header that announces an impossible length ends the stream for good: the message in progress stays
at the end of that header.
-/

namespace EchoLoad.Framing

/-- The inbound half of a connection, which takes frames of at most `limit` bytes. -/
structure Inbound where
  limit : Nat
  assembly : Assembly
  sound : assembly.Sound limit
deriving DecidableEq, Repr

/-- What feeding a chunk led to. -/
structure Fed where
  inbound : Inbound
  frames : List Frame
  result : Except FrameError Nat

namespace Inbound

/-- A connection on which nothing has arrived. -/
def new (limit : Nat) : Inbound := ⟨limit, .new, Assembly.sound_new limit⟩

/-- Bytes of the current message that have arrived, its header included. -/
def received (s : Inbound) : Nat := s.assembly.received

/-- The bytes of the current message that have arrived. -/
def held (s : Inbound) : Bytes := s.assembly.held

theorem gather?_isSome (s : Inbound) (chunk : Bytes) :
    (s.assembly.gather? s.limit chunk).isSome = true := by
  obtain ⟨g, hg, -⟩ := Assembly.gather?_follows s.sound chunk
  rw [hg]
  rfl

/-- What comes of a chunk. -/
def gathered (s : Inbound) (chunk : Bytes) : Gathered :=
  (s.assembly.gather? s.limit chunk).get (s.gather?_isSome chunk)

theorem gather?_eq (s : Inbound) (chunk : Bytes) :
    s.assembly.gather? s.limit chunk = some (s.gathered chunk) := (Option.some_get _).symm

theorem gathered_follows (s : Inbound) (chunk : Bytes) :
    (s.gathered chunk).Follows s.limit s.held chunk := by
  obtain ⟨g, hg, hfollows⟩ := Assembly.gather?_follows s.sound chunk
  rw [gather?_eq, Option.some.injEq] at hg
  rw [hg]
  exact hfollows

/-- Take a chunk. On success all of it was consumed and the result is its length; a chunk with bytes
fails if it runs into a refused header, or follows one. -/
def feed (s : Inbound) (chunk : Bytes) : Fed :=
  let g := s.gathered chunk
  { inbound := ⟨s.limit, g.assembly, (s.gathered_follows chunk).sound⟩
    frames := g.frames
    result := g.result chunk }

end Inbound

/-- What one read from a socket gave: some bytes, none at the end of the stream, or an error. -/
inductive ReadOutcome
  | data (chunk : Bytes)
  | fault (error : SystemError)
deriving DecidableEq, Repr

/-- Most bytes that one read gives. -/
def readChunk : Nat := 64 * 1024

/-- Bytes waiting in a socket, as the successive reads that take them give them. No byte at all is
one read, which finds the end of the stream. -/
def ReadOutcome.ofWaiting (waiting : Bytes) : List ReadOutcome :=
  match _h : waiting.drop readChunk with
  | [] => [.data waiting]
  | b :: rest => .data (waiting.take readChunk) :: ofWaiting (b :: rest)
termination_by waiting.length
decreasing_by
  have := congrArg List.length _h
  simp only [List.length_drop, List.length_cons, readChunk] at this ⊢
  omega

/-- How many reads one call makes. -/
inductive ReadMode
  /-- read until nothing is left, as one notice of new data asks for -/
  | untilWouldBlock
  /-- read once, as a notice that repeats allows -/
  | once
deriving DecidableEq, Repr

/-- How a call that met no error ended. -/
inductive ReadStatus
  /-- nothing is left to read for now -/
  | wouldBlock
  /-- one read was made, and more data may be left -/
  | unfinished
deriving DecidableEq, Repr

/-- What a call led to. -/
structure ReadRun where
  inbound : Inbound
  frames : List Frame
  result : Except FrameError ReadStatus
  /-- the outcomes that the call did not get to -/
  unread : List ReadOutcome

namespace Inbound

/-- Read and reassemble, given the outcomes that the reads will have; past the last of them there is
nothing to read. -/
def read (mode : ReadMode) : Inbound → List ReadOutcome → ReadRun
  | s, [] => ⟨s, [], .ok .wouldBlock, []⟩
  | s, .data [] :: rest => ⟨s, [], .error .peerClosed, rest⟩
  | s, .data (b :: chunk) :: rest =>
    let fed := s.feed (b :: chunk)
    match fed.result, mode with
    | .error e, _ => ⟨fed.inbound, fed.frames, .error e, rest⟩
    | .ok _, .once => ⟨fed.inbound, fed.frames, .ok .unfinished, rest⟩
    | .ok _, .untilWouldBlock =>
      let later := read mode fed.inbound rest
      { later with frames := fed.frames ++ later.frames }
  | s, .fault e :: rest =>
    match ReadFault.ofError e with
    | .transientRetry => ⟨s, [], .ok .wouldBlock, rest⟩
    | .interrupted => read mode s rest
    | .retryableFault => read mode s rest
    | .peerClosed => ⟨s, [], .error .peerClosed, rest⟩
    | .other => ⟨s, [], .error (.readFailed e), rest⟩

end Inbound

end EchoLoad.Framing
