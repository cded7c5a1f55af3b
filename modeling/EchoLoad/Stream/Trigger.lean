import EchoLoad.Fault
import EchoLoad.Framing.Inbound

/-!
# How readiness is told

An event loop tells its threads which connections are ready. Several threads are told of a change
once, so whoever is told reads until nothing is left; a single thread is told again and again while
something is left, and reads once each time.
-/

namespace EchoLoad.Stream

inductive Trigger
  /-- told once for each change -/
  | edge
  /-- told again while there is something left -/
  | level
deriving DecidableEq, Repr

namespace Trigger

/-- The way for a loop shared by so many threads. -/
def ofThreads (threads : Nat) : Trigger := if 1 < threads then edge else level

/-- How much is read on one notice. -/
def readMode : Trigger → Framing.ReadMode
  | edge => .untilWouldBlock
  | level => .once

end Trigger

/-- The most notices that the system hands out at a time. -/
def noticeLimit : Nat := (Nat.pow 2 31 - 1) / 12

/-- The error of waiting for at most so many notices at a time, if there is one. -/
def waitError (batch : Nat) : Option SystemError :=
  if 0 < batch ∧ batch ≤ noticeLimit then none else some (.ofCode 22)

/-- What a notice says about a connection. -/
structure Notice where
  readable : Bool
  /-- the peer sends nothing more -/
  readClosed : Bool
  writable : Bool
deriving DecidableEq, Repr

/-- Whether a notice asks for a read. -/
def Notice.asksToRead (n : Notice) : Bool := n.readable || n.readClosed

end EchoLoad.Stream
