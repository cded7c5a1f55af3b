import EchoLoad.Clock
import EchoLoad.Log
import EchoLoad.Message.Header
import EchoLoad.Stats.Ring

/-!
# Statistics of a client port

A port counts the requests it issued and the responses it got, in all and by server, and keeps a ring
of recent samples. A response that names a server the port does not have counts in all, but for no
server.
-/

namespace EchoLoad

/-- The sum of some counts. -/
def total (counts : List Nat) : Nat := counts.foldr (· + ·) 0

/-- The counters of one client port. -/
structure ClientStats where
  requests : Nat
  responses : Nat
  responseBytes : Nat
  totalRtt : Nat
  /-- ticks by which requests were issued late -/
  lag : UInt64
  /-- requests issued to each server -/
  issuedTo : Array Nat
  /-- responses that named each server -/
  answeredBy : Array Nat
  ring : SampleRing

namespace ClientStats

/-- The counters of a port with so many servers, all at zero. -/
def new (servers ringCapacity : Nat) : ClientStats :=
  { requests := 0
    responses := 0
    responseBytes := 0
    totalRtt := 0
    lag := 0
    issuedTo := Array.replicate servers 0
    answeredBy := Array.replicate servers 0
    ring := .new ringCapacity }

/-- Count a request to a server; there is no such count for a server that the port does not have. -/
def recordIssue? (s : ClientStats) (server : Nat) : Option ClientStats :=
  if h : server < s.issuedTo.size then
    some
      { s with
        issuedTo := s.issuedTo.set server (s.issuedTo[server] + 1)
        requests := s.requests + 1 }
  else none

theorem recordIssue?_eq_some {s t : ClientStats} {server : Nat} (h : s.recordIssue? server = some t) :
    ∃ hs : server < s.issuedTo.size,
      t = { s with
        issuedTo := s.issuedTo.set server (s.issuedTo[server] + 1)
        requests := s.requests + 1 } := by
  unfold recordIssue? at h
  split at h
  next hs => exact ⟨hs, (Option.some.inj h).symm⟩
  next => cases h

theorem recordIssue?_ne_none {s : ClientStats} {server : Nat} (h : server < s.issuedTo.size) :
    s.recordIssue? server ≠ none := by
  unfold recordIssue?
  rw [dif_pos h]
  simp

/-- Count a response for the server that it names, if the port has that server. -/
def countAnswer (counters : Array Nat) (serverId : Int32) : Array Nat :=
  if serverId < 0 then counters
  else
    let server := serverId.toInt.toNat
    if h : server < counters.size then counters.set server (counters[server] + 1) else counters

theorem size_countAnswer (counters : Array Nat) (serverId : Int32) :
    (countAnswer counters serverId).size = counters.size := by
  unfold countAnswer
  split
  next => rfl
  next =>
    dsimp only
    split
    next => exact Array.size_set _
    next => rfl

theorem getElem?_countAnswer (counters : Array Nat) (serverId : Int32) (server : Nat) :
    (countAnswer counters serverId)[server]? =
      counters[server]?.map (· + if serverId.toInt = server then 1 else 0) := by
  have hzero : (0 : Int32).toInt = 0 := rfl
  have hsign := Int32.lt_iff_toInt_lt (x := serverId) (y := 0)
  have hsame : counters[server]? = counters[server]?.map (· + 0) := by
    cases counters[server]? <;> rfl
  unfold countAnswer
  split
  next hnegative =>
    have := hsign.mp hnegative
    rw [if_neg (by omega)]
    exact hsame
  next hnonnegative =>
    have hid : 0 ≤ serverId.toInt := by
      have := mt hsign.mpr hnonnegative
      omega
    dsimp only
    split
    next hknown =>
      by_cases hserver : serverId.toInt = server
      · have hindex : serverId.toInt.toNat = server := by omega
        subst hindex
        rw [if_pos hserver, Array.getElem?_set_self, Array.getElem?_eq_getElem hknown]
        rfl
      · rw [if_neg hserver, Array.getElem?_set_ne _ (by omega)]
        exact hsame
    next hunknown =>
      by_cases hserver : serverId.toInt = server
      · rw [Array.getElem?_eq_none (by omega)]
        rfl
      · rw [if_neg hserver]
        exact hsame

/-- Whether a response names a server of the port. -/
def knows (s : ClientStats) (serverId : Int32) : Bool :=
  0 ≤ serverId && serverId.toInt.toNat < s.answeredBy.size

/-- Count a response and keep its sample. -/
def record (s : ClientStats) (length rtt : UInt32) (serverId : Int32) : ClientStats :=
  { s with
    responses := s.responses + 1
    responseBytes := s.responseBytes + length.toNat
    totalRtt := s.totalRtt + rtt.toNat
    answeredBy := countAnswer s.answeredBy serverId
    ring := s.ring.store s.responses ⟨length, rtt⟩ }

/-- The warning that recording a response may leave in the log. -/
def recordWarning (s : ClientStats) (serverId : Int32) : List LogLine :=
  if s.knows serverId then []
  else
    [{ level := .warn
       message := "Response names an unknown server"
       fields := [("server_id", toString serverId.toInt)] }]

/-- The length that a response counts with: that of its header, at least one byte. -/
def countedLength (h : Header) : UInt32 := if h.length < 1 then 1 else h.length.toUInt32

/-- Count a response that arrived at a tick with the given low bits. -/
def recordResponse (s : ClientStats) (h : Header) (finish : UInt32) : ClientStats :=
  s.record (countedLength h) (elapsedTicks h.issueTime finish) h.serverId

/-- Count ticks of lag. -/
def addLag (s : ClientStats) (ticks : Nat) : ClientStats :=
  { s with lag := s.lag + UInt64.ofNat ticks }

/-- Requests not answered yet. -/
def outstanding (s : ClientStats) : Nat := s.requests - s.responses

/-- The round-trip times of at most `most` recent samples, oldest first. -/
def recentRtts (s : ClientStats) (most : Nat) : List Nat :=
  let count := min (min most s.responses) s.ring.capacity
  (List.range' (s.responses - count) count).filterMap fun seq =>
    (s.ring.get? seq).map fun x => x.rtt.toNat

/-- Take all samples that are kept, oldest first. -/
def drainSamples (s : ClientStats) : List Sample × ClientStats :=
  let count := min s.responses s.ring.capacity
  let (samples, ring) := s.ring.takeFrom (s.responses - count) count
  (samples, { s with ring := ring })

theorem addLag_zero (s : ClientStats) : s.addLag 0 = s := by
  have hlag : s.lag + UInt64.ofNat 0 = s.lag := UInt64.add_zero _
  rw [addLag, hlag]

/-- The servers with unanswered requests, each with their number. -/
def incomplete (s : ClientStats) : List (Nat × Nat) :=
  let missing := (s.issuedTo.toList.zip s.answeredBy.toList).map fun (issued, answered) =>
    issued - answered
  (missing.zipIdx.filter fun (n, _) => 0 < n).map fun (n, server) => (server, n)

end ClientStats

end EchoLoad
