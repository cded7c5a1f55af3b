import EchoLoad.Proofs.Framing.Segmentation

/-!
# Reading goes by the cut

A call that reads from a socket takes some of the outcomes that its reads may have, and what comes of
it is known from the bytes in them alone:

> `Inbound.read_follows`: the frames are those of the bytes held before and of the bytes read, and the
> call fails exactly if its last read ended the stream, or if the rest of the bytes begins with a header
> of a length out of bounds.

Whether the call reads once or until nothing is left makes no difference to this, and interruptions
have no bytes in them.
-/

namespace EchoLoad.Framing

namespace ReadOutcome

/-- The bytes that a read gave. -/
def bytes : ReadOutcome → Bytes
  | data chunk => chunk
  | fault _ => []

/-- After this the stream gives no more: it is at its end, or it failed. -/
def endsStream : ReadOutcome → Bool
  | data chunk => chunk.isEmpty
  | fault e =>
    match ReadFault.ofError e with
    | .peerClosed => true
    | .other => true
    | _ => false

end ReadOutcome

/-- The bytes that some reads gave. -/
def bytesRead (reads : List ReadOutcome) : Bytes := reads.flatMap ReadOutcome.bytes

/-- What comes of a call that could read these outcomes, if these bytes were held before. -/
inductive ReadRun.Follows (limit : Nat) (held : Bytes) (reads : List ReadOutcome) : ReadRun → Prop
  /-- all that was read was in order -/
  | going {t : Inbound} {frames : List Frame} {status : ReadStatus} {unread : List ReadOutcome}
      (taken : List ReadOutcome) (split : reads = taken ++ unread)
      (alive : ∀ r ∈ taken, r.endsStream = false) (same : t.limit = limit)
      (opened : ¬ Blocked limit held → ¬ Blocked limit t.held)
      (cut : Segmented limit (held ++ bytesRead taken) frames t.held) :
      Follows limit held reads ⟨t, frames, .ok status, unread⟩
  /-- the last read ended the stream -/
  | ended {t : Inbound} {frames : List Frame} {e : FrameError} {unread : List ReadOutcome}
      (taken : List ReadOutcome) (last : ReadOutcome) (split : reads = taken ++ last :: unread)
      (alive : ∀ r ∈ taken, r.endsStream = false) (ends : last.endsStream = true)
      (same : t.limit = limit) (opened : ¬ Blocked limit held → ¬ Blocked limit t.held)
      (cut : Segmented limit (held ++ bytesRead taken) frames t.held) :
      Follows limit held reads ⟨t, frames, .error e, unread⟩
  /-- the bytes came to a header of a length out of bounds -/
  | refused {t : Inbound} {frames : List Frame} {h : Header} {unread : List ReadOutcome}
      (taken : List ReadOutcome) (lost : Bytes) (split : reads = taken ++ unread)
      (alive : ∀ r ∈ taken, r.endsStream = false) (same : t.limit = limit)
      (decoded : Header.decode? t.held = some h) (refused : h.isAdmitted limit = false)
      (cut : Segmented limit (held ++ bytesRead taken) frames (t.held ++ lost)) :
      Follows limit held reads ⟨t, frames, .error (.invalidLength h.length limit), unread⟩

/-- A read that did not end the stream, in front of a call. -/
theorem ReadRun.Follows.cons {limit : Nat} {held held' : Bytes} {first : ReadOutcome}
    {reads : List ReadOutcome} {frames : List Frame} {later : ReadRun}
    (hfirst : first.endsStream = false) (hopened : ¬ Blocked limit held → ¬ Blocked limit held')
    (hcut : Segmented limit (held ++ first.bytes) frames held')
    (hlater : later.Follows limit held' reads) :
    ReadRun.Follows limit held (first :: reads) { later with frames := frames ++ later.frames } := by
  have hbytes : ∀ taken, held ++ bytesRead (first :: taken) =
      held ++ first.bytes ++ bytesRead taken := by
    intro taken
    rw [bytesRead, List.flatMap_cons, ← List.append_assoc]
    rfl
  have halive : ∀ {taken : List ReadOutcome}, (∀ r ∈ taken, r.endsStream = false) →
      ∀ r ∈ first :: taken, r.endsStream = false :=
    fun h => List.forall_mem_cons.mpr ⟨hfirst, h⟩
  cases hlater with
  | going taken split alive same opened cut =>
    refine .going (first :: taken) (congrArg _ split) (halive alive) same
      (fun h => opened (hopened h)) ?_
    rw [hbytes]
    exact hcut.append cut
  | ended taken last split alive ends same opened cut =>
    refine .ended (first :: taken) last (congrArg _ split) (halive alive) ends same
      (fun h => opened (hopened h)) ?_
    rw [hbytes]
    exact hcut.append cut
  | refused taken lost split alive same decoded refused cut =>
    refine .refused (first :: taken) lost (congrArg _ split) (halive alive) same decoded refused ?_
    rw [hbytes]
    exact hcut.append cut

namespace Inbound

/-- What is held is a cut of its own, of no frame. -/
theorem segmented_held (s : Inbound) : Segmented s.limit (s.held ++ bytesRead []) [] s.held :=
  ⟨List.append_nil _, by simp, noFrame_held s.sound⟩

theorem feed_result (s : Inbound) (chunk : Bytes) :
    (s.feed chunk).result = (s.gathered chunk).result chunk := rfl

/-- **Reading goes by the cut.** -/
theorem read_follows (mode : ReadMode) (s : Inbound) (reads : List ReadOutcome) :
    (s.read mode reads).Follows s.limit s.held reads := by
  induction reads generalizing s with
  | nil =>
    unfold read
    exact .going [] rfl (by simp) rfl id s.segmented_held
  | cons first rest ih =>
    have hskip : first.endsStream = false → first.bytes = [] →
        (s.read mode rest).Follows s.limit s.held (first :: rest) := by
      intro hfirst hbytes
      show ReadRun.Follows s.limit s.held (first :: rest)
        { s.read mode rest with frames := [] ++ (s.read mode rest).frames }
      refine (ih s).cons hfirst id ?_
      rw [hbytes]
      exact s.segmented_held
    cases first with
    | fault e =>
      have hends : ∀ {x : FrameError}, (ReadOutcome.fault e).endsStream = true →
          ReadRun.Follows s.limit s.held (.fault e :: rest) ⟨s, [], .error x, rest⟩ :=
        fun h => .ended [] _ rfl (by simp) h rfl id s.segmented_held
      unfold read
      cases hfault : ReadFault.ofError e with
      | transientRetry =>
        refine .going [.fault e] rfl ?_ rfl id s.segmented_held
        simp [ReadOutcome.endsStream, hfault]
      | interrupted => exact hskip (by simp [ReadOutcome.endsStream, hfault]) rfl
      | retryableFault => exact hskip (by simp [ReadOutcome.endsStream, hfault]) rfl
      | peerClosed => exact hends (by simp [ReadOutcome.endsStream, hfault])
      | other => exact hends (by simp [ReadOutcome.endsStream, hfault])
    | data chunk =>
      cases chunk with
      | nil =>
        unfold read
        exact .ended [] _ rfl (by simp) rfl rfl id s.segmented_held
      | cons b chunk =>
        have halive : ∀ r ∈ [ReadOutcome.data (b :: chunk)], r.endsStream = false := by
          simp [ReadOutcome.endsStream]
        have hread : bytesRead [.data (b :: chunk)] = b :: chunk := List.flatMap_singleton ..
        unfold read
        dsimp only
        rw [feed_result, Gathered.result]
        rcases (s.gathered_follows (b :: chunk)).cut with
          ⟨hnone, hopened, hcut⟩ | ⟨h, lost, hsome, hdecoded, hrefused, hcut⟩
        · rw [hnone]
          -- one read is enough for `once`; the other mode reads on
          cases mode with
          | once => exact .going [.data (b :: chunk)] rfl halive rfl hopened (by rw [hread]; exact hcut)
          | untilWouldBlock =>
            exact (ih (s.feed (b :: chunk)).inbound).cons (halive _ List.mem_cons_self) hopened hcut
        · rw [hsome]
          exact .refused [.data (b :: chunk)] lost rfl halive rfl hdecoded hrefused
            (by rw [hread]; exact hcut)

end Inbound

end EchoLoad.Framing
