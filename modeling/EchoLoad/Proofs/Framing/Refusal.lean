import EchoLoad.Framing.Framer
import EchoLoad.Proofs.Framing.Reassembly
import EchoLoad.Proofs.Framing.Reading

/-!
# After a refused header

A chunk that runs into a header of a length out of bounds fails, and nothing says that the connection is
not fed any more. It comes to nothing:

> `Framer.feedEach_refused`: whatever is fed after the chunk that failed, no frame comes out, each chunk
> with bytes fails again with the same error, each empty chunk is taken, and both halves of the
> connection stay as the first failure left them.

The message in progress stands at the end of the sixteen bytes of its header, with no header admitted
(`Assembly.Sound.eq_of_blocked`). A round from there takes no byte of the chunk, reads the same header
once more and refuses it (`Assembly.round?_refused`).
-/

namespace EchoLoad.Framing

namespace Assembly

/-- A message in progress that begins with a header out of bounds holds that header and nothing more. -/
theorem Sound.eq_of_blocked {limit : Nat} {s : Assembly} (hs : s.Sound limit) {h : Header}
    (hdecoded : Header.decode? s.held = some h) (hrefused : h.isAdmitted limit = false) :
    s.headerBytes.length = Header.size ∧ Header.decode? s.headerBytes = some h ∧
      s = ⟨Header.size, s.headerBytes, none, #[]⟩ := by
  have hlength := hs.length_of_blocked ⟨h, hdecoded, hrefused⟩
  rw [length_held hs] at hlength
  cases hs with
  | inHeader width short => exact absurd hlength (Nat.ne_of_lt short)
  | @inBody headerBytes x body width decoded admitted short =>
    rw [held_inBody width decoded, Option.some.injEq] at hdecoded
    rw [← hdecoded, admitted] at hrefused
    cases hrefused
  | @atRefused headerBytes x width decoded refused =>
    have hheld : held ⟨Header.size, headerBytes, none, #[]⟩ = headerBytes := by
      simp [held, ← width]
    rw [hheld] at hdecoded
    exact ⟨width, hdecoded, rfl⟩

/-- A round that finds a whole header that was refused takes nothing, and refuses it again. -/
theorem round?_refused {limit : Nat} {headerBytes : Bytes} {h : Header}
    (width : headerBytes.length = Header.size) (decoded : Header.decode? headerBytes = some h)
    (refused : h.isAdmitted limit = false) (data : Bytes) :
    round? limit ⟨Header.size, headerBytes, none, #[]⟩ data =
      some (.refused ⟨Header.size, headerBytes, none, #[]⟩ h) := by
  have htake : takeHeader? ⟨Header.size, headerBytes, none, #[]⟩ data =
      some (⟨Header.size, headerBytes, none, #[]⟩, data) := by
    rw [takeHeader?_eq width (Nat.le_refl _)]
    simp
  have hfull : ¬ Header.size < Header.size := Nat.lt_irrefl _
  have hclosed : ¬ h.isAdmitted limit = true := by simp [refused]
  unfold round?
  simp only [htake, Option.bind_eq_bind, Option.bind_some, decoded, Option.getD_some, if_neg hfull,
    if_neg hclosed]

/-- So does a whole chunk, unless it is empty. -/
theorem gather?_refused {limit : Nat} {headerBytes : Bytes} {h : Header}
    (width : headerBytes.length = Header.size) (decoded : Header.decode? headerBytes = some h)
    (refused : h.isAdmitted limit = false) (data : Bytes) :
    gather? limit ⟨Header.size, headerBytes, none, #[]⟩ data =
      some ⟨⟨Header.size, headerBytes, none, #[]⟩, [],
        if data = [] then none else some (.invalidLength h.length limit)⟩ := by
  unfold gather?
  by_cases hdata : data = []
  · rw [dif_pos hdata, if_pos hdata]
  · rw [dif_neg hdata, if_neg hdata]
    split <;> simp_all [round?_refused width decoded refused]

end Assembly

namespace Inbound

/-- The message in progress begins with this header, and its length is out of bounds. -/
structure Refuses (s : Inbound) (h : Header) : Prop where
  decoded : Header.decode? s.held = some h
  refused : h.isAdmitted s.limit = false

/-- A chunk that fails leaves a refused header, and the error says what stands in it. -/
theorem refuses_of_feed {s : Inbound} {chunk : Bytes} {e : FrameError}
    (hfailed : (s.feed chunk).result = .error e) :
    ∃ h, (s.feed chunk).inbound.Refuses h ∧ e = .invalidLength h.length s.limit := by
  have hfollows := s.gathered_follows chunk
  rw [feed_result, Gathered.result] at hfailed
  rcases hfollows.cut with ⟨hnone, -, -⟩ | ⟨h, lost, hsome, hdecoded, hrefused, -⟩
  · rw [hnone] at hfailed
    cases hfailed
  · rw [hsome] at hfailed
    cases hfailed
    exact ⟨h, ⟨hdecoded, hrefused⟩, rfl⟩

/-- **A refused header stays.** Nothing comes of a chunk, and nothing changes. -/
theorem Refuses.feed {s : Inbound} {h : Header} (hs : s.Refuses h) (chunk : Bytes) :
    s.feed chunk =
      ⟨s, [], if chunk = [] then .ok 0 else .error (.invalidLength h.length s.limit)⟩ := by
  obtain ⟨width, decoded, hassembly⟩ := s.sound.eq_of_blocked hs.decoded hs.refused
  have hgathered : s.gathered chunk =
      ⟨s.assembly, [], if chunk = [] then none else some (.invalidLength h.length s.limit)⟩ := by
    have hgather := Assembly.gather?_refused width decoded hs.refused chunk
    rw [← hassembly, gather?_eq, Option.some.injEq] at hgather
    exact hgather
  unfold Inbound.feed
  simp only [hgathered, Gathered.result]
  by_cases hchunk : chunk = []
  · simp [hchunk]
  · simp [hchunk]

end Inbound

/-! ## A connection that is fed on -/

/-- What a connection answers to a chunk. -/
structure Answer where
  frames : List Frame
  result : Except FrameError Nat

namespace Framer

/-- Feed a chunk. What is on its way out is left alone. -/
def feed (s : Framer) (chunk : Bytes) : Answer × Framer :=
  let fed := s.inbound.feed chunk
  (⟨fed.frames, fed.result⟩, { s with inbound := fed.inbound })

/-- Feed chunks one after the other, also after one that failed. -/
def feedEach (s : Framer) : List Bytes → List Answer × Framer
  | [] => ([], s)
  | chunk :: chunks =>
    let (answer, next) := s.feed chunk
    let (answers, last) := next.feedEach chunks
    (answer :: answers, last)

/-- The answers of a connection that refused a header of this length. -/
def refusal (length : Int32) (limit : Nat) (chunk : Bytes) : Answer :=
  ⟨[], if chunk = [] then .ok 0 else .error (.invalidLength length limit)⟩

theorem feedEach_refuses {s : Framer} {h : Header} (hs : s.inbound.Refuses h) (chunks : List Bytes) :
    s.feedEach chunks = (chunks.map (refusal h.length s.inbound.limit), s) := by
  have hfeed : ∀ chunk, s.feed chunk = (refusal h.length s.inbound.limit chunk, s) := by
    intro chunk
    rw [feed, hs.feed chunk]
    rfl
  induction chunks with
  | nil => rfl
  | cons chunk chunks ih => simp only [feedEach, hfeed, ih, List.map_cons]

/-- **A refused header ends the inbound side for good.** Once a chunk failed, for its length and the
limit named in the error, every later chunk with bytes fails with the same error, every empty chunk is
taken, no frame comes out, and the message in progress and the frames on their way out stay as they
are. -/
theorem feedEach_refused {s : Framer} {chunk : Bytes} {length : Int32} {limit : Nat}
    (hfailed : (s.feed chunk).1.result = .error (.invalidLength length limit)) (later : List Bytes) :
    (s.feed chunk).2.feedEach later = (later.map (refusal length limit), (s.feed chunk).2) := by
  obtain ⟨h, hrefuses, herror⟩ := Inbound.refuses_of_feed hfailed
  cases herror
  exact feedEach_refuses hrefuses later

/-- A good message comes first, then a header that announces five bytes. A whole message fed after that
is not taken for one, and a frame that was queued stays queued. -/
theorem feedEach_refused_after_frame :
    let s : Framer := ⟨.new 64, (Outbound.new.enqueue ⟨⟨16, 0, 0, 1⟩, []⟩ []).outbound⟩
    let fed := s.feed (Frame.encode ⟨⟨18, 1, 2, 3⟩, [7, 8]⟩ ++ Header.encode ⟨5, 1, 2, 4⟩)
    fed.1.result = .error (.invalidLength 5 64) ∧
      fed.2.feedEach [[1], [], [16, 0, 0, 0, 0, 0, 0, 0, 0, 0, 0, 0, 0, 0, 0, 0]] =
        ([⟨[], .error (.invalidLength 5 64)⟩, ⟨[], .ok 0⟩, ⟨[], .error (.invalidLength 5 64)⟩],
          fed.2) := by
  intro s fed
  have hfailed : ((Inbound.new 64).feed
      (Frame.encode ⟨⟨18, 1, 2, 3⟩, [7, 8]⟩ ++ Header.encode ⟨5, 1, 2, 4⟩)).result =
        .error (.invalidLength 5 64) := by cbv
  exact ⟨hfailed, feedEach_refused (s := s) hfailed _⟩

end Framer

end EchoLoad.Framing
