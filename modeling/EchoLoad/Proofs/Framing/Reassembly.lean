import EchoLoad.Proofs.Framing.Segmentation

/-!
# Reassembly is exact

A fresh connection is fed chunks, one after the other, up to the first that fails. The frames that come
out are those of the bytes that went in, for every limit and every way to cut the bytes into chunks:

> `feedAll?_exact`: the bytes fed are the encodings of the frames, in order, and then a rest. If no
> chunk failed, the rest is what the connection holds, and it is short of a header or of the message
> that its header announces; if one failed, the rest begins with the header at fault.

The cut of the bytes (`Segmented`) carries the argument. A chunk takes the cut of the bytes so far to
the cut of the bytes with it (`Gathered.Follows.cut`), the run follows by induction on the chunks
(`feedAll?_accounts`), and since a string has one cut, where the chunks ended cannot matter
(`Feeding.Accounts.cut_all`).

A frame alone is a case of it: one that fits is the whole cut (`Inbound.feed_fitting`), and one that is
too long begins with a header of a length out of bounds (`Inbound.feed_oversized`).
-/

namespace EchoLoad.Framing

/-- What a run of chunks led to. -/
structure Feeding where
  assembly : Assembly
  frames : List Frame
  /-- one for each chunk that was fed -/
  results : List (Except FrameError Nat)

/-- The error of a result. -/
def errorOf? : Except FrameError Nat → Option FrameError
  | .ok _ => none
  | .error e => some e

/-- The error that ended a run. -/
def Feeding.failure (run : Feeding) : Option FrameError := run.results.findSome? errorOf?

/-- Feed chunks one after the other, up to and including the first that fails. -/
def feedAll? (limit : Nat) (s : Assembly) : List Bytes → Option Feeding
  | [] => some ⟨s, [], []⟩
  | chunk :: chunks => do
    let g ← s.gather? limit chunk
    match g.failure with
    | some _ => some ⟨g.assembly, g.frames, [g.result chunk]⟩
    | none => do
      let later ← feedAll? limit g.assembly chunks
      some ⟨later.assembly, g.frames ++ later.frames, g.result chunk :: later.results⟩

/-- The bytes of a run are accounted for: either all chunks were taken, or one failed at a header of a
length out of bounds. -/
inductive Feeding.Accounts (limit : Nat) (held : Bytes) (chunks : List Bytes) : Feeding → Prop
  | whole {t : Assembly} {frames : List Frame} (sound : t.Sound limit)
      (opened : ¬ Blocked limit t.held)
      (cut : Segmented limit (held ++ chunks.flatten) frames t.held) :
      Accounts limit held chunks ⟨t, frames, chunks.map fun c => .ok c.length⟩
  | failed {t : Assembly} {frames : List Frame} {h : Header} (fed : List Bytes) (last : Bytes)
      (later : List Bytes) (lost : Bytes) (sound : t.Sound limit)
      (split : chunks = fed ++ last :: later) (decoded : Header.decode? t.held = some h)
      (refused : h.isAdmitted limit = false)
      (cut : Segmented limit (held ++ (fed ++ [last]).flatten) frames (t.held ++ lost)) :
      Accounts limit held chunks
        ⟨t, frames, fed.map (fun c => .ok c.length) ++ [.error (.invalidLength h.length limit)]⟩

/-- A chunk that was taken, in front of a run. -/
theorem Feeding.Accounts.cons {limit : Nat} {held chunk : Bytes} {chunks : List Bytes}
    {t : Assembly} {frames : List Frame} {later : Feeding}
    (hcut : Segmented limit (held ++ chunk) frames t.held)
    (hlater : later.Accounts limit t.held chunks) :
    Feeding.Accounts limit held (chunk :: chunks)
      ⟨later.assembly, frames ++ later.frames, .ok chunk.length :: later.results⟩ := by
  cases hlater with
  | whole sound opened cut =>
    refine .whole sound opened ?_
    rw [List.flatten_cons, ← List.append_assoc]
    exact hcut.append cut
  | @failed t' frames' h fed last later lost sound split decoded refused cut =>
    refine .failed (chunk :: fed) last later lost sound (congrArg (List.cons chunk) split) decoded
      refused ?_
    rw [List.cons_append, List.flatten_cons, ← List.append_assoc]
    exact hcut.append cut

/-- **Every run is accounted for**, and none ends the program. -/
theorem feedAll?_accounts {limit : Nat} {s : Assembly} (hs : s.Sound limit)
    (hopen : ¬ Blocked limit s.held) (chunks : List Bytes) :
    ∃ run, feedAll? limit s chunks = some run ∧ run.Accounts limit s.held chunks := by
  -- a chunk that was taken leaves an assembly that hangs together, from which the run goes on
  induction chunks generalizing s with
  | nil =>
    refine ⟨_, rfl, .whole hs hopen ?_⟩
    exact ⟨by simp, by simp, noFrame_held hs⟩
  | cons chunk chunks ih =>
    obtain ⟨g, hg, hfollows⟩ := s.gather?_follows hs chunk
    have hsound := hfollows.sound
    rcases hfollows.cut with ⟨hnone, hopens, hcut⟩ | ⟨h, lost, hsome, hdecoded, hrefused, hcut⟩
    · obtain ⟨later, hlater, haccounts⟩ := ih hsound (hopens hopen)
      refine ⟨_, ?_, haccounts.cons hcut⟩
      simp only [feedAll?, hg, hnone, hlater, Gathered.result, Option.bind_eq_bind,
        Option.bind_some]
    · refine ⟨_, ?_, .failed [] chunk chunks lost hsound rfl hdecoded hrefused (by simpa using hcut)⟩
      simp only [feedAll?, hg, hsome, Gathered.result, Option.bind_eq_bind, Option.bind_some]
      rfl

/-! ## Where the chunks end does not matter -/

/-- Chunks that were taken give no error. -/
theorem findSome?_taken (chunks : List Bytes) :
    (chunks.map fun c => .ok c.length).findSome? errorOf? = none := by
  rw [List.findSome?_eq_none_iff]
  intro r hr
  obtain ⟨c, -, rfl⟩ := List.mem_map.mp hr
  rfl

/-- What is held of a refused header is that header. -/
theorem Assembly.Sound.length_of_blocked {limit : Nat} {s : Assembly} (hs : s.Sound limit)
    (hblocked : Blocked limit s.held) : s.held.length = Header.size := by
  have hlength := Assembly.length_held hs
  cases hs with
  | inHeader width short =>
    refine absurd hblocked (Assembly.not_blocked_of_lt ?_)
    rw [hlength]
    exact short
  | inBody width decoded admitted short =>
    obtain ⟨x, hx, hrefused⟩ := hblocked
    rw [Assembly.held_inBody width decoded, Option.some.injEq] at hx
    rw [← hx, admitted] at hrefused
    exact absurd hrefused (by simp)
  | atRefused => exact hlength

/-- The cut of all bytes of the chunks, also of those that no call took. -/
theorem Feeding.Accounts.cut_all {limit : Nat} {held : Bytes} {chunks : List Bytes} {run : Feeding}
    (h : run.Accounts limit held chunks) :
    ∃ more, Segmented limit (held ++ chunks.flatten) run.frames (run.assembly.held ++ more) ∧
      ((run.failure = none ∧ more = [] ∧ ¬ Blocked limit run.assembly.held) ∨
        ∃ x, run.failure = some (.invalidLength x.length limit) ∧
          Header.decode? run.assembly.held = some x ∧ x.isAdmitted limit = false ∧
          run.assembly.held.length = Header.size) := by
  cases h with
  | @whole t frames sound opened cut =>
    refine ⟨[], by rwa [List.append_nil], .inl ⟨?_, rfl, opened⟩⟩
    exact findSome?_taken chunks
  | @failed t frames x fed last later lost sound split decoded refused cut =>
    have hblocked : Blocked limit t.held := ⟨x, decoded, refused⟩
    refine ⟨lost ++ later.flatten, ?_, .inr ⟨x, ?_, decoded, refused,
      sound.length_of_blocked hblocked⟩⟩
    · have hbytes : held ++ chunks.flatten = held ++ (fed ++ [last]).flatten ++ later.flatten := by
        rw [split]
        simp
      have hmore : Segmented limit (t.held ++ lost ++ later.flatten) []
          (t.held ++ (lost ++ later.flatten)) :=
        ⟨by simp, by simp, noFrame_of_blocked (hblocked.append _)⟩
      have hcut := cut.append hmore
      rwa [List.append_nil, ← hbytes] at hcut
    · rw [Feeding.failure, List.findSome?_append, findSome?_taken]
      rfl

/-- Two runs over the same bytes come to the same, however these were cut into chunks. -/
theorem Feeding.Accounts.agree {limit : Nat} {held : Bytes} {chunks chunks' : List Bytes}
    {run run' : Feeding} (h : run.Accounts limit held chunks) (h' : run'.Accounts limit held chunks')
    (hbytes : chunks'.flatten = chunks.flatten) :
    run'.frames = run.frames ∧ run'.failure = run.failure ∧
      run'.assembly.held = run.assembly.held := by
  obtain ⟨more, hcut, hend⟩ := h.cut_all
  obtain ⟨more', hcut', hend'⟩ := h'.cut_all
  rw [hbytes] at hcut'
  obtain ⟨hframes, hrest⟩ := hcut'.unique hcut
  refine ⟨hframes, ?_⟩
  -- the bytes have one cut, so that only the two ends are left to compare
  rcases hend with ⟨hnone, hmore, hopen⟩ | ⟨x, hsome, hx, hrefused, hlen⟩ <;>
    rcases hend' with ⟨hnone', hmore', hopen'⟩ | ⟨x', hsome', hx', hrefused', hlen'⟩
  · rw [hmore, hmore', List.append_nil, List.append_nil] at hrest
    exact ⟨hnone'.trans hnone.symm, hrest⟩
  · -- the whole run would hold a refused header
    rw [hmore, List.append_nil] at hrest
    have hblocked : Blocked limit run'.assembly.held := ⟨x', hx', hrefused'⟩
    exact absurd (hrest ▸ hblocked.append more') hopen
  · rw [hmore', List.append_nil] at hrest
    have hblocked : Blocked limit run.assembly.held := ⟨x, hx, hrefused⟩
    exact absurd (hrest ▸ hblocked.append more) hopen'
  · obtain ⟨hheld, -⟩ := List.append_inj hrest (hlen'.trans hlen.symm)
    rw [hheld, hx, Option.some.injEq] at hx'
    exact ⟨by rw [hsome, hsome', hx'], hheld⟩

/-! ## The law of a run -/

/-- What is held, unless a header was refused: less than a header, or less than the message that its
header announces. -/
theorem Assembly.Sound.incomplete {limit : Nat} {s : Assembly} (hs : s.Sound limit)
    (hopen : ¬ Blocked limit s.held) :
    s.held.length < 16 ∨ ∃ h, Header.decode? s.held = some h ∧ 16 ≤ h.length.toInt ∧
      h.length.toInt ≤ limit ∧ s.held.length < h.length.toInt := by
  have hlength := Assembly.length_held hs
  cases hs with
  | inHeader width short =>
    left
    rw [hlength]
    exact short
  | @inBody headerBytes h body width decoded admitted short =>
    right
    obtain ⟨hmin, hmax⟩ := Header.isAdmitted_iff.mp admitted
    have hann := Header.announced_of_isAdmitted admitted
    refine ⟨h, Assembly.held_inBody width decoded, hmin, hmax, ?_⟩
    rw [hlength, ← hann]
    exact Int.ofNat_lt.mpr short
  | @atRefused headerBytes h width decoded refused =>
    refine absurd ⟨h, ?_, refused⟩ hopen
    rw [Assembly.held, Nat.min_self, List.take_of_length_le (Nat.le_of_eq width)]
    exact Header.decode?_append decoded _

/-- **Reassembly is exact.** For every limit and every list of chunks, a run from a fresh connection
never ends the program, and the bytes fed are the encodings of the frames that came out and then a
rest. Without a failure the rest is what the connection holds, and it is no complete message; with one,
it begins with the header at fault. Neither the frames nor the failure nor what is held depend on where
the chunks ended. -/
theorem feedAll?_exact (limit : Nat) (chunks : List Bytes) :
    ∃ run rest, feedAll? limit .new chunks = some run ∧
      (chunks.take run.results.length).flatten = run.frames.flatMap Frame.encode ++ rest ∧
      (∀ f ∈ run.frames, f.header.length.toInt = 16 + f.body.length ∧
        16 ≤ f.header.length.toInt ∧ f.header.length.toInt ≤ limit) ∧
      ((run.results = chunks.map (fun c => .ok c.length) ∧
          rest = run.assembly.headerBytes.take (min run.assembly.received 16) ++
            run.assembly.body.toList ∧
          run.assembly.received = rest.length ∧
          (rest.length < 16 ∨ ∃ h, Header.decode? rest = some h ∧ 16 ≤ h.length.toInt ∧
            h.length.toInt ≤ limit ∧ rest.length < h.length.toInt)) ∨
        ∃ fed last later h, chunks = fed ++ last :: later ∧
          run.results = fed.map (fun c => .ok c.length) ++
            [.error (.invalidLength h.length limit)] ∧
          16 ≤ rest.length ∧ Header.decode? rest = some h ∧
          (h.length.toInt < 16 ∨ limit < h.length.toInt)) ∧
      ∀ chunks', chunks'.flatten = chunks.flatten →
        ∃ run', feedAll? limit .new chunks' = some run' ∧ run'.frames = run.frames ∧
          run'.failure = run.failure ∧ run'.assembly.held = run.assembly.held := by
  have hnew : ¬ Blocked limit (Assembly.held .new) := Assembly.not_blocked_of_lt (by decide)
  have hlaw := feedAll?_accounts (Assembly.sound_new limit) hnew
  simp only [Assembly.held_new] at hlaw
  have hfits : ∀ f : Frame, f.Fits limit → f.header.length.toInt = 16 + f.body.length ∧
      16 ≤ f.header.length.toInt ∧ f.header.length.toInt ≤ limit := by
    intro f hf
    obtain ⟨hmin, hmax⟩ := Header.isAdmitted_iff.mp hf.isAdmitted
    exact ⟨by rw [hf.announced]; simp [Frame.length, Header.size], hmin, hmax⟩
  obtain ⟨run, hrun, haccounts⟩ := hlaw chunks
  have hagree : ∀ chunks', chunks'.flatten = chunks.flatten →
      ∃ run', feedAll? limit .new chunks' = some run' ∧ run'.frames = run.frames ∧
        run'.failure = run.failure ∧ run'.assembly.held = run.assembly.held := by
    intro chunks' hbytes
    obtain ⟨run', hrun', haccounts'⟩ := hlaw chunks'
    exact ⟨run', hrun', haccounts.agree haccounts' hbytes⟩
  cases haccounts with
  | @whole t frames sound opened cut =>
    refine ⟨_, t.held, hrun, ?_, fun f hf => hfits f (cut.fits f hf), .inl ⟨rfl, rfl, ?_, ?_⟩, hagree⟩
    · rw [List.length_map, List.take_length]
      exact cut.bytes
    · exact (Assembly.length_held sound).symm
    · exact sound.incomplete opened
  | @failed t frames h fed last later lost sound split decoded refused cut =>
    have hdecoded := Header.decode?_append decoded lost
    refine ⟨_, t.held ++ lost, hrun, ?_, fun f hf => hfits f (cut.fits f hf),
      .inr ⟨fed, last, later, h, split, rfl, ?_, hdecoded, ?_⟩, hagree⟩
    · have htake : chunks.take (fed.length + 1) = fed ++ [last] := by
        rw [split, List.take_append, List.take_of_length_le (Nat.le_succ _), Nat.add_sub_cancel_left]
        rfl
      simp only [List.length_append, List.length_map, List.length_singleton, htake]
      exact cut.bytes
    · exact (Header.encode_of_decode? hdecoded).1
    · -- an admitted length would not have been refused
      have hout : ¬ (16 ≤ h.length.toInt ∧ h.length.toInt ≤ limit) := by
        intro hin
        rw [Header.isAdmitted_iff.mpr hin] at refused
        exact absurd refused (by simp)
      omega

/-! ## One frame -/

theorem Segmented.single {limit : Nat} {f : Frame} (hf : f.Fits limit) :
    Segmented limit f.encode [f] [] where
  bytes := by simp
  fits := List.forall_mem_singleton.mpr hf
  stuck := noFrame_nil limit

theorem Blocked.oversized {limit : Nat} {f : Frame} (hannounced : f.header.length.toInt = f.length)
    (hlong : limit < f.length) : Blocked limit f.encode := by
  refine ⟨f.header, ?_, ?_⟩
  · rw [← List.append_nil f.encode]
    exact decode?_frame f []
  · rw [← Bool.not_eq_true, Header.isAdmitted_iff]
    omega

namespace Inbound

/-- The cut of the bytes of a frame is that of a fresh connection. -/
theorem gathered_encode (limit : Nat) (f : Frame) :
    ((new limit).gathered f.encode).Follows limit [] f.encode :=
  (new limit).gathered_follows f.encode

/-- A fresh connection takes a frame that fits. -/
theorem feed_fitting {limit : Nat} {f : Frame} (hf : f.Fits limit) :
    ((new limit).feed f.encode).frames = [f] ∧
      ((new limit).feed f.encode).result = .ok f.length := by
  have hfollows := gathered_encode limit f
  show ((new limit).gathered f.encode).frames = [f] ∧
    ((new limit).gathered f.encode).result f.encode = .ok f.length
  generalize (new limit).gathered f.encode = g at hfollows
  rcases hfollows.cut with ⟨hnone, -, hcut⟩ | ⟨h, lost, -, hdecoded, -, hcut⟩
  · obtain ⟨hframes, -⟩ := hcut.unique (Segmented.single hf)
    refine ⟨hframes, ?_⟩
    rw [Gathered.result, hnone, Frame.length_encode]
  · -- nothing is left in which a header could be refused
    obtain ⟨-, hrest⟩ := hcut.unique (Segmented.single hf)
    rw [(List.append_eq_nil_iff.mp hrest).1, Header.decode?_eq_none_iff.mpr (by decide)] at hdecoded
    cases hdecoded

/-- It refuses one that is too long, at its header. -/
theorem feed_oversized {limit : Nat} {f : Frame} (hannounced : f.header.length.toInt = f.length)
    (hlong : limit < f.length) :
    ((new limit).feed f.encode).frames = [] ∧
      ((new limit).feed f.encode).result = .error (.invalidLength f.header.length limit) := by
  have hfollows := gathered_encode limit f
  have hblocked := Blocked.oversized hannounced hlong
  have hwhole : Segmented limit f.encode [] f.encode :=
    ⟨rfl, by simp, noFrame_of_blocked hblocked⟩
  show ((new limit).gathered f.encode).frames = [] ∧
    ((new limit).gathered f.encode).result f.encode = .error (.invalidLength f.header.length limit)
  generalize (new limit).gathered f.encode = g at hfollows
  rcases hfollows.cut with ⟨-, hopen, hcut⟩ | ⟨h, lost, hsome, hdecoded, -, hcut⟩
  · -- all bytes would be held, and a header out of bounds in front of them
    obtain ⟨-, hrest⟩ := hcut.unique hwhole
    exact absurd (hrest ▸ hblocked) (hopen (Assembly.not_blocked_of_lt (by decide)))
  · obtain ⟨hframes, hrest⟩ := hcut.unique hwhole
    have hheader : h = f.header := by
      have hfront := Header.decode?_append hdecoded lost
      rw [hrest, ← List.append_nil f.encode, decode?_frame, Option.some.injEq] at hfront
      exact hfront.symm
    refine ⟨hframes, ?_⟩
    rw [Gathered.result, hsome, hheader]

end Inbound

/-- Frames that fit are taken, however their bytes are cut into chunks. -/
theorem feedAll?_fitting {limit : Nat} {frames : List Frame} (hfits : ∀ f ∈ frames, f.Fits limit)
    {chunks : List Bytes} (hbytes : chunks.flatten <+: frames.flatMap Frame.encode) :
    ∃ run, feedAll? limit .new chunks = some run ∧ run.failure = none ∧ run.frames <+: frames ∧
      (chunks.flatten = frames.flatMap Frame.encode → run.frames = frames) := by
  have hopen : ¬ Blocked limit (Assembly.held .new) := Assembly.not_blocked_of_lt (by decide)
  obtain ⟨run, hrun, haccounts⟩ := feedAll?_accounts (Assembly.sound_new limit) hopen chunks
  obtain ⟨more, hcut, hend⟩ := haccounts.cut_all
  obtain ⟨front, rest, hcut', hfront, hopened⟩ := Segmented.of_prefix hfits hbytes
  rw [Assembly.held_new, List.nil_append] at hcut
  obtain ⟨hframes, hrest⟩ := hcut.unique hcut'
  refine ⟨run, hrun, ?_, hframes ▸ hfront, fun hall => ?_⟩
  · rcases hend with ⟨hnone, -, -⟩ | ⟨x, -, hx, hrefused, -⟩
    · exact hnone
    · -- a refused header would stand in front of the rest
      have hblocked : Blocked limit run.assembly.held := ⟨x, hx, hrefused⟩
      exact absurd (hrest ▸ hblocked.append more) hopened
  · have hwhole : Segmented limit chunks.flatten frames [] :=
      ⟨by rw [hall, List.append_nil], hfits, noFrame_nil limit⟩
    exact (hcut.unique hwhole).1

end EchoLoad.Framing
