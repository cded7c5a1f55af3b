import EchoLoad.Framing.Inbound

/-!
# The frames of a byte string

A byte string begins with some complete frames, and then comes a rest that begins with none. This file
says what that means without saying how the frames are found:

> `Segmented limit b frames rest`: `b` is the encoding of `frames` followed by `rest`, each frame fits
> the limit, and no frame that does stands in front of `rest`.

There is at most one such cut of a string (`Segmented.unique`), and its frames are the longest run of
frames from the start of the string (`Segmented.longest`). A string that goes on is cut further where
the first cut ended (`Segmented.append`); after a header of a length out of bounds there is no further
cut (`noFrame_of_blocked`).
-/

namespace EchoLoad.Framing

/-- No frame that fits the limit stands in front. -/
def NoFrame (limit : Nat) (b : Bytes) : Prop :=
  ∀ (f : Frame) (rest : Bytes), f.Fits limit → b ≠ f.encode ++ rest

/-- The cut of a byte string into the frames in front and a rest that begins with none. -/
structure Segmented (limit : Nat) (b : Bytes) (frames : List Frame) (rest : Bytes) : Prop where
  bytes : b = frames.flatMap Frame.encode ++ rest
  fits : ∀ f ∈ frames, f.Fits limit
  stuck : NoFrame limit rest

/-! ## No encoding of a fitting frame begins another -/

/-- The header in front of an encoded frame. -/
theorem decode?_frame (f : Frame) (rest : Bytes) :
    Header.decode? (f.encode ++ rest) = some f.header := by
  rw [Frame.encode, List.append_assoc]
  exact Header.decode?_encode_append _ _

/-- Frames that fit can be told apart by what they are encoded to, whatever follows. -/
theorem encode_append_inj {limit : Nat} {f g : Frame} {x y : Bytes} (hf : f.Fits limit)
    (hg : g.Fits limit) (h : f.encode ++ x = g.encode ++ y) : f = g ∧ x = y := by
  have hheader : f.header = g.header := by
    have hdecoded := decode?_frame f x
    rw [h, decode?_frame g y, Option.some.injEq] at hdecoded
    exact hdecoded.symm
  have hlength : f.encode.length = g.encode.length := by
    rw [Frame.length_encode, Frame.length_encode, ← hf.announced_eq, ← hg.announced_eq, hheader]
  obtain ⟨hencode, hrest⟩ := List.append_inj h hlength
  rw [Frame.encode, Frame.encode, hheader, List.append_right_inj] at hencode
  refine ⟨?_, hrest⟩
  cases f
  cases g
  simp_all

/-! ## Strings that begin with no frame -/

theorem noFrame_nil (limit : Nat) : NoFrame limit [] := by
  intro f rest hf h
  have hlength := congrArg List.length h
  have := f.size_le_length
  rw [List.length_append, Frame.length_encode, List.length_nil] at hlength
  simp only [Header.size] at this
  omega

/-- Fewer bytes than a header has. -/
theorem noFrame_of_lt {limit : Nat} {b : Bytes} (h : b.length < Header.size) : NoFrame limit b := by
  intro f rest hf hb
  have := f.size_le_length
  rw [hb, List.length_append, Frame.length_encode] at h
  omega

/-- A header of a length out of bounds. -/
theorem noFrame_of_blocked {limit : Nat} {b : Bytes} (h : Blocked limit b) : NoFrame limit b := by
  rintro f rest hf rfl
  obtain ⟨x, hx, hrefused⟩ := h
  rw [decode?_frame, Option.some.injEq] at hx
  rw [← hx, hf.isAdmitted] at hrefused
  exact absurd hrefused (by simp)

/-- A header that announces more than there is. -/
theorem noFrame_of_short {limit : Nat} {b : Bytes} {h : Header} (hd : Header.decode? b = some h)
    (hlt : b.length < h.announced) : NoFrame limit b := by
  rintro f rest hf rfl
  rw [decode?_frame, Option.some.injEq] at hd
  rw [← hd, hf.announced_eq, List.length_append, Frame.length_encode] at hlt
  omega

/-- What follows a header of a length out of bounds changes nothing about it. -/
theorem Blocked.append {limit : Nat} {b : Bytes} (h : Blocked limit b) (more : Bytes) :
    Blocked limit (b ++ more) := by
  obtain ⟨x, hx, hrefused⟩ := h
  exact ⟨x, Header.decode?_append hx more, hrefused⟩

/-- The header of a message in its body stands in front of what is held. -/
theorem Assembly.held_inBody {headerBytes : Bytes} {h : Header} {body : Array UInt8}
    (width : headerBytes.length = Header.size) (decoded : Header.decode? headerBytes = some h) :
    Header.decode? (held ⟨Header.size + body.size, headerBytes, some h, body⟩) = some h := by
  rw [held, Nat.min_eq_right (Nat.le_add_right _ _), List.take_of_length_le (Nat.le_of_eq width)]
  exact Header.decode?_append decoded _

/-- **What is held is never a complete frame.** -/
theorem noFrame_held {limit : Nat} {s : Assembly} (hs : s.Sound limit) : NoFrame limit s.held := by
  have hlength := Assembly.length_held hs
  cases hs with
  | inHeader width short =>
    apply noFrame_of_lt
    rw [hlength]
    exact short
  | inBody width decoded admitted short =>
    apply noFrame_of_short (Assembly.held_inBody width decoded)
    rw [hlength]
    exact short
  | @atRefused headerBytes h width decoded refused =>
    apply noFrame_of_blocked
    refine ⟨h, ?_, refused⟩
    rw [Assembly.held, Nat.min_self, List.take_of_length_le (Nat.le_of_eq width)]
    exact Header.decode?_append decoded _

/-! ## The cut -/

namespace Segmented

variable {limit : Nat} {a b rest rest' : Bytes} {frames frames' : List Frame}

theorem nil (limit : Nat) : Segmented limit [] [] [] where
  bytes := rfl
  fits := by simp
  stuck := noFrame_nil limit

/-- A string that goes on is cut further where its cut ended. -/
theorem append (h : Segmented limit a frames rest) (h' : Segmented limit (rest ++ b) frames' rest') :
    Segmented limit (a ++ b) (frames ++ frames') rest' where
  bytes := by
    rw [h.bytes, List.append_assoc, h'.bytes, List.flatMap_append, List.append_assoc]
  fits := List.forall_mem_append.mpr ⟨h.fits, h'.fits⟩
  stuck := h'.stuck

/-- **The longest run.** Whatever fitting frames a string begins with, they begin its cut, and the cut
goes on in what follows them. -/
theorem longest {gs : List Frame} {x : Bytes} (h : Segmented limit b frames rest)
    (hb : b = gs.flatMap Frame.encode ++ x) (hgs : ∀ g ∈ gs, g.Fits limit) :
    ∃ later, frames = gs ++ later ∧ Segmented limit x later rest := by
  induction gs generalizing b frames with
  | nil =>
    rw [List.flatMap_nil, List.nil_append] at hb
    exact ⟨frames, rfl, hb ▸ h⟩
  | cons g gs ih =>
    obtain ⟨hg, hgs⟩ := List.forall_mem_cons.mp hgs
    rw [List.flatMap_cons, List.append_assoc] at hb
    cases frames with
    | nil =>
      -- the rest would begin with `g`
      have hrest := h.bytes
      rw [List.flatMap_nil, List.nil_append] at hrest
      exact absurd (hrest.symm.trans hb) (h.stuck g _ hg)
    | cons f frames =>
      obtain ⟨hf, hfits⟩ := List.forall_mem_cons.mp h.fits
      have hbytes := h.bytes
      rw [hb, List.flatMap_cons, List.append_assoc] at hbytes
      obtain ⟨rfl, hlater⟩ := encode_append_inj hg hf hbytes
      obtain ⟨later, hframes, hseg⟩ := ih ⟨hlater, hfits, h.stuck⟩ rfl hgs
      exact ⟨later, by rw [hframes, List.cons_append], hseg⟩

/-- **There is one cut.** -/
theorem unique (h : Segmented limit b frames rest) (h' : Segmented limit b frames' rest') :
    frames = frames' ∧ rest = rest' := by
  obtain ⟨later, hframes, hseg⟩ := h.longest h'.bytes h'.fits
  cases later with
  | nil =>
    have hrest := hseg.bytes
    rw [List.flatMap_nil, List.nil_append] at hrest
    exact ⟨hframes.trans (List.append_nil _), hrest.symm⟩
  | cons f later =>
    have hrest := hseg.bytes
    rw [List.flatMap_cons, List.append_assoc] at hrest
    exact absurd hrest (h'.stuck f _ (hseg.fits f List.mem_cons_self))

/-- A front of a fitting frame is no frame, and the header in it, if there is a whole one, is in
order. -/
theorem of_partial {f : Frame} (hf : f.Fits limit) (hb : b <+: f.encode)
    (hlt : b.length < f.length) : Segmented limit b [] b ∧ ¬ Blocked limit b := by
  obtain ⟨left, hleft⟩ := hb
  have hheader : ∀ {h : Header}, Header.decode? b = some h → h = f.header := by
    intro h hd
    have hdecoded := Header.decode?_append hd left
    rw [hleft, ← List.append_nil f.encode, decode?_frame, Option.some.injEq] at hdecoded
    exact hdecoded.symm
  refine ⟨⟨rfl, by simp, ?_⟩, ?_⟩
  · cases hd : Header.decode? b with
    | none => exact noFrame_of_lt (Header.decode?_eq_none_iff.mp hd)
    | some h =>
      apply noFrame_of_short hd
      rw [hheader hd, hf.announced_eq]
      exact hlt
  · rintro ⟨h, hd, hrefused⟩
    rw [hheader hd, hf.isAdmitted] at hrefused
    exact absurd hrefused (by simp)

/-- **The cut of a front of fitting frames.** Its frames are the first of them, and its rest begins
with no header of a length out of bounds. -/
theorem of_prefix {gs : List Frame} (hgs : ∀ g ∈ gs, g.Fits limit)
    (hb : b <+: gs.flatMap Frame.encode) :
    ∃ frames rest, Segmented limit b frames rest ∧ frames <+: gs ∧ ¬ Blocked limit rest := by
  induction gs generalizing b with
  | nil =>
    rw [List.flatMap_nil, List.prefix_nil] at hb
    subst hb
    exact ⟨[], [], nil limit, List.prefix_rfl, Assembly.not_blocked_of_lt (by decide)⟩
  | cons g gs ih =>
    obtain ⟨hg, hgs⟩ := List.forall_mem_cons.mp hgs
    rw [List.flatMap_cons] at hb
    by_cases hlt : b.length < g.length
    · -- the string ends within the first frame
      have hpartial : b <+: g.encode := by
        apply List.prefix_of_prefix_length_le hb (List.prefix_append _ _)
        rw [Frame.length_encode]
        exact Nat.le_of_lt hlt
      obtain ⟨hseg, hopen⟩ := of_partial hg hpartial hlt
      exact ⟨[], b, hseg, List.nil_prefix, hopen⟩
    · obtain ⟨c, rfl⟩ : g.encode <+: b := by
        apply List.prefix_of_prefix_length_le (List.prefix_append _ _) hb
        rw [Frame.length_encode]
        exact Nat.le_of_not_lt hlt
      rw [List.prefix_append_right_inj] at hb
      obtain ⟨frames, rest, hseg, hframes, hopen⟩ := ih hgs hb
      refine ⟨g :: frames, rest, ⟨?_, ?_, hseg.stuck⟩, ?_, hopen⟩
      · rw [List.flatMap_cons, List.append_assoc, ← hseg.bytes]
      · exact List.forall_mem_cons.mpr ⟨hg, hseg.fits⟩
      · exact List.prefix_cons_inj g |>.mpr hframes

end Segmented

/-! ## The cut and chunks -/

/-- What comes of a chunk is the cut of the bytes held before it and of its own. -/
theorem Gathered.Follows.cut {limit : Nat} {held data : Bytes} {g : Gathered}
    (hg : g.Follows limit held data) :
    (g.failure = none ∧ (¬ Blocked limit held → ¬ Blocked limit g.assembly.held) ∧
        Segmented limit (held ++ data) g.frames g.assembly.held) ∨
      ∃ h lost, g.failure = some (.invalidLength h.length limit) ∧
        Header.decode? g.assembly.held = some h ∧ h.isAdmitted limit = false ∧
        Segmented limit (held ++ data) g.frames (g.assembly.held ++ lost) := by
  cases hg with
  | whole sound fits bytes opened =>
    exact .inl ⟨rfl, fun h => opened (.inl h), bytes, fits, noFrame_held sound⟩
  | failed lost sound fits bytes decoded refused =>
    have hblocked : Blocked limit _ := ⟨_, decoded, refused⟩
    exact .inr ⟨_, lost, rfl, decoded, refused, bytes, fits,
      noFrame_of_blocked (hblocked.append lost)⟩

end EchoLoad.Framing
