import EchoLoad.Message.Frame

/-!
# Headers and frames as bytes

Sixteen bytes are a header and a header is sixteen bytes, whatever its fields hold: no string of that
length is refused, and none is read in two ways. A frame that is built from a header announces its own
length, also where the header asked for less than a header takes, or for a negative length; so what its bytes
are read back to is the header that it carries.

> `Frame.build?_iff`: a frame is built exactly if the buffer holds its body, and `BuiltFrom` says which one.
> `Frame.codec_exact`: reading and writing headers are inverse to each other in both directions, and a frame
> that is built is as long as it says and is read back.
-/

namespace EchoLoad.Frame

/-- What a frame is that is built from a header and a buffer: the length is raised to sixteen, the other
fields stay, and the body is the front of the buffer. -/
structure BuiltFrom (f : Frame) (h : Header) (fill : Bytes) : Prop where
  length_eq : f.header.length.toInt = max 16 h.length.toInt
  others_eq : f.header = { h with length := f.header.length }
  body_eq : f.body = fill.take (max 16 h.length.toInt - 16).toNat

variable {f g : Frame} {h : Header} {fill : Bytes}

/-- There is one such frame. -/
theorem BuiltFrom.unique (hf : f.BuiltFrom h fill) (hg : g.BuiltFrom h fill) : f = g := by
  have hlength : f.header.length = g.header.length :=
    Int32.toInt_inj.mp (hf.length_eq.trans hg.length_eq.symm)
  have hheader : f.header = g.header := by rw [hf.others_eq, hg.others_eq, hlength]
  have hbody : f.body = g.body := hf.body_eq.trans hg.body_eq.symm
  obtain ⟨_, _⟩ := f
  obtain ⟨_, _⟩ := g
  rw [mk.injEq]
  exact ⟨hheader, hbody⟩

/-- The raised header, with as much of the buffer as it announces. -/
theorem builtFrom_roundUp (h : Header) (fill : Bytes) :
    BuiltFrom ⟨h.roundUp, fill.take h.roundUp.bodyLength⟩ h fill where
  length_eq := h.toInt_roundUp
  others_eq := h.roundUp_eq
  body_eq := by
    have hbody := h.bodyLength_roundUp
    have htaken : h.roundUp.bodyLength = (max 16 h.length.toInt - 16).toNat := by omega
    exact congrArg fill.take htaken

/-- A frame is built exactly if the buffer holds its body, and it is the one from header and buffer. -/
theorem build?_iff :
    build? h fill = some f ↔ max 16 h.length.toInt - 16 ≤ fill.length ∧ f.BuiltFrom h fill := by
  have hbody := h.bodyLength_roundUp
  rw [build?_eq_some_iff]
  constructor
  · rintro ⟨henough, rfl⟩
    exact ⟨by omega, builtFrom_roundUp h fill⟩
  · rintro ⟨henough, hf⟩
    exact ⟨by omega, hf.unique (builtFrom_roundUp h fill)⟩

theorem build?_ne_none_iff : build? h fill ≠ none ↔ max 16 h.length.toInt - 16 ≤ fill.length := by
  constructor
  · intro hne
    obtain ⟨f, hf⟩ := Option.ne_none_iff_exists'.mp hne
    exact (build?_iff.mp hf).1
  · intro henough
    exact Option.ne_none_iff_exists'.mpr ⟨_, build?_iff.mpr ⟨henough, builtFrom_roundUp h fill⟩⟩

/-- **Reading and writing are inverse to each other.** A header is read back whatever follows it; every
string of sixteen bytes or more holds one, which is written as its first sixteen bytes; and a frame is built
exactly if the buffer holds its body, is as long as it says, and its header is read back. -/
theorem codec_exact (h : Header) (rest b fill : Bytes) :
    Header.decode? (h.encode ++ rest) = some h ∧
    (Header.decode? b = none ↔ b.length < Header.size) ∧
    (∀ k, Header.decode? b = some k → k.encode = b.take Header.size) ∧
    (build? h fill ≠ none ↔ max 16 h.length.toInt - 16 ≤ fill.length) ∧
    ∀ f, build? h fill = some f →
      f.BuiltFrom h fill ∧ (f.encode.length : Int) = f.header.length.toInt ∧
        Header.decode? f.encode = some f.header := by
  refine ⟨Header.decode?_encode_append h rest, Header.decode?_eq_none_iff,
    fun k hk => (Header.encode_of_decode? hk).2, build?_ne_none_iff, fun f hf => ?_⟩
  obtain ⟨-, hlength⟩ := build?_eq_some hf
  refine ⟨(build?_iff.mp hf).2, ?_, Header.decode?_encode_append f.header f.body⟩
  rw [length_encode, hlength]

/-- Bytes that are all set hold a header with a negative length, and a frame built from it has none. -/
theorem codec_exact_negative :
    Header.decode? (List.replicate 17 255) = some ⟨-1, 4294967295, -1, 4294967295⟩ ∧
      Header.encode ⟨-1, 4294967295, -1, 4294967295⟩ = List.replicate 16 255 ∧
      build? ⟨-1, 4294967295, -1, 4294967295⟩ [] = some ⟨⟨16, 4294967295, -1, 4294967295⟩, []⟩ ∧
      Header.decode? (encode ⟨⟨16, 4294967295, -1, 4294967295⟩, []⟩) =
        some ⟨16, 4294967295, -1, 4294967295⟩ := by
  have hread : Header.decode? (List.replicate 17 255) = some ⟨-1, 4294967295, -1, 4294967295⟩ := by decide
  have hbuilt : build? ⟨-1, 4294967295, -1, 4294967295⟩ [] =
      some ⟨⟨16, 4294967295, -1, 4294967295⟩, []⟩ := by decide
  obtain ⟨-, -, hwritten, -, hframe⟩ :=
    codec_exact ⟨-1, 4294967295, -1, 4294967295⟩ [] (List.replicate 17 255) []
  exact ⟨hread, hwritten _ hread, hbuilt, (hframe _ hbuilt).2.2⟩

end EchoLoad.Frame
