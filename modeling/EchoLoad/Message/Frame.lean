import EchoLoad.Message.Header

/-!
# Frames

A frame is a header and the body that follows it. A request is built from a header and a buffer
that its body is cut from (`build?`); all requests of a client share one buffer of zeros.
-/

namespace EchoLoad

/-- A complete message. -/
structure Frame where
  header : Header
  body : Bytes
deriving DecidableEq, Repr, Inhabited

namespace Frame

/-- The bytes of a frame on the wire: its header, then its body. -/
def encode (f : Frame) : Bytes := f.header.encode ++ f.body

/-- Bytes of the encoded frame. -/
def length (f : Frame) : Nat := Header.size + f.body.length

/-- A frame whose body is the front of `fill`, with a length below sixteen raised to sixteen. There
is none if `fill` is too short for the announced length. -/
def build? (h : Header) (fill : Bytes) : Option Frame :=
  let header := h.roundUp
  let body := fill.take header.bodyLength
  if body.length < header.bodyLength then none else some ⟨header, body⟩

/-- The header says how long the frame is, and a connection with this limit takes it. -/
structure Fits (f : Frame) (limit : Nat) : Prop where
  announced : f.header.length.toInt = f.length
  within : f.length ≤ limit

instance (f : Frame) (limit : Nat) : Decidable (f.Fits limit) :=
  decidable_of_iff (f.header.length.toInt = f.length ∧ f.length ≤ limit)
    ⟨fun h => ⟨h.1, h.2⟩, fun h => ⟨h.announced, h.within⟩⟩

@[simp] theorem length_encode (f : Frame) : f.encode.length = f.length := by
  simp [encode, length]

/-- No encoded frame is empty. -/
theorem size_le_length (f : Frame) : Header.size ≤ f.length := Nat.le_add_right ..

/-- A frame is built as soon as the buffer holds its body. -/
theorem build?_eq_some_iff {h : Header} {fill : Bytes} {f : Frame} : build? h fill = some f ↔
    h.roundUp.bodyLength ≤ fill.length ∧ f = ⟨h.roundUp, fill.take h.roundUp.bodyLength⟩ := by
  unfold build?
  dsimp only
  rw [List.length_take]
  split
  next hshort => exact ⟨nofun, fun ⟨henough, _⟩ => by omega⟩
  next henough => exact ⟨fun hf => ⟨by omega, (Option.some.inj hf).symm⟩, fun ⟨_, hf⟩ => congrArg some hf.symm⟩

/-- A frame that is built announces its own length. -/
theorem build?_eq_some {h : Header} {fill : Bytes} {f : Frame} (hf : build? h fill = some f) :
    f.header = h.roundUp ∧ f.header.length.toInt = f.length := by
  obtain ⟨henough, rfl⟩ := build?_eq_some_iff.mp hf
  have hround := h.toInt_roundUp
  have hbody := h.bodyLength_roundUp
  refine ⟨rfl, ?_⟩
  show h.roundUp.length.toInt = ((16 + (fill.take h.roundUp.bodyLength).length : Nat) : Int)
  rw [List.length_take_of_le henough]
  omega

/-- Enough bytes for the announced length are enough for the body. -/
theorem build?_ne_none {h : Header} {fill : Bytes} (hfill : h.length.toInt ≤ fill.length) :
    build? h fill ≠ none := by
  have hbody := h.bodyLength_roundUp
  rw [build?_eq_some_iff.mpr ⟨by omega, rfl⟩]
  exact Option.some_ne_none _

theorem Fits.isAdmitted {f : Frame} {limit : Nat} (h : f.Fits limit) :
    f.header.isAdmitted limit = true := by
  have hsize : (16 : Nat) ≤ f.length := f.size_le_length
  have hwithin := h.within
  rw [Header.isAdmitted_iff, h.announced]
  omega

theorem Fits.announced_eq {f : Frame} {limit : Nat} (h : f.Fits limit) :
    f.header.announced = f.length := by
  have := Header.announced_of_isAdmitted h.isAdmitted
  rw [h.announced] at this
  omega

end Frame

end EchoLoad
