import EchoLoad.Checked
import EchoLoad.Fault
import EchoLoad.Message.Frame

/-!
# The message in progress

A connection delivers its bytes in chunks of any size: one chunk may end inside a header, or hold the
tail of one message and several more. `Assembly` holds what has arrived of the message in progress.
One count says how far that has come, first through the header and then through the body; `gather?`
takes a chunk in rounds, each of which ends the chunk or a message.

A round takes counts from each other and writes at places in the header's sixteen bytes, and would end
the program at a place that does not exist. `round?_follows` says that on a message that hangs together
(`Sound`) no round does, and what comes of the bytes:

> a round turns `held ++ data` into an encoded frame and the rest of the chunk, or holds all of it, or
> stops at a header whose length is out of bounds.
-/

namespace EchoLoad.Framing

open Checked

/-- Why the inbound side of a connection ended. -/
inductive FrameError
  /-- the stream ended, or the peer reset the connection -/
  | peerClosed
  /-- a header announced a length below sixteen or above the limit -/
  | invalidLength (length : Int32) (limit : Nat)
  /-- a read failed in some other way -/
  | readFailed (error : SystemError)
deriving DecidableEq, Repr

/-- The text of the error. -/
def FrameError.message : FrameError → String
  | peerClosed => "connection closed by peer"
  | invalidLength length limit =>
    "invalid message length " ++ toString length.toInt ++ " (max " ++ toString limit ++ ")"
  | readFailed e => "read failed: " ++ e.text

/-- What has arrived of the message in progress. -/
structure Assembly where
  /-- bytes of the message that have arrived, its header included -/
  received : Nat
  /-- the places of the header's bytes, filled from the front -/
  headerBytes : Bytes
  /-- the header, once it is complete and admitted -/
  header : Option Header
  /-- the bytes of the body -/
  body : Array UInt8
deriving DecidableEq, Repr

/-- How a round of taking bytes from a chunk ends. -/
inductive Round
  /-- the chunk is used up inside the message -/
  | short (s : Assembly)
  /-- the message is complete, and `rest` of the chunk is left -/
  | complete (s : Assembly) (f : Frame) (rest : Bytes)
  /-- the header announces a length out of bounds -/
  | refused (s : Assembly) (h : Header)

/-- What came of a chunk. -/
structure Gathered where
  assembly : Assembly
  frames : List Frame
  failure : Option FrameError

/-- The result of taking a chunk: all of it was consumed, unless a header was refused. -/
def Gathered.result (g : Gathered) (chunk : Bytes) : Except FrameError Nat :=
  match g.failure with
  | none => .ok chunk.length
  | some e => .error e

/-- Bytes that start with a header of a length out of bounds. -/
def Blocked (limit : Nat) (b : Bytes) : Prop :=
  ∃ h, Header.decode? b = some h ∧ h.isAdmitted limit = false

namespace Assembly

/-- Nothing has arrived. -/
def new : Assembly := ⟨0, List.replicate Header.size 0, none, #[]⟩

/-- Take what the header lacks from a chunk, and give the rest of the chunk. -/
def takeHeader? (s : Assembly) (data : Bytes) : Option (Assembly × Bytes) := do
  let room ← minus? Header.size s.received
  let part := data.take room
  let headerBytes ← overwrite? s.headerBytes s.received part
  some ({ s with received := s.received + part.length, headerBytes := headerBytes }, data.drop room)

/-- Take what the body lacks. -/
def takeBody? (s : Assembly) (h : Header) (data : Bytes) : Option Round := do
  let needed ← minus? h.announced s.received
  let part := data.take needed
  let body := s.body ++ part
  if part.length < needed then
    some (.short { s with received := s.received + part.length, body := body })
  else
    some (.complete { s with received := 0, header := none, body := #[] } ⟨h, body.toList⟩
      (data.drop needed))

/-- One round: complete the header if that is not done, then the body. -/
def round? (limit : Nat) (s : Assembly) (data : Bytes) : Option Round :=
  match s.header with
  | some h => s.takeBody? h data
  | none => do
    let (s, rest) ← s.takeHeader? data
    if s.received < Header.size then some (.short s)
    else
      let h := (Header.decode? s.headerBytes).getD default
      if h.isAdmitted limit then ({ s with header := some h } : Assembly).takeBody? h rest
      else some (.refused s h)

/-- Nothing has arrived of the message. -/
def IsFresh (s : Assembly) : Prop := s.received = 0 ∧ s.header = none

instance (s : Assembly) : Decidable s.IsFresh := inferInstanceAs (Decidable (_ ∧ _))

/-- What completes a message is a rest of the chunk, and the next message starts afresh. -/
theorem takeBody?_complete {s s' : Assembly} {h : Header} {data rest : Bytes} {f : Frame}
    (hr : s.takeBody? h data = some (.complete s' f rest)) :
    s'.IsFresh ∧ rest.length ≤ data.length := by
  unfold takeBody? at hr
  obtain ⟨needed, -, hr⟩ := Option.bind_eq_some_iff.mp hr
  dsimp only at hr
  split at hr
  next => simp at hr
  next =>
    simp only [Option.some.injEq, Round.complete.injEq] at hr
    obtain ⟨rfl, -, rfl⟩ := hr
    refine ⟨⟨rfl, rfl⟩, ?_⟩
    rw [List.length_drop]
    omega

/-- A round that completes a message leaves less of the chunk than there was, if the message began in
it. -/
theorem round?_complete {limit : Nat} {s s' : Assembly} {data rest : Bytes} {f : Frame}
    (hr : s.round? limit data = some (.complete s' f rest)) :
    s'.IsFresh ∧ rest.length ≤ data.length ∧
      (s.IsFresh → data ≠ [] → rest.length < data.length) := by
  unfold round? at hr
  split at hr
  next h hheader =>
    obtain ⟨hfresh, hle⟩ := takeBody?_complete hr
    refine ⟨hfresh, hle, fun hs => ?_⟩
    rw [hs.2] at hheader
    exact absurd hheader (by simp)
  next =>
    obtain ⟨⟨s₁, rest₁⟩, htake, hr⟩ := Option.bind_eq_some_iff.mp hr
    unfold takeHeader? at htake
    obtain ⟨room, hroom, htake⟩ := Option.bind_eq_some_iff.mp htake
    obtain ⟨headerBytes, -, htake⟩ := Option.bind_eq_some_iff.mp htake
    simp only [Option.some.injEq, Prod.mk.injEq] at htake
    obtain ⟨-, rfl⟩ := htake
    have hdrop : (data.drop room).length = data.length - room := List.length_drop
    dsimp only at hr
    split at hr
    next => simp at hr
    next =>
      split at hr
      next =>
        obtain ⟨hfresh, hle⟩ := takeBody?_complete hr
        refine ⟨hfresh, by omega, fun hs hdata => ?_⟩
        have hpos := List.length_pos_iff.mpr hdata
        rw [hs.1, minus?_of_le (Nat.zero_le _), Option.some.injEq] at hroom
        have : room = 16 := hroom.symm
        omega
      next => simp at hr

/-- Take a chunk: rounds until it is used up or a header is refused. -/
def gather? (limit : Nat) (s : Assembly) (data : Bytes) : Option Gathered :=
  if _hdata : data = [] then some ⟨s, [], none⟩
  else
    match _hr : s.round? limit data with
    | none => none
    | some (.short next) => some ⟨next, [], none⟩
    | some (.refused next h) => some ⟨next, [], some (.invalidLength h.length limit)⟩
    | some (.complete next f rest) =>
      (gather? limit next rest).map fun g => { g with frames := f :: g.frames }
termination_by (data.length, if s.IsFresh then 0 else 1)
decreasing_by
  obtain ⟨hfresh, hle, hlt⟩ := round?_complete _hr
  rw [if_pos hfresh]
  by_cases hs : s.IsFresh
  · exact Prod.Lex.left _ _ (hlt hs _hdata)
  · rw [if_neg hs]
    rcases Nat.lt_or_eq_of_le hle with h | h
    · exact Prod.Lex.left _ _ h
    · rw [h]
      exact Prod.Lex.right _ Nat.zero_lt_one

/-- The bytes of the message that have arrived: those of the header, then those of the body. -/
def held (s : Assembly) : Bytes := s.headerBytes.take (min s.received Header.size) ++ s.body.toList

/-- What has arrived hangs together: it ends inside the header, or inside the body of an admitted
message, or at the end of a refused header. -/
inductive Sound (limit : Nat) : Assembly → Prop
  | inHeader {received : Nat} {headerBytes : Bytes} (width : headerBytes.length = Header.size)
      (short : received < Header.size) : Sound limit ⟨received, headerBytes, none, #[]⟩
  | inBody {headerBytes : Bytes} {h : Header} {body : Array UInt8}
      (width : headerBytes.length = Header.size) (decoded : Header.decode? headerBytes = some h)
      (admitted : h.isAdmitted limit = true) (short : Header.size + body.size < h.announced) :
      Sound limit ⟨Header.size + body.size, headerBytes, some h, body⟩
  | atRefused {headerBytes : Bytes} {h : Header} (width : headerBytes.length = Header.size)
      (decoded : Header.decode? headerBytes = some h) (refused : h.isAdmitted limit = false) :
      Sound limit ⟨Header.size, headerBytes, none, #[]⟩

theorem length_held {limit : Nat} {s : Assembly} (hs : s.Sound limit) :
    s.held.length = s.received := by
  cases hs with
  | inHeader width short => simp [held, width]; omega
  | inBody width => simp [held, width]
  | atRefused width => simp [held, width]

theorem sound_new (limit : Nat) : Sound limit new :=
  .inHeader List.length_replicate (by decide)

@[simp] theorem held_new : held new = [] := rfl

/-- An empty string is not blocked. -/
theorem not_blocked_of_lt {limit : Nat} {b : Bytes} (h : b.length < Header.size) :
    ¬ Blocked limit b := by
  rintro ⟨x, hx, -⟩
  rw [Header.decode?_eq_none_iff.mpr h] at hx
  exact absurd hx (by simp)

end Assembly

/-- A round accounts for the bytes that were there before it, those held and those of the chunk. -/
def Round.Follows (limit : Nat) (before : Bytes) : Round → Prop
  | .short s => s.Sound limit ∧ before = s.held ∧ ¬ Blocked limit s.held
  | .complete s f rest =>
    s.Sound limit ∧ s.held = [] ∧ f.Fits limit ∧ before = f.encode ++ rest
  | .refused s h =>
    s.Sound limit ∧ Header.decode? s.held = some h ∧ h.isAdmitted limit = false ∧
      ∃ lost, before = s.held ++ lost

namespace Assembly

private theorem size_appendList (a : Array UInt8) (l : Bytes) : (a ++ l).size = a.size + l.length := by
  rw [← Array.length_toList, Array.toList_appendList, List.length_append, Array.length_toList]

/-- The body takes what it lacks, once the header is admitted. It may lack nothing. -/
theorem takeBody?_follows {limit : Nat} {headerBytes : Bytes} {h : Header} {body : Array UInt8}
    (width : headerBytes.length = Header.size) (decoded : Header.decode? headerBytes = some h)
    (admitted : h.isAdmitted limit = true) (short : Header.size + body.size ≤ h.announced)
    (data : Bytes) :
    ∃ r, takeBody? ⟨Header.size + body.size, headerBytes, some h, body⟩ h data = some r ∧
      r.Follows limit (headerBytes ++ body.toList ++ data) := by
  have henc : h.encode = headerBytes := by
    rw [(Header.encode_of_decode? decoded).2, List.take_of_length_le (by omega)]
  have hann := Header.announced_of_isAdmitted admitted
  obtain ⟨-, hlimit⟩ := Header.isAdmitted_iff.mp admitted
  unfold takeBody?
  rw [minus?_of_le short]
  simp only [Option.bind_eq_bind, Option.bind_some]
  by_cases hlt : (data.take (h.announced - (Header.size + body.size))).length <
      h.announced - (Header.size + body.size)
  · rw [if_pos hlt]
    have hpart : data.take (h.announced - (Header.size + body.size)) = data := by
      rw [List.length_take] at hlt
      exact List.take_of_length_le (by omega)
    rw [hpart] at hlt ⊢
    have hsize : Header.size + body.size + data.length = Header.size + (body ++ data).size := by
      rw [size_appendList]
      omega
    have hheld : held ⟨Header.size + (body ++ data).size, headerBytes, some h, body ++ data⟩ =
        headerBytes ++ body.toList ++ data := by
      simp [held, ← width]
    refine ⟨_, rfl, ?_⟩
    show Round.Follows limit _ (.short ⟨Header.size + body.size + data.length, _, _, _⟩)
    rw [hsize]
    refine ⟨.inBody width decoded admitted (by omega), hheld.symm, ?_⟩
    rintro ⟨x, hx, hrefused⟩
    rw [hheld, List.append_assoc, Header.decode?_append decoded, Option.some.injEq] at hx
    rw [← hx, admitted] at hrefused
    exact absurd hrefused (by simp)
  · rw [if_neg hlt]
    have hneeded : (data.take (h.announced - (Header.size + body.size))).length =
        h.announced - (Header.size + body.size) := by
      rw [List.length_take] at hlt ⊢
      omega
    refine ⟨_, rfl, .inHeader width (by decide), by simp [held], ⟨?_, ?_⟩, ?_⟩
    · simp only [Frame.length, Array.length_toList, size_appendList, hneeded]
      omega
    · simp only [Frame.length, Array.length_toList, size_appendList, hneeded]
      omega
    · rw [Frame.encode, henc, Array.toList_appendList]
      simp only [List.append_assoc, List.take_append_drop]

/-- The header takes what it lacks, and never more: it fills up, or the chunk is used up. -/
theorem takeHeader?_eq {received : Nat} {headerBytes : Bytes} {body : Array UInt8}
    (width : headerBytes.length = Header.size) (h : received ≤ Header.size) (data : Bytes) :
    takeHeader? ⟨received, headerBytes, none, body⟩ data =
      some (⟨received + (data.take (Header.size - received)).length,
        headerBytes.take received ++ (data.take (Header.size - received) ++
          headerBytes.drop (received + (data.take (Header.size - received)).length)), none, body⟩,
        data.drop (Header.size - received)) := by
  have hfits : received + (data.take (Header.size - received)).length ≤ headerBytes.length := by
    rw [List.length_take]
    omega
  unfold takeHeader?
  rw [minus?_of_le h]
  simp only [Option.bind_eq_bind, Option.bind_some, overwrite?_of_le hfits]

/-- The sixteen places after a part of a header was written at the first free one. -/
private theorem length_filled {headerBytes : Bytes} {received : Nat}
    (width : headerBytes.length = Header.size) (h : received ≤ Header.size) (data : Bytes) :
    (headerBytes.take received ++ (data.take (Header.size - received) ++
      headerBytes.drop (received + (data.take (Header.size - received)).length))).length =
      Header.size := by
  simp only [List.length_append, List.length_take, List.length_drop]
  omega

/-- A round that finds no header yet: `received` bytes of it are there, perhaps all of one that was
refused. -/
theorem round?_header {limit received : Nat} {headerBytes : Bytes}
    (width : headerBytes.length = Header.size) (h : received ≤ Header.size) (data : Bytes) :
    ∃ r, round? limit ⟨received, headerBytes, none, #[]⟩ data = some r ∧
      r.Follows limit (headerBytes.take received ++ data) := by
  have hfilled := length_filled width h data
  generalize hpart : data.take (Header.size - received) = part at hfilled
  generalize hplaces : headerBytes.take received ++
    (part ++ headerBytes.drop (received + part.length)) = places at hfilled
  have hround : round? limit ⟨received, headerBytes, none, #[]⟩ data =
      if received + part.length < Header.size then
        some (.short ⟨received + part.length, places, none, #[]⟩)
      else if ((Header.decode? places).getD default).isAdmitted limit then
        takeBody? ⟨received + part.length, places, some ((Header.decode? places).getD default), #[]⟩
          ((Header.decode? places).getD default) (data.drop (Header.size - received))
      else
        some (.refused ⟨received + part.length, places, none, #[]⟩
          ((Header.decode? places).getD default)) := by
    simp only [round?, takeHeader?_eq width h, hpart, hplaces, Option.bind_eq_bind,
      Option.bind_some]
  have hlen : part.length = min (Header.size - received) data.length := by
    rw [← hpart, List.length_take]
  have hfront : places.take (received + part.length) = headerBytes.take received ++ part := by
    rw [← hplaces, ← List.append_assoc, List.take_left']
    rw [List.length_append, List.length_take]
    omega
  rw [hround]
  by_cases hlt : received + part.length < Header.size
  · -- the chunk ends inside the header
    rw [if_pos hlt]
    have hall : part = data := by
      rw [← hpart]
      exact List.take_of_length_le (by omega)
    have hheld : held ⟨received + part.length, places, none, #[]⟩ =
        headerBytes.take received ++ data := by
      rw [held, Nat.min_eq_left (Nat.le_of_lt hlt), hfront, hall, List.append_nil]
    have hsound : Sound limit ⟨received + part.length, places, none, #[]⟩ := .inHeader hfilled hlt
    refine ⟨_, rfl, hsound, hheld.symm, not_blocked_of_lt ?_⟩
    rw [length_held hsound]
    exact hlt
  · -- the header is complete
    rw [if_neg hlt]
    have hfull : received + part.length = Header.size := by omega
    have hplaces' : places = headerBytes.take received ++ part := by
      rw [← hfront, hfull, List.take_of_length_le (by omega)]
    have hbytes : headerBytes.take received ++ data =
        places ++ data.drop (Header.size - received) := by
      rw [hplaces', ← hpart, List.append_assoc, List.take_append_drop]
    obtain ⟨x, hx⟩ : ∃ x, Header.decode? places = some x := by
      rw [← Option.isSome_iff_exists, Option.isSome_iff_ne_none, ne_eq,
        Header.decode?_eq_none_iff]
      omega
    rw [hfull, hbytes, hx, Option.getD_some]
    by_cases hadm : x.isAdmitted limit = true
    · rw [if_pos hadm]
      have h16 : Header.size + (#[] : Array UInt8).size ≤ x.announced := by
        have hann := Header.announced_of_isAdmitted hadm
        have hmin := (Header.isAdmitted_iff.mp hadm).1
        simp only [Header.size, List.size_toArray, List.length_nil]
        omega
      have hbody := takeBody?_follows hfilled hx hadm h16 (data.drop (Header.size - received))
      rwa [List.append_nil] at hbody
    · rw [if_neg hadm]
      have hrefused : x.isAdmitted limit = false := Bool.not_eq_true _ ▸ hadm
      have hheld : held ⟨Header.size, places, none, #[]⟩ = places := by
        simp [held, ← hfilled]
      refine ⟨_, rfl, .atRefused hfilled hx hrefused, ?_, hrefused,
        data.drop (Header.size - received), ?_⟩
      · rw [hheld]
        exact hx
      · rw [hheld]

/-- **What a round does.** On a message that hangs together no round meets a place that does not exist,
and the bytes before it are those it delivers, holds and leaves. -/
theorem round?_follows {limit : Nat} {s : Assembly} (hs : s.Sound limit) (data : Bytes) :
    ∃ r, s.round? limit data = some r ∧ r.Follows limit (s.held ++ data) := by
  cases hs with
  | inHeader width short =>
    have hle := Nat.le_of_lt short
    simpa only [held, Nat.min_eq_left hle, List.append_nil] using round?_header width hle data
  | inBody width decoded admitted short =>
    have hbody := takeBody?_follows width decoded admitted (Nat.le_of_lt short) data
    simpa [held, ← width, round?] using hbody
  | atRefused width =>
    simpa only [held, Nat.min_self, List.append_nil] using round?_header width (Nat.le_refl _) data

end Assembly

/-- What comes of a chunk `data` accounts for its bytes and for those held before it: they are the
frames in order and then the bytes held, and after a refused header those that are lost. -/
inductive Gathered.Follows (limit : Nat) (held data : Bytes) : Gathered → Prop
  | whole {s : Assembly} {frames : List Frame} (sound : s.Sound limit)
      (fits : ∀ f ∈ frames, f.Fits limit)
      (bytes : held ++ data = frames.flatMap Frame.encode ++ s.held)
      (opened : ¬ Blocked limit held ∨ data ≠ [] → ¬ Blocked limit s.held) :
      Follows limit held data ⟨s, frames, none⟩
  | failed {s : Assembly} {frames : List Frame} {h : Header} (lost : Bytes) (sound : s.Sound limit)
      (fits : ∀ f ∈ frames, f.Fits limit)
      (bytes : held ++ data = frames.flatMap Frame.encode ++ (s.held ++ lost))
      (decoded : Header.decode? s.held = some h) (refused : h.isAdmitted limit = false) :
      Follows limit held data ⟨s, frames, some (.invalidLength h.length limit)⟩

/-- A frame in front of what follows. -/
theorem Gathered.Follows.cons {limit : Nat} {held data rest : Bytes} {f : Frame} {g : Gathered}
    (hf : f.Fits limit) (hbytes : held ++ data = f.encode ++ rest)
    (hg : g.Follows limit [] rest) :
    Gathered.Follows limit held data { g with frames := f :: g.frames } := by
  cases hg with
  | whole sound fits bytes opened =>
    refine .whole sound (List.forall_mem_cons.mpr ⟨hf, fits⟩) ?_ fun _ => ?_
    · rw [hbytes, List.flatMap_cons, List.append_assoc, ← bytes, List.nil_append]
    · exact opened (.inl (Assembly.not_blocked_of_lt (by decide)))
  | failed lost sound fits bytes decoded refused =>
    refine .failed lost sound (List.forall_mem_cons.mpr ⟨hf, fits⟩) ?_ decoded refused
    rw [hbytes, List.flatMap_cons, List.append_assoc, ← bytes, List.nil_append]

theorem Gathered.Follows.sound {limit : Nat} {held data : Bytes} {g : Gathered}
    (hg : g.Follows limit held data) : g.assembly.Sound limit := by
  cases hg with
  | whole sound => exact sound
  | failed lost sound => exact sound

namespace Assembly

/-- **What a chunk does.** On a message that hangs together taking a chunk never meets a place that
does not exist, and all bytes are accounted for. -/
theorem gather?_follows {limit : Nat} {s : Assembly} (hs : s.Sound limit) (data : Bytes) :
    ∃ g, s.gather? limit data = some g ∧ g.Follows limit s.held data := by
  fun_induction gather? limit s data with
  | case1 s =>
    refine ⟨_, rfl, .whole hs (by simp) ?_ ?_⟩
    · rw [List.append_nil]
      rfl
    · rintro (hopen | hne)
      · exact hopen
      · exact absurd rfl hne
  | case2 s data hdata hr =>
    obtain ⟨r, hr', -⟩ := round?_follows hs data
    rw [hr] at hr'
    exact absurd hr' (by simp)
  | case3 s data hdata next hr =>
    obtain ⟨r, hr', hfollows⟩ := round?_follows hs data
    obtain rfl : Round.short next = r := Option.some.inj (hr.symm.trans hr')
    obtain ⟨hsound, hbytes, hopen⟩ := hfollows
    exact ⟨_, rfl, .whole hsound (by simp) hbytes fun _ => hopen⟩
  | case4 s data hdata next h hr =>
    obtain ⟨r, hr', hfollows⟩ := round?_follows hs data
    obtain rfl : Round.refused next h = r := Option.some.inj (hr.symm.trans hr')
    obtain ⟨hsound, hdecoded, hrefused, lost, hbytes⟩ := hfollows
    exact ⟨_, rfl, .failed lost hsound (by simp) hbytes hdecoded hrefused⟩
  | case5 s data hdata next f rest hr ih =>
    obtain ⟨r, hr', hfollows⟩ := round?_follows hs data
    obtain rfl : Round.complete next f rest = r := Option.some.inj (hr.symm.trans hr')
    obtain ⟨hsound, hheld, hfits, hbytes⟩ := hfollows
    obtain ⟨g, hg, hgfollows⟩ := ih hsound
    rw [hheld] at hgfollows
    exact ⟨_, by rw [hg]; rfl, hgfollows.cons hfits hbytes⟩

end Assembly

end EchoLoad.Framing
