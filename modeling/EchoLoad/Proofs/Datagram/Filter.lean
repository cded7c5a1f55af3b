import EchoLoad.Datagram.Socket

/-!
# What a socket carries, and what it drops

A message that fits goes out as one datagram and is read back from it; whoever waits for messages of a
kind gets the first datagram of that kind, among all that may come to a socket:

> `emit_await`: a message of at most three pieces and 65491 bytes is one datagram of at most 65507 bytes,
> from which a wait of its kind gets the message, its sender and the number of its call; any other
> message is refused, and nothing leaves. A wait drops all datagrams before the first that has sixteen
> bytes and begins with the byte of its kind, and none after it.

Whether a datagram is of a kind (`IsOf`) is said of the datagram, not of the buffer, which may be too
short for those that are dropped (`decode?_eq_none`). One arrival that is passed over changes the buffer
and nothing else (`await_passedOver`); the run of them follows by induction (`await_front`).
-/

namespace EchoLoad.Datagram

/-- A datagram of a kind: there is a whole preamble, and it begins with the byte of the kind. -/
structure IsOf (kind : Kind) (datagram : Bytes) : Prop where
  whole : 16 ≤ datagram.length
  first : datagram.head? = some kind.code

instance (kind : Kind) (datagram : Bytes) : Decidable (IsOf kind datagram) :=
  decidable_of_iff (16 ≤ datagram.length ∧ datagram.head? = some kind.code)
    ⟨fun h => ⟨h.1, h.2⟩, fun h => ⟨h.whole, h.first⟩⟩

/-- The number in the preamble of a datagram. -/
def callOf (datagram : Bytes) : UInt64 := UInt64.ofNat (Bytes.value ((datagram.drop 8).take 8))

/-! ## One datagram -/

section Decode

variable {α : Type} {kind : Kind} {room : Nat} {buffer datagram : Bytes}

/-- The number is that of the eight bytes, whatever they are. -/
theorem toNat_callOf (datagram : Bytes) :
    (callOf datagram).toNat = Bytes.value ((datagram.drop 8).take 8) := by
  rw [callOf, UInt64.toNat_ofNat']
  apply Nat.mod_eq_of_lt
  have hlength : ((datagram.drop 8).take 8).length ≤ 8 := List.length_take_le _ _
  calc Bytes.value ((datagram.drop 8).take 8)
      < Nat.pow 256 ((datagram.drop 8).take 8).length := Bytes.value_lt _
    _ ≤ Nat.pow 256 8 := Nat.pow_le_pow_right (by decide) hlength

theorem decode?_of_isOf (h : IsOf kind datagram) (hroom : datagram.length ≤ room) (peer : α) :
    decode? kind room peer datagram = some ⟨datagram.drop 16, peer, callOf datagram⟩ := by
  have hwhole : ¬ datagram.length < preambleSize := Nat.not_lt.mpr h.whole
  unfold decode?
  simp only [List.take_of_length_le hroom, if_neg hwhole, if_pos h.first]
  rfl

/-- A datagram of another kind is dropped, and so is a runt, however much of it there was room for. -/
theorem decode?_eq_none (h : ¬ IsOf kind datagram) (room : Nat) (peer : α) :
    decode? kind room peer datagram = none := by
  unfold decode?
  dsimp only
  by_cases hrunt : (datagram.take room).length < preambleSize
  · rw [if_pos hrunt]
  · have h16 : preambleSize = 16 := rfl
    rw [List.length_take] at hrunt
    have hhead : (datagram.take room).head? = datagram.head? := by
      rw [List.head?_take, if_neg (by omega)]
    have hother : ¬ (datagram.take room).head? = some kind.code := by
      intro hfirst
      exact h ⟨by omega, hhead ▸ hfirst⟩
    rw [if_neg (by rw [List.length_take]; exact hrunt), if_neg hother]

/-- The message is what is left of a datagram without its preamble. -/
theorem receiveInto?_length {peer : α} {landed : Landed α}
    (h : receiveInto? kind buffer peer datagram = some landed) :
    landed.length = min datagram.length buffer.length - 16 := by
  unfold receiveInto? at h
  dsimp only at h
  split at h
  next => cases h
  next =>
    split at h
    next =>
      cases h
      rfl
    next => cases h

/-- The bytes and the number of a datagram that was made are those it was made from. -/
theorem isOf_encode {call : UInt64} {pieces : List Bytes} (h : encode kind call pieces = .ok datagram) :
    IsOf kind datagram ∧ datagram.length = 16 + pieces.flatten.length ∧
      datagram.drop 16 = pieces.flatten ∧ callOf datagram = call := by
  obtain ⟨hfirst, hcontent⟩ := encode_eq_ok h
  obtain ⟨hmessage, -, hdatagram⟩ := encode_eq_ok_iff.mp h
  have hlength : datagram.length = 16 + pieces.flatten.length := by
    rw [hdatagram, List.length_append, length_preamble]
    rfl
  have hall : datagram.take datagramLimit = datagram := by
    have hlimit : messageLimit + 16 = datagramLimit := rfl
    exact List.take_of_length_le (by omega)
  unfold content at hcontent
  rw [hall] at hcontent
  obtain ⟨hcall, hrest⟩ := Prod.ext_iff.mp hcontent
  exact ⟨⟨by omega, hfirst⟩, hlength, hrest, hcall⟩

end Decode

/-! ## Waiting -/

/-- What a wait for messages of a kind passes over. -/
def Arrival.IsPassedOver {α : Type} (kind : Kind) : Arrival α → Prop
  | datagram _ bytes => ¬ IsOf kind bytes
  | fault e => kind.failure? e = none

instance {α : Type} (kind : Kind) (a : Arrival α) : Decidable (a.IsPassedOver kind) :=
  match a with
  | .datagram _ bytes => inferInstanceAs (Decidable (¬ IsOf kind bytes))
  | .fault e => inferInstanceAs (Decidable (kind.failure? e = none))

/-- What a wait comes to at a datagram of its kind. -/
structure Landed.Holds {α : Type} (landed : Landed α) (peer : α) (datagram : Bytes) : Prop where
  length : landed.length = datagram.length - 16
  message : landed.buffer.take landed.length = datagram.drop 16
  peer : landed.peer = peer
  call : landed.call = callOf datagram

section Await

variable {α : Type} {kind : Kind} (buffer : Bytes) (later : List (Arrival α))

/-- What is passed over leaves nothing but bytes in the buffer. -/
theorem await_passedOver {a : Arrival α} (h : a.IsPassedOver kind) :
    ∃ buffer', buffer'.length = buffer.length ∧
      await kind buffer (a :: later) = await kind buffer' later := by
  cases a with
  | fault e =>
    refine ⟨buffer, rfl, ?_⟩
    conv => lhs; unfold await
    rw [h]
  | datagram peer bytes =>
    refine ⟨land buffer bytes, length_land buffer bytes, ?_⟩
    have hnone : receiveInto? kind buffer peer bytes = none := by
      rw [← Option.map_eq_none_iff, receiveInto?_delivery]
      exact decode?_eq_none h _ _
    conv => lhs; unfold await
    rw [hnone]

theorem await_front {front : List (Arrival α)} (h : ∀ a ∈ front, a.IsPassedOver kind) :
    ∃ buffer', buffer'.length = buffer.length ∧
      await kind buffer (front ++ later) = await kind buffer' later := by
  induction front generalizing buffer with
  | nil => exact ⟨buffer, rfl, rfl⟩
  | cons a front ih =>
    obtain ⟨ha, hfront⟩ := List.forall_mem_cons.mp h
    obtain ⟨buffer', hlength, hfirst⟩ := await_passedOver buffer (front ++ later) ha
    obtain ⟨buffer'', hlength', hrest⟩ := ih buffer' hfront
    exact ⟨buffer'', hlength'.trans hlength, hfirst.trans hrest⟩

theorem await_isOf {datagram : Bytes} (h : IsOf kind datagram) (hroom : datagram.length ≤ buffer.length)
    (peer : α) :
    ∃ landed, await kind buffer (.datagram peer datagram :: later) = (some (.ok landed), later) ∧
      landed.Holds peer datagram := by
  have hdelivery := receiveInto?_delivery kind buffer peer datagram
  rw [decode?_of_isOf h hroom, Option.map_eq_some_iff] at hdelivery
  obtain ⟨landed, hlanded, hholds⟩ := hdelivery
  have hlength := receiveInto?_length hlanded
  rw [Nat.min_eq_left hroom] at hlength
  refine ⟨landed, ?_, hlength, congrArg Delivery.message hholds, congrArg Delivery.peer hholds,
    congrArg Delivery.call hholds⟩
  unfold await
  rw [hlanded]

end Await

/-! ## The law of a message -/

/-- A message that cannot be a datagram is refused before the system is asked. -/
theorem emit_refused (kind : Kind) (call : UInt64) {pieces : List Bytes}
    (answers : List (Option SystemError)) (h : 65491 < pieces.flatten.length ∨ 3 < pieces.length) :
    emit kind call pieces answers =
      ⟨[], .error (if 65491 < pieces.flatten.length then .tooLong pieces.flatten.length 65491
        else .system (.described .invalidInput "too many payload segments"))⟩ := by
  have hlimit : messageLimit = 65491 := rfl
  have hpieces : pieceLimit = 3 := rfl
  unfold emit encode
  rw [hlimit, hpieces]
  by_cases hlong : 65491 < pieces.flatten.length
  · simp only [if_pos hlong]
    rfl
  · have hmany : 3 < pieces.length := h.resolve_left hlong
    simp only [if_neg hlong, if_pos hmany]
    rfl

/-- **A message goes out as one datagram and comes back from it; a wait takes the first datagram of its
kind.** -/
theorem emit_await {α : Type} (kind : Kind) :
    (∀ (call : UInt64) (pieces : List Bytes) (answers : List (Option SystemError)),
      pieces.length ≤ 3 → pieces.flatten.length ≤ 65491 → refusal? answers = none →
      ∃ datagram, emit kind call pieces answers = ⟨[datagram], .ok ()⟩ ∧
        datagram.length ≤ 65507 ∧
        ∀ (buffer : Bytes) (peer : α) (later : List (Arrival α)), datagram.length ≤ buffer.length →
          ∃ landed,
            await kind buffer (.datagram peer datagram :: later) = (some (.ok landed), later) ∧
            landed.length = pieces.flatten.length ∧ landed.peer = peer ∧ landed.call = call ∧
            landed.buffer.take landed.length = pieces.flatten) ∧
      (∀ (call : UInt64) (pieces : List Bytes) (answers : List (Option SystemError)),
        65491 < pieces.flatten.length ∨ 3 < pieces.length →
        emit kind call pieces answers =
          ⟨[], .error (if 65491 < pieces.flatten.length then .tooLong pieces.flatten.length 65491
            else .system (.described .invalidInput "too many payload segments"))⟩) ∧
      ∀ (buffer : Bytes) (front : List (Arrival α)) (peer : α) (datagram : Bytes)
        (later : List (Arrival α)), (∀ a ∈ front, a.IsPassedOver kind) → IsOf kind datagram →
        datagram.length ≤ buffer.length →
        ∃ landed,
          await kind buffer (front ++ .datagram peer datagram :: later) =
            (some (.ok landed), later) ∧
          landed.length = datagram.length - 16 ∧ landed.peer = peer ∧
          landed.call.toNat = Bytes.value ((datagram.drop 8).take 8) ∧
          landed.buffer.take landed.length = datagram.drop 16 := by
  refine ⟨?_, fun call pieces answers => emit_refused kind call answers, ?_⟩
  · intro call pieces answers hpieces hmessage htaken
    have hmade : encode kind call pieces = .ok (preamble kind call ++ pieces.flatten) :=
      encode_eq_ok_iff.mpr ⟨hmessage, hpieces, rfl⟩
    obtain ⟨hkind, hlength, hrest, hcall⟩ := isOf_encode hmade
    refine ⟨preamble kind call ++ pieces.flatten, ?_, by omega, ?_⟩
    · unfold emit
      rw [hmade, htaken]
      rfl
    · intro buffer peer later hroom
      obtain ⟨landed, hawait, hholds⟩ := await_isOf buffer later hkind hroom peer
      refine ⟨landed, hawait, ?_, hholds.peer, hholds.call.trans hcall, hholds.message.trans hrest⟩
      rw [hholds.length]
      omega
  · intro buffer front peer datagram later hfront hkind hroom
    -- what was dropped has been in the buffer, which is as long as before
    obtain ⟨buffer', hlength, hpassed⟩ := await_front buffer (.datagram peer datagram :: later) hfront
    obtain ⟨landed, hawait, hholds⟩ := await_isOf buffer' later hkind (hlength ▸ hroom) peer
    refine ⟨landed, hpassed.trans hawait, hholds.length, hholds.peer, ?_, hholds.message⟩
    rw [hholds.call, toNat_callOf]

/-- A request in two pieces, for which the system is interrupted once; four pieces, which are too many;
and a wait for a request that finds a runt, a response and nothing at all before it. -/
theorem emit_await_between :
    (∃ datagram, emit .request 7 [[104], [105]] [some (.ofKind .interrupted)] = ⟨[datagram], .ok ()⟩) ∧
      emit .request 7 [[], [], [], []] [] =
        ⟨[], .error (.system (.described .invalidInput "too many payload segments"))⟩ ∧
      ∃ landed : Landed Nat,
        await .request (List.replicate 20 0)
          [.datagram 1 [1, 0], .datagram 2 (preamble .response 7), .fault (.ofKind .timedOut),
            .datagram 3 (preamble .request 7 ++ [104, 105]), .datagram 4 [1]] =
          (some (.ok landed), [.datagram 4 [1]]) ∧
        landed.length = 2 ∧ landed.peer = 3 ∧ landed.call.toNat = 7 ∧
        landed.buffer.take 2 = [104, 105] := by
  obtain ⟨hsent, hrefused, hawait⟩ := @emit_await Nat .request
  obtain ⟨datagram, hdatagram, -⟩ :=
    hsent 7 [[104], [105]] [some (.ofKind .interrupted)] (by decide) (by decide) rfl
  obtain ⟨landed, hlanded, hlength, hpeer, hcall, hmessage⟩ :=
    hawait (List.replicate 20 0)
      [.datagram 1 [1, 0], .datagram 2 (preamble .response 7), .fault (.ofKind .timedOut)] 3
      (preamble .request 7 ++ [104, 105]) [.datagram 4 [1]] (by decide) (by decide) (by decide)
  rw [hlength] at hmessage
  exact ⟨⟨datagram, hdatagram⟩, hrefused 7 [[], [], [], []] [] (.inr (by decide)),
    landed, hlanded, hlength, hpeer, hcall, hmessage⟩

end EchoLoad.Datagram
