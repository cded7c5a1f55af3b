import EchoLoad.Bytes
import EchoLoad.Transport.Error
import EchoLoad.Transport.Limits

/-!
# Datagrams

The native transport carries a message in one datagram, behind a preamble of sixteen bytes:

    offset  size  field
         0     1  kind    1 for a request, 2 for a response
         1     7  zeros
         8     8  number of the call, little-endian

A response has the number of the request that it answers. `encode` makes a datagram and `receive?`
finds the next one of a kind among those that arrived, passing over all others.

A datagram is received at the front of a buffer, and its message is then moved over the preamble
(`receiveInto?`). What the buffer held before is of no account: `decode?` says what the buffer comes to
hold from its room alone (`receiveInto?_delivery`).
-/

namespace EchoLoad.Datagram

/-- What a datagram holds. -/
inductive Kind
  | request
  | response
deriving DecidableEq, Repr

/-- The first byte of a datagram. -/
def Kind.code : Kind → UInt8
  | request => 1
  | response => 2

/-- The longest message. -/
def messageLimit : Nat := datagramLimit - preambleSize

/-- Most pieces that a message may be given in. -/
def pieceLimit : Nat := 3

/-- The sixteen bytes in front of a message. -/
def preamble (kind : Kind) (call : UInt64) : Bytes :=
  kind.code :: (List.replicate 7 0 ++ Bytes.littleEndian 8 call.toNat)

/-- The datagram of a message given in pieces. The length is looked at before their number. -/
def encode (kind : Kind) (call : UInt64) (pieces : List Bytes) : Except TransportError Bytes :=
  let message := pieces.flatten
  if messageLimit < message.length then .error (.tooLong message.length messageLimit)
  else if pieceLimit < pieces.length then
    .error (.system (.described .invalidInput "too many payload segments"))
  else .ok (preamble kind call ++ message)

/-- A message that arrived: who sent it, and the number of its call. -/
structure Delivery (α : Type) where
  message : Bytes
  peer : α
  call : UInt64
deriving DecidableEq, Repr

/-- The message of a datagram, cut to the `room` there was for it, if it is of a kind. -/
def decode? (kind : Kind) (room : Nat) (peer : α) (datagram : Bytes) : Option (Delivery α) :=
  let got := datagram.take room
  if got.length < preambleSize then none
  else if got.head? = some kind.code then
    some ⟨got.drop preambleSize, peer, UInt64.ofNat (Bytes.value ((got.drop 8).take 8))⟩
  else none

/-- The next message of a kind among the datagrams that arrived, and those left after it. -/
def receive? (kind : Kind) (room : Nat) :
    List (α × Bytes) → Option (Delivery α) × List (α × Bytes)
  | [] => (none, [])
  | (peer, datagram) :: rest =>
    match decode? kind room peer datagram with
    | some d => (some d, rest)
    | none => receive? kind room rest

/-! ## Receiving in place -/

/-- A datagram at the front of a buffer, cut to what there is room for. -/
def land (buffer datagram : Bytes) : Bytes :=
  datagram.take buffer.length ++ buffer.drop datagram.length

/-- Move the bytes from `start` up to `stop` to the front. -/
def moveToFront (start stop : Nat) (buffer : Bytes) : Bytes :=
  (buffer.take stop).drop start ++ buffer.drop (stop - start)

/-- A message that was received at the front of a buffer. -/
structure Landed (α : Type) where
  buffer : Bytes
  length : Nat
  peer : α
  call : UInt64

def Landed.delivery (l : Landed α) : Delivery α := ⟨l.buffer.take l.length, l.peer, l.call⟩

/-- Receive a datagram into a buffer and move its message to the front, if it is of a kind. -/
def receiveInto? (kind : Kind) (buffer : Bytes) (peer : α) (datagram : Bytes) : Option (Landed α) :=
  let got := min datagram.length buffer.length
  let landed := land buffer datagram
  if got < preambleSize then none
  else if landed.head? = some kind.code then
    some
      { buffer := moveToFront preambleSize got landed
        length := got - preambleSize
        peer := peer
        call := UInt64.ofNat (Bytes.value ((landed.drop 8).take 8)) }
  else none

/-- **Receiving in place** gives the message of the datagram, whatever the buffer held before. -/
theorem receiveInto?_delivery (kind : Kind) (buffer : Bytes) (peer : α) (datagram : Bytes) :
    (receiveInto? kind buffer peer datagram).map Landed.delivery =
      decode? kind buffer.length peer datagram := by
  have hgot : (datagram.take buffer.length).length = min datagram.length buffer.length := by
    rw [List.length_take, Nat.min_comm]
  unfold receiveInto? decode?
  simp only [hgot]
  by_cases hrunt : min datagram.length buffer.length < preambleSize
  · rw [if_pos hrunt, if_pos hrunt]
    rfl
  · rw [if_neg hrunt, if_neg hrunt]
    have h16 : preambleSize = 16 := rfl
    have hcut : (land buffer datagram).take (min datagram.length buffer.length) =
        datagram.take buffer.length := by
      rw [← hgot, land, List.take_left]
    have hhead : (land buffer datagram).head? = (datagram.take buffer.length).head? := by
      rw [land]
      cases hfront : datagram.take buffer.length with
      | nil =>
        rw [hfront, List.length_nil] at hgot
        omega
      | cons first rest => rfl
    have hcall : ((land buffer datagram).drop 8).take 8 =
        ((datagram.take buffer.length).drop 8).take 8 := by
      rw [land, List.drop_append_of_le_length (by omega), List.take_append_of_le_length]
      rw [List.length_drop]
      omega
    rw [hhead, hcall]
    by_cases hkind : (datagram.take buffer.length).head? = some kind.code
    · rw [if_pos hkind, if_pos hkind, Option.map_some, Landed.delivery]
      have hmessage : (moveToFront preambleSize (min datagram.length buffer.length)
          (land buffer datagram)).take (min datagram.length buffer.length - preambleSize) =
            (datagram.take buffer.length).drop preambleSize := by
        rw [moveToFront, hcut, List.take_left']
        rw [List.length_drop, hgot]
      rw [hmessage]
    · rw [if_neg hkind, if_neg hkind]
      rfl

/-! ## What a datagram carries -/

/-- What a receiver with room for all datagrams makes of one, whatever its kind: the number of the call
and the message. -/
def content (datagram : Bytes) : UInt64 × Bytes :=
  let got := datagram.take datagramLimit
  (UInt64.ofNat (Bytes.value ((got.drop 8).take 8)), got.drop preambleSize)

theorem encode_eq_ok_iff {kind : Kind} {call : UInt64} {pieces : List Bytes} {datagram : Bytes} :
    encode kind call pieces = .ok datagram ↔
      pieces.flatten.length ≤ messageLimit ∧ pieces.length ≤ pieceLimit ∧
        datagram = preamble kind call ++ pieces.flatten := by
  unfold encode
  dsimp only
  by_cases hlong : messageLimit < pieces.flatten.length
  · rw [if_pos hlong]
    constructor
    · intro h
      cases h
    · rintro ⟨hmessage, -, -⟩
      omega
  · rw [if_neg hlong]
    by_cases hmany : pieceLimit < pieces.length
    · rw [if_pos hmany]
      constructor
      · intro h
        cases h
      · rintro ⟨-, hpieces, -⟩
        omega
    · rw [if_neg hmany, Except.ok.injEq]
      constructor
      · intro h
        exact ⟨by omega, by omega, h.symm⟩
      · rintro ⟨-, -, hdatagram⟩
        exact hdatagram.symm

@[simp] theorem length_preamble (kind : Kind) (call : UInt64) :
    (preamble kind call).length = preambleSize := by
  simp [preamble, preambleSize]

/-- A datagram carries what it was made from. -/
theorem encode_eq_ok {kind : Kind} {call : UInt64} {pieces : List Bytes} {datagram : Bytes}
    (h : encode kind call pieces = .ok datagram) :
    datagram.head? = some kind.code ∧ content datagram = (call, pieces.flatten) := by
  obtain ⟨hmessage, -, rfl⟩ := encode_eq_ok_iff.mp h
  refine ⟨rfl, ?_⟩
  have hall : (preamble kind call ++ pieces.flatten).take datagramLimit =
      preamble kind call ++ pieces.flatten := by
    apply List.take_of_length_le
    have hlimit : messageLimit = datagramLimit - preambleSize := rfl
    have hroom : preambleSize ≤ datagramLimit := by decide
    rw [List.length_append, length_preamble]
    omega
  have hnumber : ((preamble kind call ++ pieces.flatten).drop 8).take 8 =
      Bytes.littleEndian 8 call.toNat := by
    have hfront : preamble kind call ++ pieces.flatten =
        (kind.code :: List.replicate 7 0) ++ (Bytes.littleEndian 8 call.toNat ++ pieces.flatten) := by
      simp [preamble]
    rw [hfront, List.drop_left' (by simp), List.take_left' (Bytes.length_littleEndian 8 _)]
  have hcall : Bytes.value (Bytes.littleEndian 8 call.toNat) = call.toNat := by
    rw [Bytes.value_littleEndian]
    exact Nat.mod_eq_of_lt call.toNat_lt
  unfold content
  dsimp only
  rw [hall, hnumber, hcall, UInt64.ofNat_toNat, List.drop_left' (length_preamble kind call)]

/-- A receiver with room for all datagrams gets what a datagram of its kind carries. -/
theorem decode?_eq_some {kind : Kind} {peer : α} {datagram : Bytes} {d : Delivery α}
    (h : decode? kind datagramLimit peer datagram = some d) :
    datagram.head? = some kind.code ∧ d.peer = peer ∧ content datagram = (d.call, d.message) ∧
      d.message.length ≤ messageLimit := by
  unfold decode? at h
  dsimp only at h
  split at h
  next => cases h
  next =>
    split at h
    next hkind =>
      cases h
      refine ⟨?_, rfl, rfl, ?_⟩
      · rw [List.head?_take] at hkind
        exact hkind
      · have hlimit : messageLimit = datagramLimit - preambleSize := rfl
        rw [List.length_drop, List.length_take]
        omega
    next => cases h

theorem decode?_encode {kind : Kind} {call : UInt64} {pieces : List Bytes} {datagram : Bytes}
    (h : encode kind call pieces = .ok datagram) (peer : α) :
    decode? kind datagramLimit peer datagram = some ⟨pieces.flatten, peer, call⟩ := by
  obtain ⟨hkind, hcontent⟩ := encode_eq_ok h
  obtain ⟨-, -, rfl⟩ := encode_eq_ok_iff.mp h
  have hlong : ¬ ((preamble kind call ++ pieces.flatten).take datagramLimit).length < preambleSize := by
    have hroom : preambleSize ≤ datagramLimit := by decide
    rw [List.length_take, List.length_append, length_preamble]
    omega
  have hhead : ((preamble kind call ++ pieces.flatten).take datagramLimit).head? =
      some kind.code := rfl
  have hcall := congrArg Prod.fst hcontent
  have hmessage := congrArg Prod.snd hcontent
  unfold content at hcall hmessage
  dsimp only at hcall hmessage
  unfold decode?
  dsimp only
  rw [if_neg hlong, if_pos hhead, hcall, hmessage]

/-- What is received arrived, and what is left of it comes behind. -/
theorem receive?_eq {kind : Kind} {room : Nat} {arrived rest : List (α × Bytes)}
    {received : Option (Delivery α)} (h : receive? kind room arrived = (received, rest)) :
    match received with
    | none => rest = []
    | some d => ∃ front peer datagram, arrived = front ++ (peer, datagram) :: rest ∧
        decode? kind room peer datagram = some d := by
  induction arrived with
  | nil =>
    cases h
    rfl
  | cons first later ih =>
    obtain ⟨peer, datagram⟩ := first
    unfold receive? at h
    cases hfirst : decode? kind room peer datagram with
    | some d =>
      rw [hfirst] at h
      cases h
      exact ⟨[], peer, datagram, rfl, hfirst⟩
    | none =>
      rw [hfirst] at h
      have hlater := ih h
      cases received with
      | none => exact hlater
      | some d =>
        obtain ⟨front, peer', datagram', hsplit, hd⟩ := hlater
        exact ⟨(peer, datagram) :: front, peer', datagram', by rw [hsplit]; rfl, hd⟩

end EchoLoad.Datagram
