import EchoLoad.Bytes

/-!
# The message header

Every request and every response starts with sixteen bytes, four little-endian words:

    offset  size  field
         0     4  length      bytes of the whole message, this header included (signed)
         4     4  issueTime   low 32 bits of the sender's clock when the request was issued
         8     4  serverId    index of the server among those of the sender (signed)
        12     4  messageId   number of the request, counted on the sending node

A server returns the header as it came, which is how the sender learns the issue time again.
-/

namespace EchoLoad

/-- The header at the front of a message. -/
structure Header where
  length : Int32
  issueTime : UInt32
  serverId : Int32
  messageId : UInt32
deriving DecidableEq, Repr, Inhabited

namespace Header

/-- Bytes of an encoded header. -/
def size : Nat := 16

/-- The sixteen bytes of a header. -/
def encode (h : Header) : Bytes :=
  Bytes.littleEndian 4 h.length.toUInt32.toNat ++ Bytes.littleEndian 4 h.issueTime.toNat ++
    Bytes.littleEndian 4 h.serverId.toUInt32.toNat ++ Bytes.littleEndian 4 h.messageId.toNat

/-- The four-byte word at an offset. -/
def wordAt (b : Bytes) (offset : Nat) : UInt32 :=
  UInt32.ofNat (Bytes.value ((b.drop offset).take 4))

/-- The header in the first sixteen bytes; a shorter string holds none. -/
def decode? (b : Bytes) : Option Header :=
  if (b.take size).length < size then none
  else some
    { length := (wordAt b 0).toInt32
      issueTime := wordAt b 4
      serverId := (wordAt b 8).toInt32
      messageId := wordAt b 12 }

/-- The announced length as an unsigned 64-bit size: a negative length becomes a huge one. -/
def announced (h : Header) : Nat := (h.length.toInt % UInt64.size).toNat

/-- Bytes that follow the header, none if the announced length is shorter than the header. -/
def bodyLength (h : Header) : Nat := h.announced - size

/-- Whether a connection that takes messages of at most `limit` bytes takes the one announced. -/
def isAdmitted (h : Header) (limit : Nat) : Bool := 16 ≤ h.length && h.announced ≤ limit

/-- The same header with a length below sixteen raised to sixteen. -/
def roundUp (h : Header) : Header :=
  if h.length < 16 then { h with length := 16 } else h

@[simp] theorem length_encode (h : Header) : h.encode.length = size := by
  simp [encode, size]

theorem announced_of_nonneg {h : Header} (hl : 0 ≤ h.length.toInt) :
    h.announced = h.length.toInt.toNat := by
  have := h.length.toInt_lt
  simp only [announced, UInt64.size]
  omega

theorem toInt_roundUp (h : Header) : h.roundUp.length.toInt = max 16 h.length.toInt := by
  have h16 : (16 : Int32).toInt = 16 := rfl
  unfold roundUp
  by_cases hshort : h.length < 16
  · have := Int32.lt_iff_toInt_lt.mp hshort
    rw [if_pos hshort]
    dsimp only
    omega
  · have := mt Int32.lt_iff_toInt_lt.mpr hshort
    rw [if_neg hshort]
    omega

/-- Of a raised length the header takes sixteen, and no negative length is left to become a huge one. -/
theorem bodyLength_roundUp (h : Header) : (h.roundUp.bodyLength : Int) = max 16 h.length.toInt - 16 := by
  have hround := h.toInt_roundUp
  have hannounced := announced_of_nonneg (h := h.roundUp) (by omega)
  have hbody : h.roundUp.bodyLength = h.roundUp.announced - 16 := rfl
  omega

/-- But for the length nothing changes. -/
theorem roundUp_eq (h : Header) : h.roundUp = { h with length := h.roundUp.length } := by
  unfold roundUp
  split <;> rfl

/-- Admitted lengths, as numbers: from sixteen up to the limit. -/
theorem isAdmitted_iff {h : Header} {limit : Nat} :
    h.isAdmitted limit = true ↔ 16 ≤ h.length.toInt ∧ h.length.toInt ≤ limit := by
  have hle : (16 : Int32) ≤ h.length ↔ 16 ≤ h.length.toInt := Int32.le_iff_toInt_le
  simp only [isAdmitted, Bool.and_eq_true, decide_eq_true_eq, hle]
  constructor
  · rintro ⟨h16, hlimit⟩
    rw [announced_of_nonneg (by omega)] at hlimit
    exact ⟨h16, by omega⟩
  · rintro ⟨h16, hlimit⟩
    rw [announced_of_nonneg (by omega)]
    exact ⟨h16, by omega⟩

/-- An admitted header announces the number that stands in it. -/
theorem announced_of_isAdmitted {h : Header} {limit : Nat} (ha : h.isAdmitted limit = true) :
    (h.announced : Int) = h.length.toInt := by
  obtain ⟨h16, -⟩ := isAdmitted_iff.mp ha
  rw [announced_of_nonneg (by omega)]
  omega

/-- A word written at an offset is read there. -/
theorem wordAt_littleEndian (a c : Bytes) (x : UInt32) :
    wordAt (a ++ (Bytes.littleEndian 4 x.toNat ++ c)) a.length = x := by
  have hx := x.toNat_lt
  have htake : (Bytes.littleEndian 4 x.toNat ++ c).take 4 = Bytes.littleEndian 4 x.toNat := by
    rw [List.take_left' (Bytes.length_littleEndian 4 x.toNat)]
  have hval : Bytes.value (Bytes.littleEndian 4 x.toNat) = x.toNat := by
    rw [Bytes.value_littleEndian]
    exact Nat.mod_eq_of_lt hx
  rw [wordAt, List.drop_left, htake, hval, UInt32.ofNat_toNat]

/-- Writing the word that was read at an offset gives the four bytes there again. -/
theorem littleEndian_wordAt {b : Bytes} {k : Nat} (h : k + 4 ≤ b.length) :
    Bytes.littleEndian 4 (wordAt b k).toNat = (b.drop k).take 4 := by
  have hlen : ((b.drop k).take 4).length = 4 := by
    rw [List.length_take, List.length_drop]
    omega
  have hlt := Bytes.value_lt ((b.drop k).take 4)
  rw [hlen] at hlt
  have hword : (wordAt b k).toNat = Bytes.value ((b.drop k).take 4) := by
    rw [wordAt, UInt32.toNat_ofNat']
    exact Nat.mod_eq_of_lt hlt
  rw [hword]
  conv => rhs; rw [← Bytes.littleEndian_value ((b.drop k).take 4), hlen]

/-- **Reading inverts writing**, whatever follows the header. -/
theorem decode?_encode_append (h : Header) (rest : Bytes) :
    decode? (h.encode ++ rest) = some h := by
  have hlen : ((h.encode ++ rest).take size).length = size := by
    rw [List.length_take, List.length_append, length_encode]
    omega
  have h0 : wordAt (h.encode ++ rest) 0 = h.length.toUInt32 := by
    simpa [encode] using wordAt_littleEndian [] _ h.length.toUInt32
  have h4 : wordAt (h.encode ++ rest) 4 = h.issueTime := by
    simpa [encode] using
      wordAt_littleEndian (Bytes.littleEndian 4 h.length.toUInt32.toNat) _ h.issueTime
  have h8 : wordAt (h.encode ++ rest) 8 = h.serverId.toUInt32 := by
    simpa [encode] using
      wordAt_littleEndian
        (Bytes.littleEndian 4 h.length.toUInt32.toNat ++ Bytes.littleEndian 4 h.issueTime.toNat) _
        h.serverId.toUInt32
  have h12 : wordAt (h.encode ++ rest) 12 = h.messageId := by
    simpa [encode] using
      wordAt_littleEndian
        (Bytes.littleEndian 4 h.length.toUInt32.toNat ++ Bytes.littleEndian 4 h.issueTime.toNat ++
          Bytes.littleEndian 4 h.serverId.toUInt32.toNat) _ h.messageId
  rw [decode?, if_neg (by omega), h0, h4, h8, h12]
  simp

/-- **Writing inverts reading**: the header read from a string stands in its first sixteen bytes. -/
theorem encode_of_decode? {b : Bytes} {h : Header} (hd : decode? b = some h) :
    size ≤ b.length ∧ h.encode = b.take size := by
  unfold decode? at hd
  split at hd
  next => exact absurd hd (by simp)
  next hlen =>
    have hb : size ≤ b.length := by
      rw [List.length_take] at hlen
      omega
    have hb' : 16 ≤ b.length := hb
    rw [Option.some.injEq] at hd
    subst hd
    refine ⟨hb, ?_⟩
    have hwords : b.take size = b.take 4 ++ (b.drop 4).take 4 ++ (b.drop 8).take 4 ++
        (b.drop 12).take 4 := by
      rw [show size = 4 + 4 + 4 + 4 from rfl, List.take_add, List.take_add, List.take_add]
    rw [hwords, ← littleEndian_wordAt (b := b) (k := 4) (by omega),
      ← littleEndian_wordAt (b := b) (k := 8) (by omega),
      ← littleEndian_wordAt (b := b) (k := 12) (by omega)]
    have hfront := littleEndian_wordAt (b := b) (k := 0) (by omega)
    rw [List.drop_zero] at hfront
    rw [← hfront]
    simp only [encode, UInt32.toUInt32_toInt32]

/-- A string holds a header as soon as it has sixteen bytes. -/
theorem decode?_eq_none_iff {b : Bytes} : decode? b = none ↔ b.length < size := by
  unfold decode?
  rw [List.length_take]
  split
  next h => exact ⟨fun _ => by omega, fun _ => rfl⟩
  next h => exact ⟨fun he => absurd he (by simp), fun hlt => absurd hlt (by omega)⟩

/-- More bytes leave the header in front as it is. -/
theorem decode?_append {b : Bytes} {h : Header} (hd : decode? b = some h) (c : Bytes) :
    decode? (b ++ c) = some h := by
  obtain ⟨-, henc⟩ := encode_of_decode? hd
  have hb : b = h.encode ++ b.drop size := by rw [henc, List.take_append_drop]
  rw [hb, List.append_assoc]
  exact decode?_encode_append h _

end Header

end EchoLoad
