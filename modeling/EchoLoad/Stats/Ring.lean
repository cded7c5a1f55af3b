/-!
# The ring of recent samples

Each client port keeps its most recent samples, the length and the round-trip time of a response, in
a ring of slots. The sample with sequence number `n` goes into slot `n` modulo the capacity.

A slot is one word, so that a sample is read and written as a whole: the length stands in the upper
half, the time in the lower half. The word 0 marks an empty slot. A response always has a length, so
its word is never 0 (`Sample.pack_ne_zero`).
-/

namespace EchoLoad

/-- The length of a response and the ticks that it took. -/
structure Sample where
  length : UInt32
  rtt : UInt32
deriving DecidableEq, Repr, Inhabited

namespace Sample

/-- The word of a sample. -/
def pack (x : Sample) : UInt64 := x.length.toUInt64 <<< 32 ||| x.rtt.toUInt64

/-- The sample of a word. -/
def unpack (word : UInt64) : Sample := ⟨(word >>> 32).toUInt32, word.toUInt32⟩

theorem toNat_pack (x : Sample) : x.pack.toNat = x.length.toNat * 4294967296 + x.rtt.toNat := by
  have hlength := x.length.toNat_lt
  have hrtt : x.rtt.toNat < 2 ^ 32 := x.rtt.toNat_lt
  have hshift : (x.length.toUInt64 <<< 32).toNat = x.length.toNat <<< 32 := by
    simp only [UInt64.toNat_shiftLeft, UInt32.toNat_toUInt64, UInt64.reduceToNat, Nat.reduceMod,
      Nat.shiftLeft_eq]
    omega
  rw [pack, UInt64.toNat_or, hshift, UInt32.toNat_toUInt64, ← Nat.shiftLeft_add_eq_or_of_lt hrtt,
    Nat.shiftLeft_eq]

/-- A sample is read back from its word as it was. -/
theorem unpack_pack (x : Sample) : unpack x.pack = x := by
  have hword := x.toNat_pack
  have hlength := x.length.toNat_lt
  have hrtt := x.rtt.toNat_lt
  have hupper : (x.pack >>> 32).toUInt32 = x.length := by
    apply UInt32.toNat_inj.mp
    simp only [UInt64.toNat_toUInt32, UInt64.toNat_shiftRight, hword, UInt64.reduceToNat,
      Nat.reduceMod, Nat.shiftRight_eq_div_pow]
    omega
  have hlower : x.pack.toUInt32 = x.rtt := by
    apply UInt32.toNat_inj.mp
    rw [UInt64.toNat_toUInt32, hword]
    omega
  rw [unpack, hupper, hlower]

/-- No sample with a length is taken for an empty slot. -/
theorem pack_ne_zero {x : Sample} (h : 1 ≤ x.length) : x.pack ≠ 0 := by
  intro hzero
  have hword := x.toNat_pack
  rw [hzero] at hword
  have hlength : 1 ≤ x.length.toNat := UInt32.le_iff_toNat_le.mp h
  have : (0 : UInt64).toNat = 0 := rfl
  omega

end Sample

/-- A ring with at least one slot. -/
structure SampleRing where
  slots : Array UInt64
  nonempty : 0 < slots.size

namespace SampleRing

/-- An empty ring; a capacity of zero counts as one. -/
def new (capacity : Nat) : SampleRing :=
  ⟨Array.replicate (max capacity 1) 0, by rw [Array.size_replicate]; omega⟩

def capacity (r : SampleRing) : Nat := r.slots.size

/-- The slot of a sequence number. -/
def slot (r : SampleRing) (seq : Nat) : Fin r.slots.size :=
  ⟨seq % r.slots.size, Nat.mod_lt _ r.nonempty⟩

/-- Put a word into the slot of a sequence number. -/
def put (r : SampleRing) (seq : Nat) (word : UInt64) : SampleRing :=
  ⟨r.slots.set (r.slot seq) word, by rw [Array.size_set]; exact r.nonempty⟩

/-- Put the sample with a sequence number into its slot. -/
def store (r : SampleRing) (seq : Nat) (x : Sample) : SampleRing := r.put seq x.pack

/-- What the slot of a sequence number holds. -/
def get? (r : SampleRing) (seq : Nat) : Option Sample :=
  let word := r.slots[r.slot seq]
  if word = 0 then none else some (.unpack word)

/-- Take the sample of a sequence number out of its slot. -/
def take (r : SampleRing) (seq : Nat) : Option Sample × SampleRing := (r.get? seq, r.put seq 0)

/-- Take the samples of `count` sequence numbers from `first` on; empty slots are passed over. -/
def takeFrom (r : SampleRing) (first : Nat) : Nat → List Sample × SampleRing
  | 0 => ([], r)
  | count + 1 =>
    let (x, r) := r.take first
    let (rest, r) := r.takeFrom (first + 1) count
    (x.toList ++ rest, r)

@[simp] theorem capacity_new (n : Nat) : (new n).capacity = max n 1 := by
  simp [new, capacity]

@[simp] theorem capacity_put (r : SampleRing) (seq : Nat) (word : UInt64) :
    (r.put seq word).capacity = r.capacity := by
  simp [put, capacity]

@[simp] theorem capacity_store (r : SampleRing) (seq : Nat) (x : Sample) :
    (r.store seq x).capacity = r.capacity := capacity_put ..

end SampleRing

end EchoLoad
